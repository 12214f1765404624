import MarkorbitKnowledge.Cadence.AdaptiveRecrawl
import Mathlib.Tactic.Linarith

/-!
# Bounds and damping of the cadence

Every change of an interval is into the bounds of the policy, or halves or doubles an interval
inside them on the evidence the policy asks for; a halved interval is rounded down.  The change
leaves its instant and the interval before it in the plan's extensions, where every later evaluation
that changes nothing keeps them, so the next change waits for three of the longer intervals.
-/

namespace MarkorbitKnowledge.Cadence

open Contracts Fallible Tables Transitions
open Execution (RegistryError)

/-! ### One recommendation -/

def AdaptiveRecrawlPolicy.InBounds (policy : AdaptiveRecrawlPolicy) (interval : Nat) : Prop :=
  policy.minimumIntervalSeconds ≤ interval ∧ interval ≤ policy.maximumIntervalSeconds

theorem policy_bounds (sourceClass : AdaptiveRecrawlSourceClass) :
    (adaptiveRecrawlPolicy sourceClass).minimumIntervalSeconds ≤
      (adaptiveRecrawlPolicy sourceClass).maximumIntervalSeconds := by
  cases sourceClass <;> decide

/-- What a recommendation to change the interval rests on. -/
inductive Recommends (policy : AdaptiveRecrawlPolicy) (current : Nat) (rate : ℚ) : Nat → Prop where
  | raises (h : current < policy.minimumIntervalSeconds) :
      Recommends policy current rate policy.minimumIntervalSeconds
  | caps (h : policy.maximumIntervalSeconds < current) :
      Recommends policy current rate policy.maximumIntervalSeconds
  | shortens (hbounds : policy.InBounds current)
      (hrate : rate ≤ policy.fasterAtOrBelowNoChangePercent) :
      Recommends policy current rate (max policy.minimumIntervalSeconds (current / 2))
  | lengthens (hbounds : policy.InBounds current)
      (hrate : policy.slowerAtOrAboveNoChangePercent ≤ rate) :
      Recommends policy current rate (min policy.maximumIntervalSeconds (current * 2))

theorem recommend_fields (input : RecommendInput) :
    let r := recommendAdaptiveRecrawlCadence input
    r.currentIntervalSeconds = input.currentIntervalSeconds ∧
      r.evidenceRuns = input.evidenceRuns ∧
      r.metadataOnlyRuns = min input.evidenceRuns input.metadataOnlyRuns ∧
      r.noChangeRatePercent = percentage r.metadataOnlyRuns r.evidenceRuns := by
  unfold recommendAdaptiveRecrawlCadence
  dsimp only
  split_ifs <;> exact ⟨rfl, rfl, rfl, rfl⟩

/-- A recommendation to change the interval comes after the cooldown and rests on the evidence. -/
theorem recommend_cases (input : RecommendInput)
    (h : (recommendAdaptiveRecrawlCadence input).recommendedIntervalSeconds ≠
      input.currentIntervalSeconds) :
    ADAPTIVE_RECRAWL_MIN_EVIDENCE_RUNS ≤ input.evidenceRuns ∧
      (∀ cooldownUntil, cooldownEnd input = some cooldownUntil →
        cooldownUntil ≤ input.observedAt) ∧
      Recommends (adaptiveRecrawlPolicy input.sourceClass) input.currentIntervalSeconds
        (recommendAdaptiveRecrawlCadence input).noChangeRatePercent
        (recommendAdaptiveRecrawlCadence input).recommendedIntervalSeconds := by
  have hle := policy_bounds input.sourceClass
  unfold recommendAdaptiveRecrawlCadence at h ⊢
  dsimp only at h ⊢
  split_ifs at h ⊢ with hevidence hcooldown hbounded hfast hsame hslow
  · exact absurd rfl h
  · exact absurd rfl h
  all_goals
    have hwaited : ∀ cooldownUntil, cooldownEnd input = some cooldownUntil →
        cooldownUntil ≤ input.observedAt := by
      intro cooldownUntil hend
      rw [hend] at hcooldown
      exact le_of_not_gt (by simpa using hcooldown)
    refine ⟨Nat.le_of_not_lt hevidence, hwaited, ?_⟩
  · dsimp only
    by_cases hlow : input.currentIntervalSeconds <
        (adaptiveRecrawlPolicy input.sourceClass).minimumIntervalSeconds
    · rw [max_eq_left hlow.le, min_eq_right hle]
      exact .raises hlow
    · rw [max_eq_right (Nat.le_of_not_lt hlow)] at hbounded ⊢
      have hhigh : (adaptiveRecrawlPolicy input.sourceClass).maximumIntervalSeconds <
          input.currentIntervalSeconds := by omega
      rw [min_eq_left hhigh.le]
      exact .caps hhigh
  all_goals
    have hin : (adaptiveRecrawlPolicy input.sourceClass).InBounds input.currentIntervalSeconds := by
      rw [AdaptiveRecrawlPolicy.InBounds]
      omega
  · exact .shortens hin hfast
  · exact .shortens hin hfast
  · exact .lengthens hin hslow
  · exact .lengthens hin hslow
  · exact absurd rfl h

/-- The rounded rate is at most the fast threshold only where the rate itself is. -/
theorem rate_le_of_percentage_le {n d : Nat} (hd : 0 < d) (hwindow : d ≤ 12)
    (h : percentage n d ≤ (40 : Nat)) : 100 * n ≤ 40 * d := by
  have hd' : (0 : ℚ) < d := by exact_mod_cast hd
  rw [percentage, if_neg hd.ne', div_le_iff₀ (by norm_num)] at h
  have hfloor : ⌊(n : ℚ) / d * 1000 + 1 / 2⌋ < 401 := by
    have : (⌊(n : ℚ) / d * 1000 + 1 / 2⌋ : ℚ) < 401 := lt_of_le_of_lt h (by norm_num)
    exact_mod_cast this
  have hlt := Int.floor_lt.mp hfloor
  have hn : (n : ℚ) * 2000 < 801 * d := by
    have hdiv : (n : ℚ) / d < 801 / 2000 := by
      push_cast at hlt
      linarith
    rw [div_lt_iff₀ hd'] at hdiv
    linarith
  have hn' : n * 2000 < 801 * d := by exact_mod_cast hn
  omega

/-- The rounded rate is at least the slow threshold only where the rate itself is. -/
theorem rate_ge_of_percentage_ge {n d : Nat} (hd : 0 < d) (hwindow : d ≤ 12)
    (h : ((90 : Nat) : ℚ) ≤ percentage n d) : 90 * d ≤ 100 * n := by
  have hd' : (0 : ℚ) < d := by exact_mod_cast hd
  rw [percentage, if_neg hd.ne', le_div_iff₀ (by norm_num)] at h
  have hfloor : (900 : ℤ) ≤ ⌊(n : ℚ) / d * 1000 + 1 / 2⌋ := by
    have : ((900 : ℤ) : ℚ) ≤ ⌊(n : ℚ) / d * 1000 + 1 / 2⌋ := by
      push_cast
      linarith
    exact_mod_cast this
  have hle := Int.le_floor.mp hfloor
  have hn : 1799 * (d : ℚ) ≤ n * 2000 := by
    have hdiv : (1799 : ℚ) / 2000 ≤ n / d := by
      push_cast at hle
      linarith
    rw [le_div_iff₀ hd'] at hdiv
    linarith
  have hn' : 1799 * d ≤ n * 2000 := by exact_mod_cast hn
  omega

/-! ### One evaluation -/

/-- A change of the interval: when it was made, what the interval was before and after it, and the
    evidence it was made on. -/
structure AppliedChange where
  changedAt : Timestamp
  previousSeconds : Nat
  currentSeconds : Nat
  evidenceRuns : Nat
  metadataOnlyRuns : Nat
deriving DecidableEq

variable (platform : Platform)

/-- The change an evaluation reports. -/
def changeOf (db : Database) : Label → Option AppliedChange
  | .apply jobId observedAt refused now =>
    match (applyAdaptiveRecrawlCadenceForCompletedJob platform jobId observedAt refused now db).1 with
    | .error _ => none
    | .ok result =>
      if result.applied then
        some ⟨result.evaluatedAt, result.currentIntervalSeconds, result.recommendedIntervalSeconds,
          result.evidenceRuns, result.metadataOnlyRuns⟩
      else none
  | .recordAttempt _ _ => none

/-- The changes of a run, oldest first. -/
def appliedChanges (db : Database) : List Label → List AppliedChange
  | [] => []
  | label :: labels => (changeOf platform db label).toList ++
      appliedChanges (step platform db label) labels

/-- The plan after an evaluation. -/
def evaluatedPlan (plan : CollectionPlan) (pollIntervalSeconds : Nat) (observedAt now : Timestamp)
    (r : AdaptiveRecrawlRecommendation) : CollectionPlan :=
  { plan with
    schedule := .changeWatch r.recommendedIntervalSeconds
    extensions := nextExtensions plan.extensions pollIntervalSeconds observedAt r
    updatedAt := now }

/-- What a step does: nothing to the plans, or one evaluation of a plan. -/
inductive Moved (db : Database) : Label → Option AppliedChange → Database → Prop where
  | rests (label : Label) (db' : Database) (hplans : db'.plans = db.plans) :
      Moved db label none db'
  | evaluates (jobId : Id) (observedAt : Timestamp) (refused : Option RegistryError) (now : Timestamp)
      (job : Job) (plan : CollectionPlan) (pollIntervalSeconds : Nat)
      (sourceClass : AdaptiveRecrawlSourceClass)
      (hjob : db.jobs.find? (fun job => job.id = jobId) = some job)
      (hplan : find? db.plans job.planId = some plan)
      (hschedule : plan.schedule = .changeWatch pollIntervalSeconds)
      (hclass : sourceClassFromJob job = some sourceClass)
      (r : AdaptiveRecrawlRecommendation)
      (hr : r = recommendationFor platform db plan pollIntervalSeconds sourceClass observedAt)
      (db' : Database)
      (hplans : db'.plans =
        update db.plans (evaluatedPlan plan pollIntervalSeconds observedAt now r)) :
      Moved db (.apply jobId observedAt refused now)
        (if r.recommendedIntervalSeconds ≠ pollIntervalSeconds then
          some ⟨observedAt, pollIntervalSeconds, r.recommendedIntervalSeconds, r.evidenceRuns,
            r.metadataOnlyRuns⟩
        else none) db'

theorem updatePlan_eq_ok {id : Id} {schedule : CollectionSchedule} {extensions : Extensions}
    {expectedUpdatedAt : Timestamp} {refused : Option RegistryError} {now : Timestamp}
    {db db' : Database}
    (h : updatePlan id schedule extensions expectedUpdatedAt refused now db = .ok db') :
    ∃ current, find? db.plans id = some current ∧
      db'.plans = update db.plans { current with
        schedule := schedule, extensions := extensions, updatedAt := now } := by
  simp only [updatePlan, toISOString, bind_eq_ok, orThrow_eq_ok, require_eq_ok, pure_eq_ok] at h
  obtain ⟨current, hcurrent, -, -, timestamp, ⟨-, -, rfl⟩, -, -, h⟩ := h
  cases refused with
  | some error => cases h
  | none =>
    rw [← Except.ok.inj h]
    exact ⟨current, hcurrent, rfl⟩

/-- What the body of an evaluation did where it returns. -/
theorem applyBody_cases {jobId : Id} {observedAt : Timestamp} {refused : Option RegistryError}
    {now : Timestamp} {db db' : Database} {result : AdaptiveRecrawlApplyResult}
    (h : applyBody platform jobId observedAt refused now db = .ok (result, db')) :
    Moved platform db (.apply jobId observedAt refused now)
      (if result.applied then some ⟨result.evaluatedAt, result.currentIntervalSeconds,
        result.recommendedIntervalSeconds, result.evidenceRuns, result.metadataOnlyRuns⟩
      else none) db' := by
  -- an evaluation that is skipped changes nothing
  have hskipped : ∀ planId current enabled evaluatedAt reason,
      (pure (skipped planId current enabled evaluatedAt reason, db) :
        Except RegistryError (AdaptiveRecrawlApplyResult × Database)) = .ok (result, db') →
      Moved platform db (.apply jobId observedAt refused now)
        (if result.applied then some ⟨result.evaluatedAt, result.currentIntervalSeconds,
          result.recommendedIntervalSeconds, result.evidenceRuns, result.metadataOnlyRuns⟩
        else none) db' := by
    intro planId current enabled evaluatedAt reason hpure
    obtain ⟨rfl, rfl⟩ := Prod.mk.inj (pure_eq_ok.mp hpure)
    exact .rests _ db rfl
  simp only [applyBody, toISOString, bind_eq_ok, require_eq_ok, pure_eq_ok] at h
  obtain ⟨evaluatedAt, ⟨-, -, rfl⟩, h⟩ := h
  split at h
  · exact hskipped _ _ _ _ _ h
  · rename_i job hjob
    split at h
    · exact hskipped _ _ _ _ _ h
    · rename_i plan hplan
      split at h
      · exact hskipped _ _ _ _ _ h
      · split at h
        · exact hskipped _ _ _ _ _ h
        · rename_i pollIntervalSeconds hschedule
          split at h
          · exact hskipped _ _ _ _ _ h
          · split at h
            · exact hskipped _ _ _ _ _ h
            · rename_i sourceClass hclass
              simp only [bind_eq_ok, pure_eq_ok, Prod.mk.injEq] at h
              obtain ⟨written, hupdate, rfl, rfl⟩ := h
              obtain ⟨current, hcurrent, hplans⟩ := updatePlan_eq_ok hupdate
              have hid : plan.id = job.planId := key_of_find? hplan
              rw [hid, hplan, Option.some.injEq] at hcurrent
              subst hcurrent
              have hpoll : (recommendationFor platform db plan pollIntervalSeconds sourceClass
                  observedAt).currentIntervalSeconds = pollIntervalSeconds :=
                (recommend_fields _).1
              have hmoved := @Moved.evaluates platform db jobId observedAt refused now job
                plan pollIntervalSeconds sourceClass hjob hplan hschedule hclass _ rfl written hplans
              simpa only [hpoll, decide_eq_true_eq] using hmoved

theorem moved_step (db : Database) (label : Label) :
    Moved platform db label (changeOf platform db label) (step platform db label) := by
  cases label with
  | apply jobId observedAt refused now =>
    simp only [changeOf, step, applyAdaptiveRecrawlCadenceForCompletedJob]
    cases hbody : applyBody platform jobId observedAt refused now db with
    | error e =>
      rw [commit_of_error hbody]
      exact .rests _ db rfl
    | ok r =>
      obtain ⟨result, db'⟩ := r
      rw [commit_of_ok hbody]
      exact applyBody_cases platform hbody
  | recordAttempt job attempt => exact .rests _ _ rfl

/-! ### What a change says and leaves behind -/

/-- A change is into the bounds, or on the evidence of the policy and by a factor of two at most. -/
structure Damped (policy : AdaptiveRecrawlPolicy) (change : AppliedChange) : Prop where
  bounds : policy.InBounds change.currentSeconds
  shortened : change.currentSeconds < change.previousSeconds →
    100 * change.metadataOnlyRuns ≤ policy.fasterAtOrBelowNoChangePercent * change.evidenceRuns ∨
      policy.maximumIntervalSeconds < change.previousSeconds
  lengthened : change.previousSeconds < change.currentSeconds →
    policy.slowerAtOrAboveNoChangePercent * change.evidenceRuns ≤ 100 * change.metadataOnlyRuns ∨
      change.previousSeconds < policy.minimumIntervalSeconds
  factor : policy.InBounds change.previousSeconds →
    change.previousSeconds / 2 ≤ change.currentSeconds ∧
      change.currentSeconds ≤ 2 * change.previousSeconds

/-- When three of the longer intervals before and after a change have passed, in milliseconds. -/
def AppliedChange.cooldownEnd (change : AppliedChange) : Timestamp :=
  change.changedAt + 3000 * (max change.previousSeconds change.currentSeconds : Nat)

/-- A change comes no earlier than three intervals after another one, where a `Date` can hold that. -/
def Spaced (change next : AppliedChange) : Prop :=
  isDate change.cooldownEnd = true → change.cooldownEnd ≤ next.changedAt

/-- The plan is as the change left it, evaluations that changed nothing apart. -/
structure Follows (policy : AdaptiveRecrawlPolicy) (planId : Id) (change : AppliedChange)
    (db : Database) : Prop where
  stored : ∃ plan, find? db.plans planId = some plan ∧
    plan.schedule = .changeWatch change.currentSeconds ∧
    plan.extensions "x-markorbit-adaptive-cadence-last-changed-at" =
      some (.instant change.changedAt) ∧
    plan.extensions "x-markorbit-adaptive-cadence-previous-seconds" =
      some (.number change.previousSeconds)
  bounds : policy.InBounds change.currentSeconds

/-- Evaluations are for jobs of one plan and one source class. -/
def OneClass (planId : Id) (sourceClass : AdaptiveRecrawlSourceClass) (db : Database) :
    Label → Prop
  | .apply jobId _ _ _ => ∀ job, db.jobs.find? (fun job => job.id = jobId) = some job →
      job.planId = planId ∧ ∀ c, sourceClassFromJob job = some c → c = sourceClass
  | .recordAttempt _ _ => True

def observedAt? : Label → Option Timestamp
  | .apply _ observedAt _ _ => some observedAt
  | .recordAttempt _ _ => none

theorem nextExtensions_applied (extensions : Extensions) {poll : Nat} (evaluatedAt : Timestamp)
    {r : AdaptiveRecrawlRecommendation} (h : r.recommendedIntervalSeconds ≠ poll) :
    nextExtensions extensions poll evaluatedAt r "x-markorbit-adaptive-cadence-last-changed-at" =
        some (.instant evaluatedAt) ∧
      nextExtensions extensions poll evaluatedAt r "x-markorbit-adaptive-cadence-previous-seconds" =
        some (.number poll) := by
  simp [nextExtensions, h]

theorem nextExtensions_kept (extensions : Extensions) {poll : Nat} (evaluatedAt : Timestamp)
    {r : AdaptiveRecrawlRecommendation} (h : r.recommendedIntervalSeconds = poll) :
    nextExtensions extensions poll evaluatedAt r "x-markorbit-adaptive-cadence-last-changed-at" =
        extensions "x-markorbit-adaptive-cadence-last-changed-at" ∧
      nextExtensions extensions poll evaluatedAt r "x-markorbit-adaptive-cadence-previous-seconds" =
        some (.number ((extensionNumber extensions
          "x-markorbit-adaptive-cadence-previous-seconds").getD poll)) := by
  simp [nextExtensions, h]

theorem evidenceForPlan_le (db : Database) (planId : Id) (observedAt : Timestamp) :
    (evidenceForPlan db planId observedAt).1 ≤ 12 :=
  List.length_take_le _ _

theorem Recommends.damped {sourceClass : AdaptiveRecrawlSourceClass} {poll next n d : Nat}
    (hpos : 0 < d) (hwindow : d ≤ 12)
    (h : Recommends (adaptiveRecrawlPolicy sourceClass) poll (percentage n d) next)
    (observedAt : Timestamp) :
    Damped (adaptiveRecrawlPolicy sourceClass) ⟨observedAt, poll, next, d, n⟩ := by
  have hpolicy := policy_bounds sourceClass
  have hthresholds : (adaptiveRecrawlPolicy sourceClass).fasterAtOrBelowNoChangePercent = 40 ∧
      (adaptiveRecrawlPolicy sourceClass).slowerAtOrAboveNoChangePercent = 90 := by
    cases sourceClass <;> exact ⟨rfl, rfl⟩
  cases h with
  | raises hlow =>
    exact ⟨⟨le_rfl, hpolicy⟩, fun hlt => absurd hlt hlow.asymm, fun _ => Or.inr hlow,
      fun hin => absurd hin.1 (Nat.not_le_of_lt hlow)⟩
  | caps hhigh =>
    exact ⟨⟨hpolicy, le_rfl⟩, fun _ => Or.inr hhigh, fun hlt => absurd hlt hhigh.asymm,
      fun hin => absurd hin.2 (Nat.not_le_of_lt hhigh)⟩
  | shortens hin hfast =>
    rw [hthresholds.1] at hfast
    have hratio := rate_le_of_percentage_le hpos hwindow hfast
    obtain ⟨hlow, hhigh⟩ := hin
    constructor
    · exact ⟨le_max_left _ _, max_le hpolicy (le_trans (Nat.div_le_self _ _) hhigh)⟩
    · exact fun _ => Or.inl (hthresholds.1.symm ▸ hratio)
    · exact fun hlt => absurd hlt (Nat.not_lt_of_le (max_le hlow (Nat.div_le_self _ _)))
    · have hhalf : poll / 2 ≤ 2 * poll := by omega
      have hmin : (adaptiveRecrawlPolicy sourceClass).minimumIntervalSeconds ≤ 2 * poll := by omega
      exact fun _ => ⟨le_max_right _ _, max_le hmin hhalf⟩
  | lengthens hin hslow =>
    rw [hthresholds.2] at hslow
    have hratio := rate_ge_of_percentage_ge hpos hwindow hslow
    obtain ⟨hlow, hhigh⟩ := hin
    have hdouble : poll ≤ poll * 2 := by omega
    constructor
    · exact ⟨le_min hpolicy (le_trans hlow hdouble), min_le_left _ _⟩
    · exact fun hlt => absurd hlt (Nat.not_lt_of_le (le_min hhigh hdouble))
    · exact fun _ => Or.inl (hthresholds.2.symm ▸ hratio)
    · have hhalf : poll / 2 ≤ poll * 2 := by omega
      have hmax : poll / 2 ≤ (adaptiveRecrawlPolicy sourceClass).maximumIntervalSeconds := by omega
      exact fun _ => ⟨le_min hmax hhalf, le_trans (min_le_right _ _) (Nat.mul_comm poll 2).le⟩

/-- A change that is recommended is damped. -/
theorem damped_of_recommended {db : Database} {plan : CollectionPlan} {poll : Nat}
    {sourceClass : AdaptiveRecrawlSourceClass} {observedAt : Timestamp}
    {r : AdaptiveRecrawlRecommendation}
    (hr : r = recommendationFor platform db plan poll sourceClass observedAt)
    (h : r.recommendedIntervalSeconds ≠ poll) :
    Damped (adaptiveRecrawlPolicy sourceClass)
      ⟨observedAt, poll, r.recommendedIntervalSeconds, r.evidenceRuns, r.metadataOnlyRuns⟩ := by
  subst hr
  obtain ⟨hevidence, -, hrecommends⟩ := recommend_cases _ h
  obtain ⟨-, hruns, -, hrate⟩ :=
    recommend_fields (recommendInput platform db plan poll sourceClass observedAt)
  rw [hrate] at hrecommends
  have hwindow : (recommendationFor platform db plan poll sourceClass observedAt).evidenceRuns ≤ 12 :=
    le_of_eq_of_le hruns (evidenceForPlan_le db plan.id observedAt)
  have hpos : 0 < (recommendationFor platform db plan poll sourceClass observedAt).evidenceRuns :=
    lt_of_lt_of_eq (lt_of_lt_of_le (by decide) hevidence) hruns.symm
  exact hrecommends.damped hpos hwindow observedAt

/-- Where a change is recommended, the cooldown after the last one has passed. -/
theorem spaced_of_recommended {db : Database} {plan : CollectionPlan} {poll : Nat}
    {sourceClass : AdaptiveRecrawlSourceClass} {observedAt : Timestamp}
    {r : AdaptiveRecrawlRecommendation}
    (hr : r = recommendationFor platform db plan poll sourceClass observedAt)
    (h : r.recommendedIntervalSeconds ≠ poll) {change next : AppliedChange}
    (hpoll : change.currentSeconds = poll) (hnext : next.changedAt = observedAt)
    (hchanged : plan.extensions "x-markorbit-adaptive-cadence-last-changed-at" =
      some (.instant change.changedAt))
    (hprevious : plan.extensions "x-markorbit-adaptive-cadence-previous-seconds" =
      some (.number change.previousSeconds)) : Spaced change next := by
  subst hr
  intro hdate
  obtain ⟨-, hcooldown, -⟩ := recommend_cases _ h
  rw [hnext]
  refine hcooldown _ ?_
  have hvalue : (change.changedAt : ℚ) + max (poll : ℚ) (change.previousSeconds : ℚ) *
      (ADAPTIVE_RECRAWL_COOLDOWN_INTERVALS : ℚ) * 1000 = ((change.cooldownEnd : ℤ) : ℚ) := by
    rw [AppliedChange.cooldownEnd, hpoll, ADAPTIVE_RECRAWL_COOLDOWN_INTERVALS, max_comm]
    push_cast
    ring
  have hclip : timeClip ((change.cooldownEnd : ℤ) : ℚ) = some change.cooldownEnd := by
    have habs : |((change.cooldownEnd : ℤ) : ℚ)| ≤ 8640000000000000 := by
      rw [isDate, decide_eq_true_eq] at hdate
      have hint : |(change.cooldownEnd : ℤ)| ≤ 8640000000000000 := by
        rw [Int.abs_eq_natAbs]
        exact_mod_cast hdate
      exact_mod_cast hint
    rw [timeClip, if_pos habs, Int.floor_intCast, Int.ceil_intCast, ite_self]
  simp only [cooldownEnd, recommendInput, extensionDate, extensionNumber, hchanged, hprevious,
    Option.bind_some, Option.getD_some]
  rw [hvalue, hclip]

/-! ### Steps -/

section Steps

variable {platform} {db db' : Database} {label : Label} {change? : Option AppliedChange} {planId : Id}
  {sourceClass : AdaptiveRecrawlSourceClass}

theorem find?_evaluated {plans : List CollectionPlan} {plan next : CollectionPlan} {id : Id}
    (h : find? plans id = some plan) (hid : next.id = plan.id) :
    find? (update plans next) id = some next := by
  have hplan := key_of_find? h
  rw [← hplan, key_collectionPlan, ← hid]
  exact find?_update_self ⟨plan, mem_of_find? h, hid.symm⟩

/-- A change is damped, made when the step observes, and what the plan follows from then on. -/
theorem Moved.change (h : Moved platform db label change? db')
    (hone : OneClass planId sourceClass db label) {change : AppliedChange}
    (hchange : change? = some change) :
    Damped (adaptiveRecrawlPolicy sourceClass) change ∧ observedAt? label = some change.changedAt ∧
      Follows (adaptiveRecrawlPolicy sourceClass) planId change db' := by
  cases h with
  | rests => cases hchange
  | evaluates jobId observedAt refused now job plan poll sc hjob hplan hschedule hclass r hr _ hplans =>
    obtain ⟨rfl, hsame⟩ := hone job hjob
    obtain rfl : sc = sourceClass := hsame sc hclass
    split at hchange
    · rename_i happlied
      obtain rfl := Option.some.inj hchange
      have hdamped := damped_of_recommended platform hr happlied
      obtain ⟨hchanged, hprevious⟩ :=
        nextExtensions_applied plan.extensions observedAt happlied
      refine ⟨hdamped, rfl, ⟨⟨evaluatedPlan plan poll observedAt now r, ?_, rfl, hchanged, hprevious⟩,
        hdamped.bounds⟩⟩
      rw [hplans]
      exact find?_evaluated hplan rfl
    · cases hchange

/-- Where a plan follows a change, a step keeps it so or makes a change that is spaced from it. -/
theorem Moved.follows (h : Moved platform db label change? db')
    (hone : OneClass planId sourceClass db label) {last : AppliedChange}
    (hlast : Follows (adaptiveRecrawlPolicy sourceClass) planId last db) :
    (change? = none → Follows (adaptiveRecrawlPolicy sourceClass) planId last db') ∧
      ∀ change, change? = some change → Spaced last change := by
  obtain ⟨⟨stored, hstored, hinterval, hchangedAt, hpreviousSeconds⟩, hbounds⟩ := hlast
  cases h with
  | rests _ _ hplans =>
    refine ⟨fun _ => ⟨⟨stored, ?_, hinterval, hchangedAt, hpreviousSeconds⟩, hbounds⟩, ?_⟩
    · rw [hplans]
      exact hstored
    · intro change hchange
      cases hchange
  | evaluates jobId observedAt refused now job plan poll sc hjob hplan hschedule hclass r hr _ hplans =>
    obtain ⟨rfl, -⟩ := hone job hjob
    rw [hplan, Option.some.injEq] at hstored
    subst hstored
    rw [hschedule, CollectionSchedule.changeWatch.injEq] at hinterval
    constructor
    · intro hnone
      split at hnone
      · cases hnone
      · rename_i hsame
        rw [not_not] at hsame
        obtain ⟨hkept, hprevious⟩ :=
          nextExtensions_kept plan.extensions observedAt hsame
        refine ⟨⟨evaluatedPlan plan poll observedAt now r, ?_, ?_, ?_, ?_⟩, hbounds⟩
        · rw [hplans]
          exact find?_evaluated hplan rfl
        · rw [evaluatedPlan, hsame, hinterval]
        · exact hkept.trans hchangedAt
        · refine hprevious.trans ?_
          rw [extensionNumber, hpreviousSeconds]
          rfl
    · intro change hchange
      split at hchange
      · rename_i happlied
        obtain rfl := Option.some.inj hchange
        exact spaced_of_recommended platform hr happlied hinterval.symm rfl hchangedAt hpreviousSeconds
      · cases hchange

end Steps

/-! ### Runs -/

/-- The instants the evaluations of a run observe. -/
def observedAts (labels : List Label) : List Timestamp := labels.filterMap observedAt?

section Runs

variable {platform} {planId : Id} {sourceClass : AdaptiveRecrawlSourceClass}

theorem changedAt_mem_observedAts {labels : List Label} {init db : Database}
    (hone : (cadence platform init).Throughout (OneClass planId sourceClass) db labels) :
    ∀ change ∈ appliedChanges platform db labels, change.changedAt ∈ observedAts labels := by
  induction labels generalizing db with
  | nil => simp [appliedChanges]
  | cons label labels ih =>
    intro change hmem
    rw [appliedChanges, List.mem_append, Option.mem_toList] at hmem
    rw [observedAts, List.mem_filterMap]
    rcases hmem with hmem | hmem
    · exact ⟨label, List.mem_cons_self,
        ((moved_step platform db label).change hone.1 hmem).2.1⟩
    · obtain ⟨later, hlater, hobserved⟩ := List.mem_filterMap.mp (ih hone.2 change hmem)
      exact ⟨later, List.mem_cons_of_mem _ hlater, hobserved⟩

/-- Changes of a run that begins after a change. -/
theorem changes_after {labels : List Label} {init db : Database} {last : AppliedChange}
    (hone : (cadence platform init).Throughout (OneClass planId sourceClass) db labels)
    (htimes : (observedAts labels).Pairwise (· ≤ ·))
    (hlast : Follows (adaptiveRecrawlPolicy sourceClass) planId last db) :
    (∀ change ∈ appliedChanges platform db labels, Spaced last change) ∧
      (appliedChanges platform db labels).Pairwise Spaced ∧
      ∃ change, Follows (adaptiveRecrawlPolicy sourceClass) planId change
        ((cadence platform init).runFrom db labels) := by
  induction labels generalizing db last with
  | nil => exact ⟨by simp [appliedChanges], List.Pairwise.nil, last, hlast⟩
  | cons label labels ih =>
    have hmoved := moved_step platform db label
    obtain ⟨hkeeps, hspaced⟩ := hmoved.follows hone.1 hlast
    cases hchange : changeOf platform db label with
    | none =>
      have htimes' : (observedAts labels).Pairwise (· ≤ ·) :=
        htimes.sublist ((List.sublist_cons_self label labels).filterMap _)
      rw [appliedChanges, hchange]
      exact ih hone.2 htimes' (hkeeps hchange)
    | some change =>
      obtain ⟨-, hobserved, hfollows⟩ := hmoved.change hone.1 hchange
      rw [observedAts, List.filterMap_cons_some hobserved, List.pairwise_cons] at htimes
      obtain ⟨hafter, hpairwise, hend⟩ := ih hone.2 htimes.2 hfollows
      have hfirst := hspaced change hchange
      rw [appliedChanges, hchange, Option.toList_some, List.singleton_append]
      refine ⟨fun next hnext => ?_, List.pairwise_cons.mpr ⟨hafter, hpairwise⟩, hend⟩
      rcases List.mem_cons.mp hnext with rfl | hnext
      · exact hfirst
      · exact fun hdate => le_trans (hfirst hdate)
          (htimes.1 _ (changedAt_mem_observedAts hone.2 next hnext))

/-- The changes of every run are damped and spaced, and after the first one the plan follows one. -/
theorem changes_run {labels : List Label} {init db : Database}
    (hone : (cadence platform init).Throughout (OneClass planId sourceClass) db labels)
    (htimes : (observedAts labels).Pairwise (· ≤ ·)) :
    (∀ change ∈ appliedChanges platform db labels,
      Damped (adaptiveRecrawlPolicy sourceClass) change) ∧
      (appliedChanges platform db labels).Pairwise Spaced ∧
      (appliedChanges platform db labels ≠ [] → ∃ change,
        Follows (adaptiveRecrawlPolicy sourceClass) planId change
          ((cadence platform init).runFrom db labels)) := by
  induction labels generalizing db with
  | nil => exact ⟨by simp [appliedChanges], List.Pairwise.nil, fun h => absurd rfl h⟩
  | cons label labels ih =>
    have htimes' : (observedAts labels).Pairwise (· ≤ ·) :=
      htimes.sublist ((List.sublist_cons_self label labels).filterMap _)
    obtain ⟨hdamped, hpairwise, hend⟩ := ih hone.2 htimes'
    have hmoved := moved_step platform db label
    cases hchange : changeOf platform db label with
    | none =>
      rw [appliedChanges, hchange]
      exact ⟨hdamped, hpairwise, hend⟩
    | some change =>
      obtain ⟨hfirst, -, hfollows⟩ := hmoved.change hone.1 hchange
      obtain ⟨hafter, -, hfollowed⟩ := changes_after hone.2 htimes' hfollows
      rw [appliedChanges, hchange, Option.toList_some, List.singleton_append]
      refine ⟨?_, List.pairwise_cons.mpr ⟨hafter, hpairwise⟩, fun _ => hfollowed⟩
      intro next hnext
      rcases List.mem_cons.mp hnext with rfl | hnext
      · exact hfirst
      · exact hdamped next hnext

end Runs

/-! ### The cadence -/

/-- In every run of evaluations for one plan and one source class, observed in order, the interval is
    within the bounds of the policy from the first change on; every change is into the bounds or on
    the evidence the policy asks for, by a factor of two at most with a half rounded down; and two
    changes are three of the longer intervals around the earlier one apart, where a `Date` can hold
    the end of that time. -/
theorem cadence_damped (platform : Platform) (planId : Id)
    (sourceClass : AdaptiveRecrawlSourceClass) (db : Database) (labels : List Label)
    (hone : (cadence platform db).Throughout (OneClass planId sourceClass) db labels)
    (htimes : (observedAts labels).Pairwise (· ≤ ·)) :
    (appliedChanges platform db labels ≠ [] →
      ∃ plan interval, find? ((cadence platform db).run labels).plans planId = some plan ∧
        plan.schedule = .changeWatch interval ∧
        (adaptiveRecrawlPolicy sourceClass).InBounds interval) ∧
    (∀ change ∈ appliedChanges platform db labels,
      Damped (adaptiveRecrawlPolicy sourceClass) change) ∧
    (appliedChanges platform db labels).Pairwise Spaced := by
  obtain ⟨hdamped, hspaced, hend⟩ := changes_run hone htimes
  refine ⟨fun hne => ?_, hdamped, hspaced⟩
  obtain ⟨change, ⟨plan, hplan, hschedule, -, -⟩, hbounds⟩ := hend hne
  exact ⟨plan, change.currentSeconds, hplan, hschedule, hbounds⟩

/-! ### An odd interval -/

/-- No text is a date. -/
def noDates : Platform := ⟨fun _ => none⟩

/-- A watched plan of an official source, polled every `interval` seconds, with six completed runs
    that all found a change. -/
def changingSource (interval : Nat) : Database where
  plans := [{
    id := 1
    status := .active
    schedule := .changeWatch interval
    extensions := fun key =>
      if key = "x-markorbit-adaptive-refresh-cadence" then some (.boolean true) else none
    updatedAt := 0 }]
  jobs := [{
    id := 1
    planId := 1
    planSnapshotMode := .changeWatch
    sourceExtensions := fun key =>
      if key = "x-markorbit-source-class" then some (.text "OFFICIAL_AUTHORITY") else none }]
  attempts := (List.range 6).map fun n => ⟨n, 1, .completed, some n, some false⟩

/-- The interval 43201 is shortened to 21600, by more than a factor of two. -/
theorem odd_interval_halved :
    appliedChanges noDates (changingSource 43201) [.apply 1 10 none 10] =
        [⟨10, 43201, 21600, 6, 0⟩] ∧
      (adaptiveRecrawlPolicy .officialAuthority).InBounds 43201 ∧ 2 * 21600 < 43201 := by
  refine ⟨?_, ⟨by decide, by decide⟩, by decide⟩
  decide +kernel

theorem cadence_damped_twice :
    (appliedChanges noDates (changingSource 604800)
      [.apply 1 10 none 10, .apply 1 1814400010 none 20]).Pairwise Spaced := by
  refine (cadence_damped noDates 1 .officialAuthority (changingSource 604800) _ ?_ ?_).2.2
  · have hjob : ∀ job, (changingSource 604800).jobs.find? (fun job => job.id = 1) = some job →
        job.planId = 1 ∧ ∀ c, sourceClassFromJob job = some c → c = .officialAuthority := by
      intro job hjob
      obtain rfl := Option.some.inj hjob
      exact ⟨rfl, fun c hc => (Option.some.inj hc).symm⟩
    exact ⟨hjob, hjob, trivial⟩
  · decide

end MarkorbitKnowledge.Cadence
