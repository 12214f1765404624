import MarkorbitKnowledge.Recovery.Runs

/-!
# What a recovery case knows of its runs

`Tracked` is the invariant of one case: its ordinals bound the runs its keys name, every run it has
left behind is failed or cancelled, and at most one of its runs is not.  A run that was dispatched but
not adopted has the next ordinal of its family.  The lemmas here are about one case and one change;
the loops of a pass are in `Recovery.Safety`.
-/

namespace MarkorbitKnowledge.Recovery

open Contracts Conversion Fallible Tables Transitions
open Execution (RegistryError)

/-- The run is the root of the case or one of its retries. -/
def RunOf (value : ConversionRecoveryCase) (run : ConversionRun) : Prop :=
  run.workspaceId = value.workspaceId ∧ (run.id = value.rootRunId ∨
    ∃ family ordinal, run.idempotencyKey = retryKey family value.id ordinal)

/-- The run is the retry of the case with the given family and ordinal. -/
def RetryOf (value : ConversionRecoveryCase) (family : RetryFamily) (ordinal : Nat)
    (run : ConversionRun) : Prop :=
  run.workspaceId = value.workspaceId ∧ run.idempotencyKey = retryKey family value.id ordinal

instance (value : ConversionRecoveryCase) (family : RetryFamily) (ordinal : Nat)
    (run : ConversionRun) : Decidable (RetryOf value family ordinal run) :=
  inferInstanceAs (Decidable (_ ∧ _))

theorem RetryOf.runOf {value : ConversionRecoveryCase} {family : RetryFamily} {ordinal : Nat}
    {run : ConversionRun} (h : RetryOf value family ordinal run) : RunOf value run :=
  ⟨h.1, Or.inr ⟨family, ordinal, h.2⟩⟩

structure Tracked (db : ConversionDatabase) (value : ConversionRecoveryCase) : Prop where
  plain : PlainId value.id
  root : ∃ run, db.run? value.rootRunId = some run ∧ run.workspaceId = value.workspaceId ∧
    Lost run.status ∧ isRetryKey run.idempotencyKey = false
  latest : ∃ run, db.run? value.latestRunId = some run ∧ run.workspaceId = value.workspaceId ∧
    (value.latestRunId = value.rootRunId ∨
      ∃ family ordinal, ordinal ≤ value.count family ∧ RetryOf value family ordinal run)
  adopted : ∀ id ∈ value.replacementRunIds, ∃ run family ordinal, db.run? id = some run ∧
    RetryOf value family ordinal run
  ordinals : ∀ id run family ordinal, db.run? id = some run → RetryOf value family ordinal run →
    1 ≤ ordinal ∧ ordinal ≤ value.count family + 1 ∧
      (family = .failure → ordinal ≤ value.maxRetries)
  settled : ∀ id run family ordinal, db.run? id = some run → RetryOf value family ordinal run →
    ordinal ≤ value.count family → id ≠ value.latestRunId → Lost run.status
  oneLive : ∀ id id' run run', db.run? id = some run → db.run? id' = some run' → RunOf value run →
    RunOf value run' → ¬ Lost run.status → ¬ Lost run'.status → id = id'
  budget : value.state = .waiting → value.retryCount < value.maxRetries
  resolved : value.state = .resolved →
    ∃ run, db.run? value.latestRunId = some run ∧ run.status = .completed

/-- No run of the case has been added. -/
def NoNewRun (db db' : ConversionDatabase) (value : ConversionRecoveryCase) : Prop :=
  ∀ id run', db'.run? id = some run' → (∃ run, db.run? id = some run) ∨ ¬ RunOf value run'

/-- No two runs of a workspace have one key. -/
def KeysOnce (db : ConversionDatabase) : Prop :=
  ∀ id id' run run', db.run? id = some run → db.run? id' = some run' →
    run.workspaceId = run'.workspaceId → run.idempotencyKey = run'.idempotencyKey → id = id'

/-- The run that a retry of the other family has left unadopted may still complete. -/
def Contested (db : ConversionDatabase) (value : ConversionRecoveryCase) (family : RetryFamily) :
    Prop :=
  ∃ id run other, other ≠ family ∧ db.run? id = some run ∧
    RetryOf value other (value.count other + 1) run ∧ ¬ Lost run.status

section Kept

variable {value : ConversionRecoveryCase} {run run' : ConversionRun}

theorem RunOf.of_kept (hkept : RunKept run run') (h : RunOf value run') :
    RunOf value run := by
  obtain ⟨hworkspace, hof⟩ := h
  rw [hkept.workspace] at hworkspace
  rw [hkept.id, hkept.key] at hof
  exact ⟨hworkspace, hof⟩

theorem RetryOf.of_kept {family : RetryFamily} {ordinal : Nat} (hkept : RunKept run run')
    (h : RetryOf value family ordinal run') : RetryOf value family ordinal run :=
  ⟨hkept.workspace.symm.trans h.1, hkept.key.symm.trans h.2⟩

theorem RetryOf.kept {family : RetryFamily} {ordinal : Nat} (hkept : RunKept run run')
    (h : RetryOf value family ordinal run) : RetryOf value family ordinal run' :=
  ⟨hkept.workspace.trans h.1, hkept.key.trans h.2⟩

end Kept

namespace Tracked

variable {db db' : ConversionDatabase} {value next : ConversionRecoveryCase}

/-- Runs that go on, and runs of no interest to the case, leave it tracked. -/
theorem kept (h : Tracked db value) (hkept : RunsKept db db') (hadded : NoNewRun db db' value) :
    Tracked db' value := by
  have hback : ∀ id run', db'.run? id = some run' → RunOf value run' →
      ∃ run, db.run? id = some run ∧ RunKept run run' := by
    intro id run' hrun' hof
    rcases hadded id run' hrun' with ⟨run, hrun⟩ | hnot
    · obtain ⟨later, hlater, hrunKept⟩ := hkept id run hrun
      obtain rfl := Option.some.inj (hrun'.symm.trans hlater)
      exact ⟨run, hrun, hrunKept⟩
    · exact absurd hof hnot
  refine
    { plain := h.plain
      root := ?_
      latest := ?_
      adopted := ?_
      ordinals := ?_
      settled := ?_
      oneLive := ?_
      budget := h.budget
      resolved := ?_ }
  · obtain ⟨run, hrun, hworkspace, hlost, hkey⟩ := h.root
    obtain ⟨run', hrun', hrunKept⟩ := hkept _ run hrun
    exact ⟨run', hrun', hrunKept.workspace.trans hworkspace, hrunKept.lost hlost, hrunKept.key ▸ hkey⟩
  · obtain ⟨run, hrun, hworkspace, hof⟩ := h.latest
    obtain ⟨run', hrun', hrunKept⟩ := hkept _ run hrun
    refine ⟨run', hrun', hrunKept.workspace.trans hworkspace, hof.imp_right ?_⟩
    rintro ⟨family, ordinal, hle, hretry⟩
    exact ⟨family, ordinal, hle, RetryOf.kept hrunKept hretry⟩
  · intro id hid
    obtain ⟨run, family, ordinal, hrun, hretry⟩ := h.adopted id hid
    obtain ⟨run', hrun', hrunKept⟩ := hkept _ run hrun
    exact ⟨run', family, ordinal, hrun', RetryOf.kept hrunKept hretry⟩
  · intro id run' family ordinal hrun' hretry
    obtain ⟨run, hrun, hrunKept⟩ := hback id run' hrun' hretry.runOf
    exact h.ordinals id run family ordinal hrun (RetryOf.of_kept hrunKept hretry)
  · intro id run' family ordinal hrun' hretry hle hne
    obtain ⟨run, hrun, hrunKept⟩ := hback id run' hrun' hretry.runOf
    exact hrunKept.lost
      (h.settled id run family ordinal hrun (RetryOf.of_kept hrunKept hretry) hle hne)
  · intro id id' run run' hrun hrun' hof hof' hlive hlive'
    obtain ⟨old, hold, hrunKept⟩ := hback id run hrun hof
    obtain ⟨old', hold', hrunKept'⟩ := hback id' run' hrun' hof'
    exact h.oneLive id id' old old' hold hold' (RunOf.of_kept hrunKept hof)
      (RunOf.of_kept hrunKept' hof') (fun hlost => hlive (hrunKept.lost hlost))
      (fun hlost => hlive' (hrunKept'.lost hlost))
  · intro hresolved
    obtain ⟨run, hrun, hcompleted⟩ := h.resolved hresolved
    obtain ⟨run', hrun', hrunKept⟩ := hkept _ run hrun
    have hterminal : TerminalStatus run.status := Or.inl hcompleted
    exact ⟨run', hrun', (hrunKept.terminal hterminal).trans hcompleted⟩

/-- The later document has the same runs and ordinals. -/
structure SameRuns (value next : ConversionRecoveryCase) : Prop where
  id : next.id = value.id
  workspace : next.workspaceId = value.workspaceId
  root : next.rootRunId = value.rootRunId
  latest : next.latestRunId = value.latestRunId
  replacements : next.replacementRunIds = value.replacementRunIds
  count : ∀ family, next.count family = value.count family
  maxRetries : next.maxRetries = value.maxRetries

theorem of_sameRuns (h : Tracked db value) (hsame : SameRuns value next)
    (hbudget : next.state = .waiting → next.retryCount < next.maxRetries)
    (hresolved : next.state = .resolved →
      ∃ run, db.run? next.latestRunId = some run ∧ run.status = .completed) : Tracked db next := by
  obtain ⟨hid, hworkspace, hroot, hlatest, hreplacements, hcount, hmax⟩ := hsame
  have hrunOf : ∀ run, RunOf next run ↔ RunOf value run := by
    intro run
    simp only [RunOf, hid, hworkspace, hroot]
  have hretryOf : ∀ family ordinal run, RetryOf next family ordinal run ↔
      RetryOf value family ordinal run := by
    intro family ordinal run
    simp only [RetryOf, hid, hworkspace]
  refine
    { plain := hid.symm ▸ h.plain
      root := ?_
      latest := ?_
      adopted := ?_
      ordinals := ?_
      settled := ?_
      oneLive := ?_
      budget := hbudget
      resolved := hresolved }
  · rw [hroot, hworkspace]
    exact h.root
  · simp only [hroot, hworkspace, hlatest, hcount, hretryOf]
    exact h.latest
  · simp only [hreplacements, hretryOf]
    exact h.adopted
  · simp only [hcount, hmax, hretryOf]
    exact h.ordinals
  · simp only [hcount, hlatest, hretryOf]
    exact h.settled
  · simp only [hrunOf]
    exact h.oneLive

/-- A run that is neither failed nor cancelled is the latest run, or waits to be adopted. -/
theorem live_cases (h : Tracked db value) {id : Id} {run : ConversionRun}
    (hrun : db.run? id = some run) (hof : RunOf value run) (hlive : ¬ Lost run.status) :
    id = value.latestRunId ∨ ∃ family, RetryOf value family (value.count family + 1) run := by
  obtain ⟨hworkspace, hroot | ⟨family, ordinal, hkey⟩⟩ := hof
  · obtain ⟨root, hfound, -, hlost, -⟩ := h.root
    rw [← hroot, id_of_run? hrun] at hfound
    obtain rfl := Option.some.inj (hrun.symm.trans hfound)
    exact absurd hlost hlive
  · have hretry : RetryOf value family ordinal run := ⟨hworkspace, hkey⟩
    obtain ⟨-, hle, -⟩ := h.ordinals id run family ordinal hrun hretry
    rcases Nat.lt_or_ge (value.count family) ordinal with hlt | hge
    · obtain rfl : ordinal = value.count family + 1 := by omega
      exact Or.inr ⟨family, hretry⟩
    · refine Or.inl ?_
      by_contra hne
      exact hlive (h.settled id run family ordinal hrun hretry hge hne)

/-! ### The changes of a case -/

theorem sameRuns_deadLettered (value : ConversionRecoveryCase) (reason : ConversionDeadLetterReason)
    (now : Timestamp) : SameRuns value (deadLettered value reason now) :=
  ⟨rfl, rfl, rfl, rfl, rfl, fun family => (by cases family <;> rfl), rfl⟩

/-- What `refreshedCase` decides by the status of the latest run. -/
theorem refreshedCase_spec {latest : ConversionRun} {now : Timestamp}
    (h : refreshedCase value latest now = .ok next) :
    SameRuns value next ∧ (next.state = .waiting → next.retryCount < next.maxRetries) ∧
      (next.state = .resolved → latest.status = .completed) := by
  have hcount : ∀ value' : ConversionRecoveryCase, value'.retryCount = value.retryCount →
      value'.operatorOverrideCount = value.operatorOverrideCount →
      ∀ family, value'.count family = value.count family := by
    intro value' hretry hoverride family
    cases family
    · exact hretry
    · exact hoverride
  unfold refreshedCase at h
  cases hstatus : latest.status <;> simp only [hstatus, pure_eq_ok] at h
  case completed =>
    subst h
    exact ⟨⟨rfl, rfl, rfl, rfl, rfl, hcount _ rfl rfl, rfl⟩, fun hw => (by cases hw), fun _ => rfl⟩
  case cancelled =>
    subst h
    exact ⟨sameRuns_deadLettered value _ now, fun hw => (by cases hw), fun hr => (by cases hr)⟩
  case failed =>
    split at h
    · split at h
      · rename_i hlt
        simp only [bind_eq_ok, pure_eq_ok] at h
        obtain ⟨_, -, rfl⟩ := h
        exact ⟨⟨rfl, rfl, rfl, rfl, rfl, hcount _ rfl rfl, rfl⟩, fun _ => hlt, fun hr => (by cases hr)⟩
      · obtain rfl := pure_eq_ok.mp h
        exact ⟨⟨rfl, rfl, rfl, rfl, rfl, hcount _ rfl rfl, rfl⟩, fun hw => (by cases hw),
          fun hr => (by cases hr)⟩
    · obtain rfl := pure_eq_ok.mp h
      exact ⟨⟨rfl, rfl, rfl, rfl, rfl, hcount _ rfl rfl, rfl⟩, fun hw => (by cases hw),
        fun hr => (by cases hr)⟩
  case pending | running | verifying =>
    subst h
    exact ⟨⟨rfl, rfl, rfl, rfl, rfl, hcount _ rfl rfl, rfl⟩, fun hw => (by cases hw),
      fun hr => (by cases hr)⟩

theorem refreshed (h : Tracked db value) {latest : ConversionRun} {now : Timestamp}
    (hlatest : db.run? value.latestRunId = some latest)
    (hnext : refreshedCase value latest now = .ok next) : Tracked db next := by
  obtain ⟨hsame, hbudget, hresolved⟩ := refreshedCase_spec hnext
  refine h.of_sameRuns hsame hbudget fun hstate => ⟨latest, ?_, hresolved hstate⟩
  rw [hsame.latest]
  exact hlatest

theorem dead (h : Tracked db value) (reason : ConversionDeadLetterReason) (now : Timestamp)
    (code : Option String) :
    Tracked db { deadLettered value reason now with lastDispatchErrorCode := code } := by
  refine h.of_sameRuns ?_ (fun hw => by cases hw) (fun hr => by cases hr)
  exact ⟨rfl, rfl, rfl, rfl, rfl, fun family => (by cases family <;> rfl), rfl⟩

/-- A failed run under a key of its own, of whose case no run is stored yet, can be a root. -/
theorem opened {run : ConversionRun} {caseId : Nat} {now : Timestamp} {maxRetries : Nat}
    {retryAt : Option Timestamp} (hrun : db.run? run.id = some run) (hlost : Lost run.status)
    (hkey : isRetryKey run.idempotencyKey = false)
    (hnone : ∀ id stored family ordinal, db.run? id = some stored →
      stored.idempotencyKey ≠ retryKey family (idText "crc" caseId) ordinal) :
    Tracked db (openedCase run caseId now maxRetries retryAt) where
  plain := ⟨caseId, rfl⟩
  root := ⟨run, hrun, rfl, hlost, hkey⟩
  latest := ⟨run, hrun, rfl, Or.inl rfl⟩
  adopted id hid := by cases hid
  ordinals id stored family ordinal hstored hretry :=
    absurd hretry.2 (hnone id stored family ordinal hstored)
  settled id stored family ordinal hstored hretry :=
    absurd hretry.2 (hnone id stored family ordinal hstored)
  oneLive := by
    have honly : ∀ id stored, db.run? id = some stored →
        RunOf (openedCase run caseId now maxRetries retryAt) stored → stored = run := by
      rintro id stored hstored ⟨-, hroot | ⟨family, ordinal, hretry⟩⟩
      · have hid : id = run.id := (id_of_run? hstored).symm.trans hroot
        exact Option.some.inj (hstored.symm.trans (hid ▸ hrun))
      · exact absurd hretry (hnone id stored family ordinal hstored)
    intro id id' stored stored' hstored hstored' hof _ hlive
    exact absurd (honly id stored hstored hof ▸ hlost) hlive
  budget hstate := by
    simp only [openedCase] at hstate ⊢
    split at hstate
    · rename_i hretryable
      simp only [Bool.and_eq_true, decide_eq_true_eq] at hretryable
      exact hretryable.2
    · cases hstate
  resolved hstate := by
    simp only [openedCase] at hstate
    split at hstate <;> cases hstate

/-! ### Retries -/

/-- Where the latest run is lost and no retry waits to be adopted, every run is lost. -/
theorem allLost (h : Tracked db value) {family : RetryFamily} {latest : ConversionRun}
    (hlatest : db.run? value.latestRunId = some latest) (hlost : Lost latest.status)
    (hnone : ∀ id run, db.run? id = some run → ¬ RetryOf value family (value.count family + 1) run)
    (hfree : ¬ Contested db value family) {id : Id} {run : ConversionRun}
    (hrun : db.run? id = some run) (hof : RunOf value run) : Lost run.status := by
  by_contra hlive
  rcases h.live_cases hrun hof hlive with hid | ⟨other, hother⟩
  · rw [hid, hlatest] at hrun
    exact hlive (Option.some.inj hrun ▸ hlost)
  · by_cases hfamily : other = family
    · subst hfamily
      exact hnone id run hrun hother
    · exact hfree ⟨id, run, other, hfamily, hrun, hother, hlive⟩

theorem dispatched_fresh {input : ManualConversionDispatchInput} {runId : Id} {run : ConversionRun}
    {family : RetryFamily} {ordinal : Nat} (hdispatched : Dispatched db db' input runId run)
    (hretry : RetryOf value family ordinal run) (id : Id) (stored : ConversionRun)
    (hstored : db.run? id = some stored) : ¬ RetryOf value family ordinal stored := by
  intro hother
  obtain ⟨row, hrow, rfl⟩ := run?_eq_some.mp hstored
  exact hdispatched.freshKey row (mem_of_find? hrow) (hother.1.trans hretry.1.symm)
    (hother.2.trans hretry.2.symm)

/-- The dispatch of a retry that is not contested. -/
theorem dispatched (h : Tracked db value) {input : ManualConversionDispatchInput} {runId : Id}
    {run latest : ConversionRun} {family : RetryFamily}
    (hdispatched : Dispatched db db' input runId run) (hkept : RunsKept db db')
    (hretry : RetryOf value family (value.count family + 1) run)
    (hlatest : db.run? value.latestRunId = some latest) (hlost : Lost latest.status)
    (hbudget : family = .failure → value.retryCount < value.maxRetries)
    (hfree : ¬ Contested db value family) : Tracked db' value := by
  have hruns := run?_dispatched hdispatched
  have hold : ∀ id run', db'.run? id = some run' → id ≠ run.id → db.run? id = some run' := by
    intro id run' hrun' hne
    rw [hruns, if_neg hne] at hrun'
    exact hrun'
  have hnew : ∀ run', db'.run? run.id = some run' → run' = run := by
    intro run' hrun'
    rw [hruns, if_pos rfl] at hrun'
    exact (Option.some.inj hrun').symm
  have hordinal : ∀ family' ordinal, RetryOf value family' ordinal run →
      family' = family ∧ ordinal = value.count family + 1 := by
    intro family' ordinal hretry'
    obtain ⟨hfamily, -, hordinal⟩ := retryKey_inj h.plain h.plain (hretry'.2.symm.trans hretry.2)
    exact ⟨hfamily, hordinal⟩
  have hnoLive : ∀ {id run'}, db.run? id = some run' → RunOf value run' → Lost run'.status :=
    h.allLost hlatest hlost (dispatched_fresh hdispatched hretry) hfree
  refine
    { plain := h.plain
      root := ?_
      latest := ?_
      adopted := ?_
      ordinals := ?_
      settled := ?_
      oneLive := ?_
      budget := h.budget
      resolved := ?_ }
  · obtain ⟨root, hroot, hworkspace, hrootLost, hkey⟩ := h.root
    obtain ⟨root', hroot', hrootKept⟩ := hkept _ root hroot
    exact ⟨root', hroot', hrootKept.workspace.trans hworkspace, hrootKept.lost hrootLost,
      hrootKept.key ▸ hkey⟩
  · obtain ⟨stored, hstored, hworkspace, hof⟩ := h.latest
    obtain ⟨stored', hstored', hstoredKept⟩ := hkept _ stored hstored
    refine ⟨stored', hstored', hstoredKept.workspace.trans hworkspace, hof.imp_right ?_⟩
    rintro ⟨family', ordinal, hle, hretry'⟩
    exact ⟨family', ordinal, hle, RetryOf.kept hstoredKept hretry'⟩
  · intro id hid
    obtain ⟨stored, family', ordinal, hstored, hretry'⟩ := h.adopted id hid
    obtain ⟨stored', hstored', hstoredKept⟩ := hkept _ stored hstored
    exact ⟨stored', family', ordinal, hstored', RetryOf.kept hstoredKept hretry'⟩
  · intro id run' family' ordinal hrun' hretry'
    by_cases hid : id = run.id
    · subst hid
      obtain rfl := hnew run' hrun'
      obtain ⟨rfl, rfl⟩ := hordinal family' ordinal hretry'
      refine ⟨Nat.le_add_left 1 _, Nat.le_refl _, fun hfailure => ?_⟩
      have hlt := hbudget hfailure
      rw [hfailure]
      exact hlt
    · exact h.ordinals id run' family' ordinal (hold id run' hrun' hid) hretry'
  · intro id run' family' ordinal hrun' hretry' hle hne
    by_cases hid : id = run.id
    · subst hid
      obtain rfl := hnew run' hrun'
      obtain ⟨rfl, rfl⟩ := hordinal family' ordinal hretry'
      omega
    · exact h.settled id run' family' ordinal (hold id run' hrun' hid) hretry' hle hne
  · intro id id' run₁ run₂ hrun₁ hrun₂ hof₁ hof₂ hlive₁ hlive₂
    by_cases hid : id = run.id
    · by_cases hid' : id' = run.id
      · exact hid.trans hid'.symm
      · exact absurd (hnoLive (hold id' run₂ hrun₂ hid') hof₂) hlive₂
    · exact absurd (hnoLive (hold id run₁ hrun₁ hid) hof₁) hlive₁
  · intro hstate
    obtain ⟨stored, hstored, hcompleted⟩ := h.resolved hstate
    obtain rfl := Option.some.inj (hlatest.symm.trans hstored)
    rcases hlost with hlost | hlost <;> rw [hcompleted] at hlost <;> cases hlost

/-- The adoption of the run of the next ordinal. -/
theorem adopted_next (h : Tracked db value) (hkeys : KeysOnce db) {by_ : RetryBy}
    {run latest : ConversionRun} (now : Timestamp) (hrun : db.run? run.id = some run)
    (hretry : RetryOf value by_.family (value.count by_.family + 1) run)
    (hlatest : db.run? value.latestRunId = some latest) (hlost : Lost latest.status) :
    Tracked db (adoptingCase value by_ run.id now) := by
  have hcount : ∀ family, (adoptingCase value by_ run.id now).count family =
      if family = by_.family then value.count family + 1 else value.count family := by
    intro family
    cases by_ <;> cases family <;> rfl
  refine
    { plain := h.plain
      root := h.root
      latest := ?_
      adopted := ?_
      ordinals := ?_
      settled := ?_
      oneLive := h.oneLive
      budget := fun hw => by cases hw
      resolved := fun hr => by cases hr }
  · refine ⟨run, hrun, hretry.1, Or.inr ⟨by_.family, _, ?_, hretry⟩⟩
    rw [hcount, if_pos rfl]
  · intro id hid
    have hcases : id ∈ value.replacementRunIds ∨ id = run.id := by
      simp only [adoptingCase] at hid
      split at hid
      · exact Or.inl hid
      · simpa using hid
    rcases hcases with hid | rfl
    · exact h.adopted id hid
    · exact ⟨run, by_.family, _, hrun, hretry⟩
  · intro id run' family ordinal hrun' hretry'
    obtain ⟨hlow, hhigh, hmax⟩ := h.ordinals id run' family ordinal hrun' hretry'
    refine ⟨hlow, ?_, hmax⟩
    rw [hcount]
    split <;> omega
  · intro id run' family ordinal hrun' hretry' hle hne
    rw [hcount] at hle
    rcases Nat.lt_or_ge (value.count family) ordinal with hlt | hge
    · -- the run of the next ordinal is the adopted one
      split at hle
      · rename_i hfamily
        subst hfamily
        obtain rfl : ordinal = value.count by_.family + 1 := by omega
        exact absurd (hkeys id run.id run' run hrun' hrun (hretry'.1.trans hretry.1.symm)
          (hretry'.2.trans hretry.2.symm)) hne
      · omega
    · by_cases hid : id = value.latestRunId
      · rw [hid, hlatest] at hrun'
        exact Option.some.inj hrun' ▸ hlost
      · exact h.settled id run' family ordinal hrun' hretry' hge hid

end Tracked

end MarkorbitKnowledge.Recovery
