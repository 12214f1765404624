import MarkorbitKnowledge.Execution.Store
import MarkorbitKnowledge.Lib.Tables
import MarkorbitKnowledge.Lib.Transitions
import MarkorbitKnowledge.Lib.Window
import Mathlib.Algebra.Order.Floor.Ring
import Mathlib.Data.Rat.Floor

/-!
# Adaptive recrawl cadence

After a job is completed the poll interval of its plan is reconsidered: the attempts completed last
give the rate of runs that found no change, `recommendAdaptiveRecrawlCadence` decides from that rate,
and the plan is rewritten with the recommended interval and with extensions that say what was decided
and when the interval was changed last.

The members of `extensions` are a map from keys to JSON values; an instant that was written by
`toISOString` is kept as that instant, and `Date.parse` of any other text is a parameter.  What a
plan update checks of the source and the connector is given with the call.
-/

namespace MarkorbitKnowledge.Cadence

open Contracts Fallible Tables Transitions
open Execution (RegistryError)

def ADAPTIVE_RECRAWL_EVIDENCE_WINDOW_RUNS : Nat := 12
def ADAPTIVE_RECRAWL_MIN_EVIDENCE_RUNS : Nat := 6
def ADAPTIVE_RECRAWL_COOLDOWN_INTERVALS : Nat := 3

inductive AdaptiveRecrawlSourceClass where
  | officialAuthority
  | peerProfessional
deriving DecidableEq

inductive AdaptiveRecrawlDecision where
  | faster
  | slower
  | stable
  | atBound
  | insufficientEvidence
  | cooldown
deriving DecidableEq

structure AdaptiveRecrawlPolicy where
  minimumIntervalSeconds : Nat
  maximumIntervalSeconds : Nat
  fasterAtOrBelowNoChangePercent : Nat
  slowerAtOrAboveNoChangePercent : Nat

/-- `POLICIES`. -/
def adaptiveRecrawlPolicy : AdaptiveRecrawlSourceClass → AdaptiveRecrawlPolicy
  | .officialAuthority => ⟨6 * 60 * 60, 7 * 24 * 60 * 60, 40, 90⟩
  | .peerProfessional => ⟨24 * 60 * 60, 30 * 24 * 60 * 60, 40, 90⟩

/-! ### The recommendation -/

/-- `Math.round((numerator / denominator) * 1_000) / 10`. -/
def percentage (numerator denominator : Nat) : ℚ :=
  if denominator = 0 then 0
  else (⌊(numerator : ℚ) / denominator * 1000 + 1 / 2⌋ : ℚ) / 10

/-- `new Date(value)`: a fraction is cut off, and what lies beyond the range is no date. -/
def timeClip (value : ℚ) : Option Timestamp :=
  if |value| ≤ 8640000000000000 then some (if 0 ≤ value then ⌊value⌋ else ⌈value⌉) else none

structure RecommendInput where
  sourceClass : AdaptiveRecrawlSourceClass
  currentIntervalSeconds : Nat
  evidenceRuns : Nat
  metadataOnlyRuns : Nat
  observedAt : Timestamp
  /-- `validDate` of `lastChangedAt`. -/
  lastChangedAt : Option Timestamp
  lastPreviousIntervalSeconds : Option ℚ

structure AdaptiveRecrawlRecommendation where
  decision : AdaptiveRecrawlDecision
  currentIntervalSeconds : Nat
  recommendedIntervalSeconds : Nat
  evidenceRuns : Nat
  metadataOnlyRuns : Nat
  noChangeRatePercent : ℚ
  cooldownUntil : Option Timestamp
deriving DecidableEq

/-- The end of the cooldown after the last change, where there was one. -/
def cooldownEnd (input : RecommendInput) : Option Timestamp :=
  input.lastChangedAt.bind fun lastChangedAt =>
    let previous := input.lastPreviousIntervalSeconds.getD input.currentIntervalSeconds
    let anchorSeconds := max (input.currentIntervalSeconds : ℚ) previous
    timeClip (lastChangedAt + anchorSeconds * ADAPTIVE_RECRAWL_COOLDOWN_INTERVALS * 1000)

def recommendAdaptiveRecrawlCadence (input : RecommendInput) : AdaptiveRecrawlRecommendation :=
  let policy := adaptiveRecrawlPolicy input.sourceClass
  let current := input.currentIntervalSeconds
  let metadataOnlyRuns := min input.evidenceRuns input.metadataOnlyRuns
  let noChangeRatePercent := percentage metadataOnlyRuns input.evidenceRuns
  let base (decision : AdaptiveRecrawlDecision) (recommended : Nat) (cooldownUntil) :
      AdaptiveRecrawlRecommendation :=
    ⟨decision, current, recommended, input.evidenceRuns, metadataOnlyRuns, noChangeRatePercent,
      cooldownUntil⟩
  if input.evidenceRuns < ADAPTIVE_RECRAWL_MIN_EVIDENCE_RUNS then
    base .insufficientEvidence current none
  else if (cooldownEnd input).any fun cooldownUntil => input.observedAt < cooldownUntil then
    base .cooldown current (cooldownEnd input)
  else
    let bounded := min policy.maximumIntervalSeconds (max policy.minimumIntervalSeconds current)
    if bounded ≠ current then base .atBound bounded none
    else if noChangeRatePercent ≤ policy.fasterAtOrBelowNoChangePercent then
      let recommended := max policy.minimumIntervalSeconds (current / 2)
      base (if recommended = current then .atBound else .faster) recommended none
    else if policy.slowerAtOrAboveNoChangePercent ≤ noChangeRatePercent then
      let recommended := min policy.maximumIntervalSeconds (current * 2)
      base (if recommended = current then .atBound else .slower) recommended none
    else base .stable current none

/-! ### Plans, jobs and attempts -/

inductive JsonValue where
  | boolean (value : Bool)
  | number (value : ℚ)
  /-- A text that `toISOString` wrote. -/
  | instant (value : Timestamp)
  | text (value : String)
  | other
deriving DecidableEq

/-- The members of an `extensions` object; an absent object has none. -/
abbrev Extensions := String → Option JsonValue

inductive ScheduleMode where
  | manual
  | interval
  | cron
  | changeWatch
deriving DecidableEq

inductive CollectionSchedule where
  | changeWatch (pollIntervalSeconds : Nat)
  | unwatched (mode : ScheduleMode)
deriving DecidableEq

inductive CollectionPlanStatus where
  | active
  | paused
  | archived
deriving DecidableEq

structure CollectionPlan where
  id : Id
  status : CollectionPlanStatus
  schedule : CollectionSchedule
  extensions : Extensions
  updatedAt : Timestamp

instance : Keyed CollectionPlan Id := ⟨CollectionPlan.id⟩

@[simp] theorem key_collectionPlan (plan : CollectionPlan) : key plan = plan.id := rfl

/-- What is read of a row of `jobs`: the mode of `planSnapshot.schedule`, and the extensions of
    `sourceSnapshot`. -/
structure Job where
  id : Id
  planId : Id
  planSnapshotMode : ScheduleMode
  sourceExtensions : Extensions

inductive ExecutionAttemptStatus where
  | completed
  | unfinished
deriving DecidableEq

/-- What is read of a row of `execution_attempts`. -/
structure ExecutionAttempt where
  id : Id
  jobId : Id
  status : ExecutionAttemptStatus
  completedAt : Option Timestamp
  /-- `receipt.metadataOnly`, where there is a receipt. -/
  metadataOnly : Option Bool
deriving DecidableEq

structure Database where
  plans : List CollectionPlan
  jobs : List Job
  attempts : List ExecutionAttempt

structure Platform where
  dateParse : String → Option Timestamp

variable (platform : Platform)

def sourceClassFromJob (job : Job) : Option AdaptiveRecrawlSourceClass :=
  match job.sourceExtensions "x-markorbit-source-class" with
  | some (.text value) =>
    if value = "OFFICIAL_AUTHORITY" then some .officialAuthority
    else if value = "PEER_PROFESSIONAL" then some .peerProfessional
    else none
  | _ => none

/-- `validDate(extensionString(extensions, key))`; an empty text is no date. -/
def extensionDate (extensions : Extensions) (key : String) : Option Timestamp :=
  match extensions key with
  | some (.instant t) => some t
  | some (.text s) => if s = "" then none else platform.dateParse s
  | _ => none

def extensionNumber (extensions : Extensions) (key : String) : Option ℚ :=
  match extensions key with
  | some (.number value) => some value
  | _ => none

/-- A row of the query of `evidenceForPlan`. -/
structure EvidenceRow where
  completedAt : Timestamp
  attemptId : Id
  metadataOnly : Bool
deriving DecidableEq

def evidenceRow (db : Database) (planId : Id) (observedAt : Timestamp) (a : ExecutionAttempt) :
    Option EvidenceRow := do
  let completedAt ← a.completedAt
  let metadataOnly ← a.metadataOnly
  guard (a.status = .completed ∧ isoOrder completedAt ≤ isoOrder observedAt ∧
    ∃ job ∈ db.jobs, job.id = a.jobId ∧ job.planId = planId ∧ job.planSnapshotMode = .changeWatch)
  return ⟨completedAt, a.id, metadataOnly⟩

/-- The place of a row in `ORDER BY a.completed_at DESC, a.id DESC`. -/
def evidenceOrder (row : EvidenceRow) : ((Nat ×ₗ Int ×ₗ Timestamp) ×ₗ Id)ᵒᵈ :=
  OrderDual.toDual (toLex (isoOrder row.completedAt, row.attemptId))

/-- The runs completed last, and how many of them found no change. -/
def evidenceForPlan (db : Database) (planId : Id) (observedAt : Timestamp) : Nat × Nat :=
  let rows := Window.window evidenceOrder ADAPTIVE_RECRAWL_EVIDENCE_WINDOW_RUNS
    (db.attempts.filterMap (evidenceRow db planId observedAt))
  (rows.length, rows.countP fun row => row.metadataOnly)

/-! ### Applying the recommendation -/

inductive SkipReason where
  | jobNotFound
  | planNotFound
  | planInactive
  | notChangeWatch
  | disabled
  | unsupportedSourceClass
deriving DecidableEq

structure AdaptiveRecrawlApplyResult extends AdaptiveRecrawlRecommendation where
  planId : Option Id
  sourceClass : Option AdaptiveRecrawlSourceClass
  enabled : Bool
  applied : Bool
  evaluatedAt : Timestamp
  skipReason : Option SkipReason
deriving DecidableEq

def skipped (planId : Option Id) (currentIntervalSeconds : Nat) (enabled : Bool)
    (evaluatedAt : Timestamp) (skipReason : SkipReason) : AdaptiveRecrawlApplyResult where
  decision := .stable
  currentIntervalSeconds := currentIntervalSeconds
  recommendedIntervalSeconds := currentIntervalSeconds
  evidenceRuns := 0
  metadataOnlyRuns := 0
  noChangeRatePercent := 0
  cooldownUntil := none
  planId := planId
  sourceClass := none
  enabled := enabled
  applied := false
  evaluatedAt := evaluatedAt
  skipReason := some skipReason

def toISOString (t : Timestamp) : Except RegistryError Timestamp := do
  require (isDate t = true) .invalidTimeValue
  return t

/-- `plans.update` of the schedule and the extensions.  `refused` is what the checks of the source,
    the connector and the next document throw. -/
def updatePlan (id : Id) (schedule : CollectionSchedule) (extensions : Extensions)
    (expectedUpdatedAt : Timestamp) (refused : Option RegistryError) (now : Timestamp)
    (db : Database) : Except RegistryError Database := do
  let current ← orThrow (find? db.plans id) (.collectionPlanNotFound id)
  require (current.updatedAt = expectedUpdatedAt)
    (.conflict "COLLECTION_PLAN_VERSION_CONFLICT"
      "The collection plan changed after it was loaded. Refresh before saving.")
  let timestamp ← toISOString now
  require (current.status ≠ .archived)
    (.conflict "COLLECTION_PLAN_ARCHIVED" "Archived collection plans are immutable")
  match refused with
  | some error => .error error
  | none =>
    let next := { current with schedule := schedule, extensions := extensions, updatedAt := timestamp }
    return { db with plans := update db.plans next }

def decisionText : AdaptiveRecrawlDecision → String
  | .faster => "FASTER"
  | .slower => "SLOWER"
  | .stable => "STABLE"
  | .atBound => "AT_BOUND"
  | .insufficientEvidence => "INSUFFICIENT_EVIDENCE"
  | .cooldown => "COOLDOWN"

/-- The extensions after an evaluation. -/
def nextExtensions (extensions : Extensions) (pollIntervalSeconds : Nat) (evaluatedAt : Timestamp)
    (r : AdaptiveRecrawlRecommendation) : Extensions :=
  let applied := r.recommendedIntervalSeconds ≠ pollIntervalSeconds
  let previousIntervalSeconds : ℚ :=
    if applied then pollIntervalSeconds
    else (extensionNumber extensions "x-markorbit-adaptive-cadence-previous-seconds").getD
      pollIntervalSeconds
  let put (key : String) (value : JsonValue) (e : Extensions) : Extensions :=
    Function.update e key (some value)
  let written :=
    put "x-markorbit-adaptive-cadence-current-seconds" (.number r.recommendedIntervalSeconds) <|
    put "x-markorbit-adaptive-cadence-previous-seconds" (.number previousIntervalSeconds) <|
    put "x-markorbit-adaptive-cadence-no-change-rate-percent" (.number r.noChangeRatePercent) <|
    put "x-markorbit-adaptive-cadence-evidence-runs" (.number r.evidenceRuns) <|
    put "x-markorbit-adaptive-cadence-last-decision" (.text (decisionText r.decision)) <|
    put "x-markorbit-adaptive-cadence-last-evaluated-at" (.instant evaluatedAt) <|
    put "x-markorbit-adaptive-cadence-policy-version" (.text "1.0") extensions
  if applied then put "x-markorbit-adaptive-cadence-last-changed-at" (.instant evaluatedAt) written
  else written

/-- What the recommendation for a plan with this poll interval is made from. -/
def recommendInput (db : Database) (plan : CollectionPlan) (pollIntervalSeconds : Nat)
    (sourceClass : AdaptiveRecrawlSourceClass) (observedAt : Timestamp) : RecommendInput where
  sourceClass := sourceClass
  currentIntervalSeconds := pollIntervalSeconds
  evidenceRuns := (evidenceForPlan db plan.id observedAt).1
  metadataOnlyRuns := (evidenceForPlan db plan.id observedAt).2
  observedAt := observedAt
  lastChangedAt := extensionDate platform plan.extensions
    "x-markorbit-adaptive-cadence-last-changed-at"
  lastPreviousIntervalSeconds := extensionNumber plan.extensions
    "x-markorbit-adaptive-cadence-previous-seconds"

def recommendationFor (db : Database) (plan : CollectionPlan) (pollIntervalSeconds : Nat)
    (sourceClass : AdaptiveRecrawlSourceClass) (observedAt : Timestamp) :
    AdaptiveRecrawlRecommendation :=
  recommendAdaptiveRecrawlCadence
    (recommendInput platform db plan pollIntervalSeconds sourceClass observedAt)

def applyBody (jobId : Id) (observedAt : Timestamp) (refused : Option RegistryError)
    (now : Timestamp) (db : Database) :
    Except RegistryError (AdaptiveRecrawlApplyResult × Database) := do
  let evaluatedAt ← toISOString observedAt
  match db.jobs.find? fun job => job.id = jobId with
  | none => return (skipped none 0 false evaluatedAt .jobNotFound, db)
  | some job =>
    match find? db.plans job.planId with
    | none => return (skipped (some job.planId) 0 false evaluatedAt .planNotFound, db)
    | some plan =>
      if plan.status ≠ .active then
        return (skipped (some plan.id) 0 false evaluatedAt .planInactive, db)
      else
        match plan.schedule with
        | .unwatched _ => return (skipped (some plan.id) 0 false evaluatedAt .notChangeWatch, db)
        | .changeWatch pollIntervalSeconds =>
          if plan.extensions "x-markorbit-adaptive-refresh-cadence" ≠ some (.boolean true) then
            return (skipped (some plan.id) pollIntervalSeconds false evaluatedAt .disabled, db)
          else
            match sourceClassFromJob job with
            | none =>
              return (skipped (some plan.id) pollIntervalSeconds true evaluatedAt
                .unsupportedSourceClass, db)
            | some sourceClass =>
              let recommendation :=
                recommendationFor platform db plan pollIntervalSeconds sourceClass observedAt
              let nextIntervalSeconds := recommendation.recommendedIntervalSeconds
              let extensions :=
                nextExtensions plan.extensions pollIntervalSeconds evaluatedAt recommendation
              let db' ← updatePlan plan.id (.changeWatch nextIntervalSeconds) extensions
                plan.updatedAt refused now db
              return ({ recommendation with
                planId := some plan.id
                sourceClass := some sourceClass
                enabled := true
                applied := nextIntervalSeconds ≠ pollIntervalSeconds
                evaluatedAt := evaluatedAt
                skipReason := none }, db')

def applyAdaptiveRecrawlCadenceForCompletedJob (jobId : Id) (observedAt : Timestamp)
    (refused : Option RegistryError) (now : Timestamp) (db : Database) :
    Except RegistryError AdaptiveRecrawlApplyResult × Database :=
  commit (applyBody platform jobId observedAt refused now) db

/-! ### The machine -/

/-- An evaluation after a completed job, or an attempt that is recorded in between, with its job where
    that is new. -/
inductive Label where
  | apply (jobId : Id) (observedAt : Timestamp) (refused : Option RegistryError) (now : Timestamp)
  | recordAttempt (job : Option Job) (attempt : ExecutionAttempt)

def step (db : Database) : Label → Database
  | .apply jobId observedAt refused now =>
    (applyAdaptiveRecrawlCadenceForCompletedJob platform jobId observedAt refused now db).2
  | .recordAttempt job attempt =>
    { db with jobs := db.jobs ++ job.toList, attempts := db.attempts ++ [attempt] }

/-- The cadence from a database on. -/
def cadence (init : Database) : Machine Database Label where
  init := init
  step := step platform

end MarkorbitKnowledge.Cadence
