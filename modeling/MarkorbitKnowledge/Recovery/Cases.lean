import MarkorbitKnowledge.Conversion.Machine
import Mathlib.Data.String.Basic

/-!
# Conversion failure recovery

`conversion-failure-recovery.ts`: a recovery case follows a failed conversion run through its
automatic retries and those of an operator.  A retry is two commits, the dispatch of a run under a
key made of the case and an ordinal, and the case document that adopts it, so a pass or an operator
retry may also end between them.  The loops of a pass catch what a case throws.
-/

namespace MarkorbitKnowledge.Recovery

open Contracts Conversion Fallible Tables
open Execution (RegistryError)

inductive ConversionRecoveryState where
  | waiting | running | resolved | deadLettered
deriving DecidableEq

inductive ConversionDeadLetterReason where
  | nonRetryableFailure | retryBudgetExhausted | retryRunCancelled | dispatchFailed
deriving DecidableEq

structure ConversionRecoveryCase where
  id : String
  workspaceId : Id
  rootRunId : Id
  latestRunId : Id
  rawArtifactId : Id
  conversionProfileId : Id
  originalTrigger : ConversionTrigger
  state : ConversionRecoveryState
  retryCount : Nat
  maxRetries : Nat
  operatorOverrideCount : Nat
  retryable : Bool
  lastFailureRunId : Id
  lastFailure : ConversionFailure
  replacementRunIds : List Id
  nextRetryAt : Option Timestamp
  deadLetterReason : Option ConversionDeadLetterReason
  lastDispatchErrorCode : Option String
  createdAt : Timestamp
  updatedAt : Timestamp
  resolvedAt : Option Timestamp
  deadLetteredAt : Option Timestamp
deriving DecidableEq

instance : Keyed ConversionRecoveryCase String := ⟨ConversionRecoveryCase.id⟩

@[simp] theorem key_case (value : ConversionRecoveryCase) : key value = value.id := rfl

/-- The conversion store with the table `conversion_recovery_cases`. -/
structure RecoveryStore where
  conversion : ConversionDatabase
  cases : List ConversionRecoveryCase

def DEFAULT_LIMIT : Nat := 25
def MAX_LIMIT : Nat := 100
def DEFAULT_MAX_RETRIES : Nat := 3
def DEFAULT_BASE_DELAY_SECONDS : Nat := 60
def DEFAULT_MAX_DELAY_SECONDS : Nat := 15 * 60

def normalizedLimit (value : Option Nat) : Except RegistryError Nat :=
  match value with
  | none => pure DEFAULT_LIMIT
  | some value => do
    require (0 < value) (.validation "Conversion recovery limit must be positive")
    pure (min value MAX_LIMIT)

def normalizedMaxRetries (value : Option Nat) : Except RegistryError Nat :=
  match value with
  | none => pure DEFAULT_MAX_RETRIES
  | some value => do
    require (value ≤ 10) (.validation "maxRetries must be an integer between 0 and 10")
    pure value

def actorId (value : String) : Except RegistryError String := do
  require (isActorId (trim value) = true) (.validation "Invalid recovery actorId")
  pure (trim value)

/-! ### Failures -/

def failureOrUnknown (run : ConversionRun) : ConversionFailure :=
  run.failure.getD
    { kind := .unknown, code := "FAILED_WITHOUT_FAILURE_METADATA"
      message := "ConversionRun reached FAILED without failure metadata", retryable := false }

/-- The codes of a converter error that ask for another try. -/
def transientSignals : List String :=
  ["TIMEOUT", "TEMPORAR", "UNAVAILABLE", "NETWORK", "RATE_LIMIT", "THROTTL", "RETRY"]

def conversionFailureIsAutoRetryable (failure : ConversionFailure) : Bool :=
  if failure.code = "LEASE_EXPIRED_DURING_CONVERSION" then false
  else if failure.retryable then true
  else
    match failure.kind with
    | .timeout | .workerError | .inputUnavailable => true
    | .converterError =>
      transientSignals.any fun signal =>
        decide (signal.toList <:+: failure.code.toList.map Char.toUpper)
    | _ => false

def conversionRetryDelaySeconds (retryCount : Nat) : Nat :=
  min (DEFAULT_BASE_DELAY_SECONDS * 2 ^ retryCount) DEFAULT_MAX_DELAY_SECONDS

def nextRetryAt (failedAt : Timestamp) (retryCount : Nat) : Except RegistryError Timestamp :=
  secondsAfter failedAt (conversionRetryDelaySeconds retryCount)

/-- When a run failed, as far as its document says. -/
def failureInstant (run : ConversionRun) : Timestamp := run.failedAt.getD run.updatedAt

/-! ### Keys -/

inductive RetryFamily where
  | failure | operator
deriving DecidableEq

def RetryFamily.text : RetryFamily → String
  | .failure => "failure-retry"
  | .operator => "operator-retry"

def retryKey (family : RetryFamily) (caseId : String) (ordinal : Nat) : String :=
  family.text ++ ":" ++ caseId ++ ":" ++ toString ordinal

/-- `LIKE` of SQLite against a pattern with `_` and without `%`, which may be followed by anything. -/
def likePrefix : List Char → List Char → Bool
  | [], _ => true
  | _ :: _, [] => false
  | p :: ps, c :: cs => (p == '_' || p.toLower == c.toLower) && likePrefix ps cs

/-- `r.idempotency_key LIKE '…-retry:' || c.id || ':%'`. -/
def likeRetryKey (family : RetryFamily) (caseId : String) (idempotencyKey : String) : Bool :=
  likePrefix (family.text ++ ":" ++ caseId ++ ":").toList idempotencyKey.toList

/-! ### Reading -/

/-- Instants and ids as `ORDER BY` compares them. -/
def instantOrder (at_ : Timestamp) (id : String) : (Nat ×ₗ Int ×ₗ Timestamp) ×ₗ String :=
  toLex (isoOrder at_, id)

/-- `ORDER BY … ASC LIMIT ?`. -/
def orderedBy {α : Type} (order : α → (Nat ×ₗ Int ×ₗ Timestamp) ×ₗ String) (limit : Nat)
    (rows : List α) : List α :=
  (rows.insertionSort fun left right => order left ≤ order right).take limit

/-- The failed runs of a workspace that belong to no case. -/
def failedConversionRecoveryCandidateIds (s : RecoveryStore) (workspaceId : Id) (limit : Nat) :
    List Id :=
  let candidates := (s.conversion.runs.map (·.run)).filter fun run =>
    decide (run.workspaceId = workspaceId) && decide (run.status = .failed) &&
      !s.cases.any fun value => decide (value.workspaceId = run.workspaceId) &&
        (decide (value.rootRunId = run.id) || decide (value.latestRunId = run.id) ||
          value.replacementRunIds.contains run.id ||
          likeRetryKey .failure value.id run.idempotencyKey ||
          likeRetryKey .operator value.id run.idempotencyKey)
  (orderedBy (fun run => instantOrder run.updatedAt (idText "cvr" run.id)) limit candidates).map
    (·.id)

def getCase (s : RecoveryStore) (id : String) (workspaceId : Id) : Option ConversionRecoveryCase :=
  s.cases.find? fun value => decide (value.id = id) && decide (value.workspaceId = workspaceId)

def loadRun (s : RecoveryStore) (id : Id) : Except RegistryError ConversionRun :=
  load (s.conversion.run? id) isConversionRun
    (.registry "CONVERSION_RUN_NOT_FOUND" ("ConversionRun " ++ idText "cvr" id ++ " not found"))
    (.validation "Persisted ConversionRun is invalid")

def openCases (s : RecoveryStore) (workspaceId : Id) (limit : Nat) : List ConversionRecoveryCase :=
  orderedBy (fun value => instantOrder value.updatedAt value.id) limit
    (s.cases.filter fun value => decide (value.workspaceId = workspaceId) &&
      (decide (value.state = .waiting) || decide (value.state = .running)))

def dueCases (s : RecoveryStore) (workspaceId : Id) (now : Timestamp) (limit : Nat) :
    List ConversionRecoveryCase :=
  orderedBy (fun value => instantOrder (value.nextRetryAt.getD 0) value.id) limit
    (s.cases.filter fun value => decide (value.workspaceId = workspaceId) &&
      decide (value.state = .waiting) &&
      value.nextRetryAt.any fun due => decide (isoOrder due ≤ isoOrder now))

/-! ### Writing cases -/

def persistCase (s : RecoveryStore) (value : ConversionRecoveryCase) :
    Except RegistryError RecoveryStore := do
  require (∃ stored ∈ s.cases, stored.id = value.id ∧ stored.workspaceId = value.workspaceId)
    (.conflict "CONVERSION_RECOVERY_CASE_UPDATE_FAILED"
      "Conversion recovery case changed concurrently")
  pure { s with cases := update s.cases value }

/-- The case of a failed run. -/
def openedCase (run : ConversionRun) (caseId : Nat) (now : Timestamp) (maxRetries : Nat)
    (retryAt : Option Timestamp) : ConversionRecoveryCase :=
  let failure := failureOrUnknown run
  let autoRetryable := conversionFailureIsAutoRetryable failure
  let retryable := autoRetryable && decide (0 < maxRetries)
  { id := idText "crc" caseId
    workspaceId := run.workspaceId
    rootRunId := run.id
    latestRunId := run.id
    rawArtifactId := run.rawArtifactId
    conversionProfileId := run.conversionProfileId
    originalTrigger := run.trigger
    state := if retryable then .waiting else .deadLettered
    retryCount := 0
    maxRetries := maxRetries
    operatorOverrideCount := 0
    retryable := retryable
    lastFailureRunId := run.id
    lastFailure := failure
    replacementRunIds := []
    nextRetryAt := if retryable then retryAt else none
    deadLetterReason :=
      if retryable then none
      else if autoRetryable then some .retryBudgetExhausted
      else some .nonRetryableFailure
    lastDispatchErrorCode := none
    createdAt := now
    updatedAt := now
    resolvedAt := none
    deadLetteredAt := if retryable then none else some now }

def createCase (s : RecoveryStore) (run : ConversionRun) (caseId : Nat) (now : Timestamp)
    (maxRetries : Nat) : Except RegistryError (ConversionRecoveryCase × RecoveryStore) := do
  let retryable := conversionFailureIsAutoRetryable (failureOrUnknown run) && decide (0 < maxRetries)
  let retryAt ← if retryable then some <$> nextRetryAt (failureInstant run) 0 else pure none
  let value := openedCase run caseId now maxRetries retryAt
  require (∀ stored ∈ s.cases, stored.id ≠ value.id)
    (.uniqueConstraint "conversion_recovery_cases.id")
  require (∀ stored ∈ s.cases, stored.rootRunId ≠ value.rootRunId)
    (.uniqueConstraint "conversion_recovery_cases.root_run_id")
  pure (value, { s with cases := s.cases ++ [value] })

def deadLettered (value : ConversionRecoveryCase) (reason : ConversionDeadLetterReason)
    (now : Timestamp) : ConversionRecoveryCase :=
  { value with
    state := .deadLettered, retryable := false, updatedAt := now, nextRetryAt := none
    deadLetterReason := some reason, deadLetteredAt := some now }

/-- What becomes of an open case by the status of its latest run. -/
def refreshedCase (value : ConversionRecoveryCase) (latest : ConversionRun) (now : Timestamp) :
    Except RegistryError ConversionRecoveryCase :=
  match latest.status with
  | .completed =>
    pure
      { value with
        state := .resolved, retryable := false, updatedAt := now, resolvedAt := some now
        nextRetryAt := none, deadLetterReason := none, deadLetteredAt := none
        lastDispatchErrorCode := none }
  | .cancelled => pure (deadLettered value .retryRunCancelled now)
  | .failed => do
    let failure := failureOrUnknown latest
    let failed := { value with lastFailureRunId := latest.id, lastFailure := failure }
    if conversionFailureIsAutoRetryable failure then
      if value.retryCount < value.maxRetries then
        let retryAt ← nextRetryAt (failureInstant latest) value.retryCount
        pure
          { failed with
            state := .waiting, retryable := true, nextRetryAt := some retryAt
            deadLetterReason := none, deadLetteredAt := none, lastDispatchErrorCode := none
            updatedAt := now }
      else pure (deadLettered failed .retryBudgetExhausted now)
    else pure (deadLettered failed .nonRetryableFailure now)
  | .pending | .running | .verifying =>
    pure { value with state := .running, retryable := true, nextRetryAt := none, updatedAt := now }

def refreshCase (s : RecoveryStore) (value : ConversionRecoveryCase) (now : Timestamp) :
    Except RegistryError (ConversionRecoveryCase × RecoveryStore) :=
  match value.state with
  | .resolved | .deadLettered => pure (value, s)
  | .waiting | .running => do
    let latest ← loadRun s value.latestRunId
    let next ← refreshedCase value latest now
    if next = value then pure (next, s)
    else do
      let s ← persistCase s next
      pure (next, s)

/-! ### Dispatching a retry -/

/-- `error.code`, or the name of an error that is no `RegistryError`. -/
def dispatchErrorCode : RegistryError → String
  | .registry code _ => code
  | .uniqueConstraint _ => "Error"
  | .invalidTimeValue => "RangeError"

/-- The clock readings and generated ids of one dispatch. -/
structure DispatchValues where
  now : Timestamp
  runId : Id
  eventId : Id

/-- Who asks for a retry. -/
inductive RetryBy where
  | system
  | operator (actor : String)
deriving DecidableEq

def RetryBy.family : RetryBy → RetryFamily
  | .system => .failure
  | .operator _ => .operator

def RetryBy.actor : RetryBy → Except RegistryError ConversionActor
  | .system => pure (systemActor "conversion-failure-recovery")
  | .operator actor => do
    let id ← actorId actor
    pure { type := .admin, id }

/-- The retries of a family the case has adopted. -/
def ConversionRecoveryCase.count (value : ConversionRecoveryCase) : RetryFamily → Nat
  | .failure => value.retryCount
  | .operator => value.operatorOverrideCount

/-- The first commit of a retry: the run of the next ordinal, new or replayed. -/
def dispatchRun (platform : ConversionPlatform) (catalogue : ConversionCatalogue)
    (value : ConversionRecoveryCase) (by_ : RetryBy) (values : DispatchValues) (s : RecoveryStore) :
    Except RegistryError (ManualConversionDispatchResult × RecoveryStore) := do
  let latest ← loadRun s value.latestRunId
  require (latest.status = .failed ∨ latest.status = .cancelled)
    (.conflict "CONVERSION_RECOVERY_LATEST_RUN_NOT_TERMINAL"
      "Recovery retry requires a FAILED or CANCELLED latest ConversionRun")
  let actor ← by_.actor
  let (result, conversion) ← Conversion.dispatchManual platform catalogue
    { workspaceId := value.workspaceId, rawArtifactId := value.rawArtifactId
      conversionProfileId := value.conversionProfileId
      targetPathTemplate := latest.targetPathTemplate, trigger := some value.originalTrigger
      actor := some actor
      idempotencyKey := retryKey by_.family value.id (value.count by_.family + 1) }
    values.now values.runId values.eventId s.conversion
  pure (result, { s with conversion })

/-- The case that has adopted a run. -/
def adoptingCase (value : ConversionRecoveryCase) (by_ : RetryBy) (replacementRunId : Id)
    (now : Timestamp) : ConversionRecoveryCase :=
  { value with
    latestRunId := replacementRunId, state := .running, retryable := true
    retryCount :=
      match by_ with
      | .system => value.retryCount + 1
      | .operator _ => value.retryCount
    operatorOverrideCount :=
      match by_ with
      | .system => value.operatorOverrideCount
      | .operator _ => value.operatorOverrideCount + 1
    replacementRunIds :=
      if value.replacementRunIds.contains replacementRunId then value.replacementRunIds
      else value.replacementRunIds ++ [replacementRunId]
    nextRetryAt := none, deadLetterReason := none, deadLetteredAt := none
    lastDispatchErrorCode := none, updatedAt := now }

structure RetryResult where
  recoveryCase : ConversionRecoveryCase
  replayed : Bool
  conversionRunId : Id

/-- `dispatchRetry`: its two commits, of which the first stays when the second throws. -/
def dispatchRetry (platform : ConversionPlatform) (catalogue : ConversionCatalogue)
    (value : ConversionRecoveryCase) (by_ : RetryBy) (now : Timestamp) (values : DispatchValues)
    (s : RecoveryStore) : Except RegistryError RetryResult × RecoveryStore :=
  match dispatchRun platform catalogue value by_ values s with
  | .error error => (.error error, s)
  | .ok (dispatch, s) =>
    let next := adoptingCase value by_ dispatch.record.run.id now
    match persistCase s next with
    | .error error => (.error error, s)
    | .ok s =>
      (.ok
        { recoveryCase := next, replayed := dispatch.replayed
          conversionRunId := dispatch.record.run.id }, s)

def deadLetterDispatchFailure (s : RecoveryStore) (value : ConversionRecoveryCase) (now : Timestamp)
    (error : RegistryError) : Except RegistryError RecoveryStore :=
  persistCase s
    { deadLettered value .dispatchFailed now with
      lastDispatchErrorCode := some (dispatchErrorCode error) }

/-! ### A pass -/

structure ReconciliationFailure where
  recoveryCaseId : Option String
  conversionRunId : Option Id
  code : String

structure ConversionFailureReconciliationResult where
  discovered : Nat
  waiting : Nat
  dispatched : Nat
  replayed : Nat
  resolved : Nat
  deadLettered : Nat
  failed : Nat
  failures : List ReconciliationFailure

def ConversionFailureReconciliationResult.empty : ConversionFailureReconciliationResult where
  discovered := 0
  waiting := 0
  dispatched := 0
  replayed := 0
  resolved := 0
  deadLettered := 0
  failed := 0
  failures := []

def ConversionFailureReconciliationResult.withFailure
    (result : ConversionFailureReconciliationResult) (failure : ReconciliationFailure) :
    ConversionFailureReconciliationResult :=
  { result with
    failed := result.failed + 1
    failures := if result.failures.length < 10 then result.failures ++ [failure] else result.failures }

abbrev PassState := RecoveryStore × ConversionFailureReconciliationResult

/-- One case of the first loop. -/
def refreshStep (now : Timestamp) (p : PassState) (current : ConversionRecoveryCase) : PassState :=
  match refreshCase p.1 current now with
  | .ok (refreshed, s) =>
    (s, { p.2 with
      waiting := p.2.waiting + if refreshed.state = .waiting then 1 else 0
      resolved := p.2.resolved +
        if refreshed.state = .resolved ∧ current.state ≠ .resolved then 1 else 0
      deadLettered := p.2.deadLettered +
        if refreshed.state = .deadLettered ∧ current.state ≠ .deadLettered then 1 else 0 })
  | .error error =>
    (p.1, p.2.withFailure
      { recoveryCaseId := some current.id, conversionRunId := none, code := dispatchErrorCode error })

/-- One candidate of the second loop, with the number of its case id. -/
def discoverStep (now : Timestamp) (maxRetries : Nat) (p : PassState) (candidate : Id × Nat) :
    PassState :=
  let created : Except RegistryError (ConversionRecoveryCase × RecoveryStore) := do
    let run ← loadRun p.1 candidate.1
    createCase p.1 run candidate.2 now maxRetries
  match created with
  | .ok (value, s) =>
    (s, { p.2 with
      discovered := p.2.discovered + 1
      waiting := p.2.waiting + if value.state = .waiting then 1 else 0
      deadLettered := p.2.deadLettered + if value.state = .waiting then 0 else 1 })
  | .error error =>
    (p.1, p.2.withFailure
      { recoveryCaseId := none, conversionRunId := some candidate.1, code := dispatchErrorCode error })

/-- One due case of the third loop, with the values of its dispatch. -/
def retryStep (platform : ConversionPlatform) (catalogue : ConversionCatalogue) (now : Timestamp)
    (p : PassState) (due : ConversionRecoveryCase × DispatchValues) : PassState :=
  match dispatchRetry platform catalogue due.1 .system now due.2 p.1 with
  | (.ok dispatched, s) =>
    (s, { p.2 with
      replayed := p.2.replayed + if dispatched.replayed then 1 else 0
      dispatched := p.2.dispatched + if dispatched.replayed then 0 else 1 })
  | (.error error, s) =>
    let failure : ReconciliationFailure :=
      { recoveryCaseId := some due.1.id, conversionRunId := none, code := dispatchErrorCode error }
    match deadLetterDispatchFailure s due.1 now error with
    | .ok s => (s, { p.2 with deadLettered := p.2.deadLettered + 1 }.withFailure failure)
    | .error _ => (s, p.2.withFailure failure)

structure ConversionFailureReconciliationOptions where
  limit : Option Nat
  maxRetries : Option Nat
  now : Timestamp

/-- The catalogue at the time of a pass, and what its cases and dispatches generate. -/
structure PassValues where
  catalogue : ConversionCatalogue
  caseIds : Nat → Nat
  dispatches : Nat → DispatchValues

/-- Where a pass may end: after as many cases of a loop, or between the two commits of the retry that
    comes after as many others. -/
inductive PassCrash where
  | refreshing (count : Nat)
  | discovering (count : Nat)
  | retrying (count : Nat)
  | adopting (count : Nat)

/-- The cases a loop deals with before the pass ends. -/
def upTo {α : Type} (count : Option Nat) (items : List α) : List α :=
  match count with
  | none => items
  | some count => items.take count

/-- The first loop. -/
def refreshPass (workspaceId : Id) (limit : Nat) (now : Timestamp) (count : Option Nat)
    (p : PassState) : PassState :=
  (upTo count (openCases p.1 workspaceId limit)).foldl (refreshStep now) p

/-- The second loop. -/
def discoverPass (workspaceId : Id) (limit maxRetries : Nat) (now : Timestamp) (caseIds : Nat → Nat)
    (count : Option Nat) (p : PassState) : PassState :=
  (upTo count ((failedConversionRecoveryCandidateIds p.1 workspaceId limit).mapIdx
    fun i runId => (runId, caseIds i))).foldl (discoverStep now maxRetries) p

/-- The due cases of a pass with what their dispatches generate. -/
def dueDispatches (workspaceId : Id) (limit : Nat) (now : Timestamp)
    (dispatches : Nat → DispatchValues) (s : RecoveryStore) :
    List (ConversionRecoveryCase × DispatchValues) :=
  (dueCases s workspaceId now limit).mapIdx fun i value => (value, dispatches i)

/-- The third loop. -/
def retryPass (platform : ConversionPlatform) (catalogue : ConversionCatalogue) (now : Timestamp)
    (due : List (ConversionRecoveryCase × DispatchValues)) (p : PassState) : PassState :=
  due.foldl (retryStep platform catalogue now) p

/-- The first commit of a retry only. -/
def dispatchOnly (platform : ConversionPlatform) (catalogue : ConversionCatalogue)
    (value : ConversionRecoveryCase) (by_ : RetryBy) (values : DispatchValues) (s : RecoveryStore) :
    RecoveryStore :=
  match dispatchRun platform catalogue value by_ values s with
  | .ok (_, s) => s
  | .error _ => s

/-- The stores a pass leaves that ends early. -/
def crashedPass (platform : ConversionPlatform) (workspaceId : Id) (limit maxRetries : Nat)
    (now : Timestamp) (values : PassValues) (s : RecoveryStore) : PassCrash → RecoveryStore
  | .refreshing count => (refreshPass workspaceId limit now (some count) (s, .empty)).1
  | .discovering count =>
    (discoverPass workspaceId limit maxRetries now values.caseIds (some count)
      (refreshPass workspaceId limit now none (s, .empty))).1
  | .retrying count =>
    let p := discoverPass workspaceId limit maxRetries now values.caseIds none
      (refreshPass workspaceId limit now none (s, .empty))
    (retryPass platform values.catalogue now
      ((dueDispatches workspaceId limit now values.dispatches p.1).take count) p).1
  | .adopting count =>
    let p := discoverPass workspaceId limit maxRetries now values.caseIds none
      (refreshPass workspaceId limit now none (s, .empty))
    let due := dueDispatches workspaceId limit now values.dispatches p.1
    let s := (retryPass platform values.catalogue now (due.take count) p).1
    match due[count]? with
    | none => s
    | some (value, dispatch) => dispatchOnly platform values.catalogue value .system dispatch s

/-- A pass that runs to its end. -/
def reconcileConversionFailures (platform : ConversionPlatform) (workspaceId : Id)
    (options : ConversionFailureReconciliationOptions) (values : PassValues) (s : RecoveryStore) :
    Except RegistryError ConversionFailureReconciliationResult × RecoveryStore :=
  match normalizedLimit options.limit, normalizedMaxRetries options.maxRetries with
  | .ok limit, .ok maxRetries =>
    let p := discoverPass workspaceId limit maxRetries options.now values.caseIds none
      (refreshPass workspaceId limit options.now none (s, .empty))
    let p := retryPass platform values.catalogue options.now
      (dueDispatches workspaceId limit options.now values.dispatches p.1) p
    (.ok p.2, p.1)
  | .error error, _ => (.error error, s)
  | _, .error error => (.error error, s)

structure OperatorRetryInput where
  workspaceId : Id
  actorId : String

/-- What an operator retry checks before it dispatches. -/
def retryableCase (s : RecoveryStore) (recoveryCaseId : String) (input : OperatorRetryInput) :
    Except RegistryError (ConversionRecoveryCase × String) := do
  let actor ← actorId input.actorId
  let value ← orThrow (getCase s recoveryCaseId input.workspaceId)
    (.registry "CONVERSION_RECOVERY_CASE_NOT_FOUND"
      ("Conversion recovery case " ++ recoveryCaseId ++ " was not found"))
  require (value.state = .waiting ∨ value.state = .deadLettered)
    (.conflict "CONVERSION_RECOVERY_CASE_NOT_RETRYABLE"
      "Only WAITING or DEAD_LETTERED recovery cases may be retried by an operator")
  pure (value, actor)

def retryConversionRecoveryCaseNow (platform : ConversionPlatform) (catalogue : ConversionCatalogue)
    (recoveryCaseId : String) (input : OperatorRetryInput) (now : Timestamp) (values : DispatchValues)
    (s : RecoveryStore) : Except RegistryError RetryResult × RecoveryStore :=
  match retryableCase s recoveryCaseId input with
  | .error error => (.error error, s)
  | .ok (value, actor) => dispatchRetry platform catalogue value (.operator actor) now values s

/-! ### Runs -/

/-- What changes the store: a call on the conversion store, a pass and an operator retry, each of
    which may end early. -/
inductive RecoveryCall where
  | conversion (call : ConversionCall)
  | reconcile (workspaceId : Id) (options : ConversionFailureReconciliationOptions)
      (values : PassValues) (crash : Option PassCrash)
  | retryNow (recoveryCaseId : String) (input : OperatorRetryInput) (catalogue : ConversionCatalogue)
      (now : Timestamp) (values : DispatchValues) (crash : Bool)

def recoveryStep (platform : ConversionPlatform) (s : RecoveryStore) : RecoveryCall → RecoveryStore
  | .conversion call => { s with conversion := (perform platform s.conversion call).2 }
  | .reconcile workspaceId options values none =>
    (reconcileConversionFailures platform workspaceId options values s).2
  | .reconcile workspaceId options values (some crash) =>
    match normalizedLimit options.limit, normalizedMaxRetries options.maxRetries with
    | .ok limit, .ok maxRetries =>
      crashedPass platform workspaceId limit maxRetries options.now values s crash
    | _, _ => s
  | .retryNow recoveryCaseId input catalogue now values false =>
    (retryConversionRecoveryCaseNow platform catalogue recoveryCaseId input now values s).2
  | .retryNow recoveryCaseId input catalogue _ values true =>
    match retryableCase s recoveryCaseId input with
    | .error _ => s
    | .ok (value, actor) => dispatchOnly platform catalogue value (.operator actor) values s

def recovery (platform : ConversionPlatform) : Transitions.Machine RecoveryStore RecoveryCall where
  init := { conversion := .empty, cases := [] }
  step := recoveryStep platform

end MarkorbitKnowledge.Recovery
