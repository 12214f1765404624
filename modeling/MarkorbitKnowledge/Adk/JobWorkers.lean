import MarkorbitKnowledge.Adk.JobQueue
import MarkorbitKnowledge.Lib.Transitions
import Mathlib.Logic.Function.Basic

/-!
# The processes of the AI-knowledge queue

`adk-knowledge-job-worker.ts`: enqueueing, one execution and recovery, cut at the calls of the store
and at the two awaits of an execution, the provider call and the sink.  Any number of processes run
these steps on one store; a process may also end between two of them.  The state keeps the log of what
happened to which job.
-/

namespace MarkorbitKnowledge.Adk

open Contracts Fallible Tables Transitions

/-! ### Enqueueing -/

structure EnqueueAdkKnowledgeJobsInput where
  assignmentIds : List String
  providers : List String
  executionScope : Option String
  executionRevision : Option Nat
  maxAttempts : Option Nat

def resolveExecutionScope (input : EnqueueAdkKnowledgeJobsInput) : Except String String :=
  let explicit := trim (input.executionScope.getD "")
  if explicit ≠ "" then do
    require (input.executionRevision = none)
      "ADK executionScope and executionRevision cannot both be supplied"
    require (jsLength explicit ≤ 128) "ADK executionScope must contain at most 128 characters"
    pure explicit
  else do
    let revision := input.executionRevision.getD 1
    require (positiveInteger revision = true) "ADK execution revision must be a positive integer"
    pure ("r" ++ toString revision)

/-- The evidence of a grounded execution; `valid` is what else its contract asks for. -/
structure GroundedPreparedExecution where
  assignmentId : String
  executionInputSha256 : String
  valid : Bool
deriving DecidableEq

/-- A job to enqueue: of an assignment and a provider, or of a grounded execution. -/
inductive QueueRequest where
  | legacy (assignmentId provider executionScope : String) (maxAttempts : Nat)
  | grounded (evidence : GroundedPreparedExecution)
deriving DecidableEq

def QueueRequest.executionKey : QueueRequest → String
  | .legacy assignmentId provider executionScope _ =>
    assignmentId ++ ":" ++ provider ++ ":" ++ executionScope
  | .grounded evidence => "grounded-prepared:" ++ evidence.executionInputSha256

/-- The new job of a request; `digest` gives the 32 digits of the hash of a key. -/
def QueueRequest.job (digest : String → String) (request : QueueRequest) (now : Timestamp) :
    AiKnowledgeJob :=
  let id := "akj_" ++ digest request.executionKey
  match request with
  | .legacy assignmentId provider _ maxAttempts =>
    { id, assignmentId, provider, executionMode := none, groundedExecutionInputSha256 := none
      status := .queued, attempts := 0, maxAttempts := some maxAttempts
      executionKey := some request.executionKey, createdAt := now, updatedAt := now
      artifactIds := [], error := none }
  | .grounded evidence =>
    { id, assignmentId := evidence.assignmentId, provider := "PROVIDER_DISABLED"
      executionMode := some .groundedPrepared
      groundedExecutionInputSha256 := some evidence.executionInputSha256
      status := .queued, attempts := 0, maxAttempts := some 1
      executionKey := some request.executionKey, createdAt := now, updatedAt := now
      artifactIds := [], error := none }

/-- `assertExistingMatches` of a grounded execution. -/
def QueueRequest.matches (request : QueueRequest) (existing : AiKnowledgeJob) : Bool :=
  match request with
  | .legacy .. => true
  | .grounded evidence =>
    executionModeOf existing == .groundedPrepared && existing.provider == "PROVIDER_DISABLED" &&
      existing.assignmentId == evidence.assignmentId &&
      existing.groundedExecutionInputSha256 == some evidence.executionInputSha256 &&
      existing.executionKey == some request.executionKey

/-- The requests of `enqueueAdkKnowledgeJobs`, in the order of its loops. -/
def enqueueRequests (input : EnqueueAdkKnowledgeJobsInput) : Except String (List QueueRequest) := do
  let executionScope ← resolveExecutionScope input
  let maxAttempts := input.maxAttempts.getD 3
  require (positiveInteger maxAttempts = true) "ADK maxAttempts must be a positive integer"
  pure (input.assignmentIds.flatMap fun assignmentId =>
    input.providers.map fun provider => .legacy assignmentId provider executionScope maxAttempts)

/-- The request of `enqueueAdkGroundedPreparedExecution`. -/
def groundedRequests (evidence : GroundedPreparedExecution) : Except String (List QueueRequest) := do
  require (evidence.valid = true ∧ isSha256Text evidence.executionInputSha256 = true)
    "Invalid AiGroundedPreparedExecutionEvidenceV1"
  pure [.grounded evidence]

/-! ### Executing -/

/-- `AiKnowledgeAcquisitionError`, or any other error of a provider call. -/
inductive AcquireError where
  | acquisition (code message : String) (retryable : Bool)
  | other (message : String)
deriving DecidableEq

def failureMessage : AcquireError → String
  | .acquisition code message _ => code ++ ": " ++ message
  | .other message => message

/-- What the worker reads of an acquisition. -/
structure AiKnowledgeAcquisition where
  assignmentId : String
  submissionProvider : String
  artifactProvider : String
  artifactId : String
deriving DecidableEq

structure AdkPersistedLineage where
  rawProviderArtifactId : String
  markdownRawArtifactId : String
deriving DecidableEq

def deliveryUncertainProviderErrors : List String :=
  ["AI_PROVIDER_TIMEOUT", "AI_PROVIDER_NETWORK_ERROR"]

/-- What a provider error says about the call: that it was not made, that it may have been delivered,
    or that it failed. -/
inductive CallVerdict where
  | credentialMissing | uncertain | definite
deriving DecidableEq

def AcquireError.verdict : AcquireError → CallVerdict
  | .acquisition code _ _ =>
    if code = "AI_PROVIDER_CREDENTIAL_MISSING" then .credentialMissing
    else if code ∈ deliveryUncertainProviderErrors then .uncertain
    else .definite
  | .other _ => .uncertain

def AcquireError.retryable : AcquireError → Bool
  | .acquisition _ _ retryable => retryable
  | .other _ => false

def AcquireError.prefix_ : AcquireError → String
  | .acquisition .. => "AI_PROVIDER_DELIVERY_UNCERTAIN: "
  | .other _ => "AI_PROVIDER_EXECUTION_UNCERTAIN: "

/-- The assignments and the adapters of a worker: for a provider, the provider its adapter names. -/
structure WorkerRegistries where
  assignments : List String
  adapters : List (String × String)

def isSupportedAdkQueueProvider (value : String) : Bool :=
  value == "DEEPSEEK" || value == "OPENAI"

/-- What an execution checks before it calls the provider. -/
def preflight (registries : WorkerRegistries) (running : AiKnowledgeJob) : Except String Unit := do
  require (isSupportedAdkQueueProvider running.provider = true)
    ("AI_PROVIDER_UNSUPPORTED: " ++ running.provider)
  require (running.assignmentId ∈ registries.assignments)
    ("AI_ASSIGNMENT_NOT_FOUND: " ++ running.assignmentId)
  let adapter ← orThrow (registries.adapters.lookup running.provider)
    ("AI_PROVIDER_ADAPTER_MISSING: " ++ running.provider)
  require (adapter = running.provider) ("AI_PROVIDER_ADAPTER_MISMATCH: " ++ running.provider)

def groundedPreparedExecutionBlockReason (job : AiKnowledgeJob) : String :=
  if hasGroundedIdentity job then "AI_GROUNDED_PROVIDER_EXECUTION_DISABLED"
  else "AI_GROUNDED_QUEUE_IDENTITY_INVALID"

/-- The document for a provider call that threw. -/
def afterError (running : AiKnowledgeJob) (error : AcquireError) (now : Timestamp) :
    Except String AiKnowledgeJob :=
  match error.verdict with
  | .credentialMissing => markCredentialBlocked running (failureMessage error) now
  | .uncertain => blockJobForRecovery running (error.prefix_ ++ failureMessage error) now
  | .definite => failJob running (failureMessage error) error.retryable now

/-- Whether an acquisition is of the job. -/
def sameLineage (running : AiKnowledgeJob) (acquisition : AiKnowledgeAcquisition) : Bool :=
  acquisition.assignmentId == running.assignmentId &&
    acquisition.submissionProvider == running.provider &&
    acquisition.artifactProvider == running.provider

/-- The document for a sink that answered or threw. -/
def afterSink (running : AiKnowledgeJob) (acquisition : AiKnowledgeAcquisition)
    (result : Except String AdkPersistedLineage) (now : Timestamp) : Except String AiKnowledgeJob :=
  match result with
  | .error message => blockJobForRecovery running ("AI_ARTIFACT_PERSISTENCE_UNCERTAIN: " ++ message) now
  | .ok lineage =>
    let artifactIds :=
      [acquisition.artifactId, lineage.rawProviderArtifactId, lineage.markdownRawArtifactId]
    if artifactIds.Nodup then completeJob running artifactIds now
    else blockJobForRecovery running "AI_ACQUISITION_LINEAGE_REQUIRES_RECONCILIATION" now

/-! ### Recovery -/

structure RecoverAdkKnowledgeJobsInput where
  staleBefore : Timestamp
  requeueRetryPending : Bool
  requeueCredentialBlocked : Bool

def isStale (job : AiKnowledgeJob) (staleBefore : Timestamp) : Bool :=
  decide (job.updatedAt < staleBefore)

/-- What recovery makes of a job of its list, if anything. -/
def recoveredJob (input : RecoverAdkKnowledgeJobsInput) (job : AiKnowledgeJob) (now : Timestamp) :
    Option (Except String AiKnowledgeJob) :=
  match job.status with
  | .retryPending => if input.requeueRetryPending then some (requeueJob job now) else none
  | .blockedCredential =>
    if input.requeueCredentialBlocked then some (requeueCredentialBlockedJob job now) else none
  | .claimed => if isStale job input.staleBefore then some (recoverClaimedJob job now) else none
  | .running =>
    if isStale job input.staleBefore then
      some (blockJobForRecovery job "AI_STALE_RUNNING_REQUIRES_RECONCILIATION" now)
    else none
  | _ => none

/-! ### Processes -/

/-- Where a process is, with the documents it has read. -/
inductive Task where
  | idle
  | enqueuing (requests : List QueueRequest)
  | putting (request : QueueRequest) (rest : List QueueRequest)
  | claimed (job : AiKnowledgeJob)
  | running (job : AiKnowledgeJob)
  | calling (job : AiKnowledgeJob)
  | called (job : AiKnowledgeJob) (result : Except AcquireError AiKnowledgeAcquisition)
  | sinking (job : AiKnowledgeJob) (acquisition : AiKnowledgeAcquisition)
  | sunk (job : AiKnowledgeJob) (acquisition : AiKnowledgeAcquisition)
      (result : Except String AdkPersistedLineage)
  | recovering (input : RecoverAdkKnowledgeJobsInput) (rest : List AiKnowledgeJob)

/-- What happened to a job. -/
inductive JobEvent where
  /-- A process has marked the job RUNNING. -/
  | started (jobId : String)
  /-- The provider was called. -/
  | called (jobId : String)
  | ended (jobId : String) (verdict : Option CallVerdict)
  | sinkFailed (jobId : String)
  /-- Recovery declared the job stale while it was RUNNING. -/
  | stale (jobId : String)
  /-- A failure was stored, that of a provider call or another one. -/
  | failed (jobId : String) (ofCall : Bool)
deriving DecidableEq

structure WorkerState where
  store : List JobRow
  tasks : Nat → Task
  events : List JobEvent

def WorkerState.initial : WorkerState := ⟨[], fun _ => .idle, []⟩

namespace WorkerState

def setTask (s : WorkerState) (process : Nat) (task : Task) : WorkerState :=
  { s with tasks := Function.update s.tasks process task }

def log (s : WorkerState) (event : JobEvent) : WorkerState := { s with events := s.events ++ [event] }

/-- A process ends with an update of the store, `persistIfStatus`: if the document cannot be made or
    stored, or another status is found, nothing is written.  The events are logged with the update. -/
def persist (s : WorkerState) (process : Nat) (next : Except String AiKnowledgeJob)
    (expectedStatus : AiKnowledgeJobStatus) (events : List JobEvent) (after : AiKnowledgeJob → Task) :
    WorkerState :=
  let saved := do
    let job ← next
    saveIfStatus s.store job expectedStatus
  match saved with
  | .ok (some job, store) =>
    { store, tasks := Function.update s.tasks process (after job), events := s.events ++ events }
  | .ok (none, _) => s.setTask process .idle
  | .error _ => s.setTask process .idle

end WorkerState

/-- The steps of a process; each makes at most one call of the store. -/
inductive Action where
  | enqueue (input : EnqueueAdkKnowledgeJobsInput)
  | enqueueGrounded (evidence : GroundedPreparedExecution)
  | lookUp
  | insert (now : Timestamp)
  | claim (now : Timestamp)
  | start (now : Timestamp)
  | check (registries : WorkerRegistries) (now : Timestamp)
  | endCall (result : Except AcquireError AiKnowledgeAcquisition)
  | handle (now : Timestamp)
  | endSink (result : Except String AdkPersistedLineage)
  | finish (now : Timestamp)
  | list (input : RecoverAdkKnowledgeJobsInput)
  | recoverNext (now : Timestamp)
  | crash

/-- The verdict of a call that threw. -/
def callVerdict : Except AcquireError AiKnowledgeAcquisition → Option CallVerdict
  | .ok _ => none
  | .error error => some error.verdict

def staleEvents (job : AiKnowledgeJob) : List JobEvent :=
  if job.status = .running then [.stale job.id] else []

def workerStep (digest : String → String) (s : WorkerState) : Nat × Action → WorkerState
  | (process, action) =>
    match s.tasks process, action with
    | _, .crash => s.setTask process .idle
    | .idle, .enqueue input =>
      match enqueueRequests input with
      | .ok requests => s.setTask process (.enqueuing requests)
      | .error _ => s
    | .idle, .enqueueGrounded evidence =>
      match groundedRequests evidence with
      | .ok requests => s.setTask process (.enqueuing requests)
      | .error _ => s
    | .enqueuing [], .lookUp => s.setTask process .idle
    | .enqueuing (request :: rest), .lookUp =>
      match getByExecutionKey s.store request.executionKey with
      | .ok none => s.setTask process (.putting request rest)
      | .ok (some existing) =>
        if request.matches existing then s.setTask process (.enqueuing rest)
        else s.setTask process .idle
      | .error _ => s.setTask process .idle
    | .putting request rest, .insert now =>
      match put s.store (request.job digest now) with
      | .ok (_, store) => { s with store }.setTask process (.enqueuing rest)
      | .error _ => s.setTask process .idle
    | .idle, .claim now =>
      match claimNext s.store now with
      | .ok (some job, store) => { s with store }.setTask process (.claimed job)
      | .ok (none, _) => s
      | .error _ => s
    | .claimed job, .start now =>
      match executionModeOf job with
      | .groundedPrepared =>
        s.persist process (markExecutionBlocked job (groundedPreparedExecutionBlockReason job) now)
          .claimed [] fun _ => .idle
      | .legacyProvider =>
        s.persist process (markRunning job now) .claimed [.started job.id] .running
    | .running job, .check registries now =>
      match preflight registries job with
      | .ok _ => (s.setTask process (.calling job)).log (.called job.id)
      | .error error =>
        s.persist process (failJob job error false now) .running [.failed job.id false] fun _ => .idle
    | .calling job, .endCall result =>
      (s.setTask process (.called job result)).log (.ended job.id (callVerdict result))
    | .called job (.error error), .handle now =>
      let events := if error.verdict = .definite then [.failed job.id true] else []
      s.persist process (afterError job error now) .running events fun _ => .idle
    | .called job (.ok acquisition), .handle now =>
      if sameLineage job acquisition then s.setTask process (.sinking job acquisition)
      else
        s.persist process (failJob job "AI_ACQUISITION_LINEAGE_MISMATCH" false now) .running
          [.failed job.id false] fun _ => .idle
    | .sinking job acquisition, .endSink result =>
      match result with
      | .ok _ => s.setTask process (.sunk job acquisition result)
      | .error _ => (s.setTask process (.sunk job acquisition result)).log (.sinkFailed job.id)
    | .sunk job acquisition result, .finish now =>
      s.persist process (afterSink job acquisition result now) .running [] fun _ => .idle
    | .idle, .list input =>
      match listJobs s.store with
      | .ok jobs => s.setTask process (.recovering input jobs)
      | .error _ => s
    | .recovering _ [], .recoverNext _ => s.setTask process .idle
    | .recovering input (job :: rest), .recoverNext now =>
      match recoveredJob input job now with
      | none => s.setTask process (.recovering input rest)
      | some next =>
        let saved := do
          let recovered ← next
          saveIfStatus s.store recovered job.status
        match saved with
        | .ok (some _, store) =>
          { s with store, events := s.events ++ staleEvents job }.setTask process
            (.recovering input rest)
        | .ok (none, _) => s.setTask process (.recovering input rest)
        | .error _ => s.setTask process .idle
    | _, _ => s

def workers (digest : String → String) : Machine WorkerState (Nat × Action) where
  init := .initial
  step := workerStep digest

end MarkorbitKnowledge.Adk
