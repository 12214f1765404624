import MarkorbitKnowledge.Lib.Binary64
import MarkorbitKnowledge.Execution.WorkerRegistry

/-!
# The execution of a leased job

`controlled-worker-execution.ts`: a worker that holds the active lease of a job starts the one
execution attempt of that lease, moves it through UPLOADING and VERIFYING, and completes or fails
it; `reconcileExpired` fails the attempts whose lease ended under them.  Each transition is replayed
under its idempotency key.  A retryable failure inserts the next job of the run.
-/

namespace MarkorbitKnowledge.Execution

open Contracts Fallible

/-! ### Reading documents -/

def parseAttempt (attempt : ExecutionAttempt) : Except RegistryError ExecutionAttempt := do
  require (isExecutionAttempt attempt = true)
    (.validation "Persisted ExecutionAttempt no longer satisfies Worker Execution Protocol v1")
  pure attempt

@[simp] theorem parseAttempt_eq_ok {attempt attempt' : ExecutionAttempt} :
    parseAttempt attempt = .ok attempt' ↔ isExecutionAttempt attempt = true ∧ attempt = attempt' := by
  simp [parseAttempt]

structure LeaseContext where
  lease : LeaseRow
  job : Job
  run : CollectionRun

/-- The lease joined with its job and its run. -/
def loadLeaseContext (db : Database) (leaseId : Id) : Except RegistryError LeaseContext := do
  let notFound := RegistryError.executionLeaseNotFound leaseId
  let lease ← orThrow (Tables.find? db.leases leaseId) notFound
  let job ← orThrow (Tables.find? db.jobs lease.lease.jobId) notFound
  let run ← orThrow (Tables.find? db.runs lease.lease.runId) notFound
  let lease ← parseLease lease
  let job ← parseJob job
  let run ← parseRun run
  pure { lease, job, run }

def assertLeaseOwner (platform : Platform) (context : LeaseContext) (workerId : Id)
    (leaseToken : String) : Except RegistryError Unit :=
  require (context.lease.lease.workerId = workerId ∧
      platform.verifyDigest leaseToken context.lease.tokenDigest = true)
    (.conflict "EXECUTION_LEASE_AUTHENTICATION_FAILED" "Invalid lease ownership or token")

def authenticate (platform : Platform) (db : Database) (workerId : Id) (credential : String)
    (leaseId : Id) (leaseToken : String) : Except RegistryError LeaseContext := do
  let _ ← verifyCredential platform db workerId credential
  let context ← loadLeaseContext db leaseId
  assertLeaseOwner platform context workerId leaseToken
  pure context

def requireActiveContext (platform : Platform) (db : Database) (workerId leaseId : Id)
    (leaseToken : String) (now : Timestamp) : Except RegistryError LeaseContext := do
  let context ← loadLeaseContext db leaseId
  assertLeaseOwner platform context workerId leaseToken
  require (context.lease.lease.status = .active ∧ now < context.lease.lease.expiresAt)
    (.conflict "EXECUTION_LEASE_NOT_ACTIVE" "Execution requires an active lease")
  pure context

def getByLeaseId (db : Database) (leaseId : Id) :
    Except RegistryError (Option ExecutionAttempt) :=
  (db.attempts.find? fun attempt => decide (attempt.leaseId = leaseId)).mapM parseAttempt

def requireAttemptByLease (db : Database) (leaseId : Id) :
    Except RegistryError ExecutionAttempt := do
  let attempt ← getByLeaseId db leaseId
  orThrow attempt (.executionAttemptNotFound leaseId)

/-! ### Writing documents -/

def buildEvent (db : Database) (attemptId : Id) (fromStatus : Option ExecutionAttemptStatus)
    (toStatus : ExecutionAttemptStatus) (eventType : ExecutionEventType) (idempotencyKey : String)
    (payloadHash : Digest) (recordedAt : Timestamp) (eventId : Id) :
    Except RegistryError ExecutionEvent := do
  let sequence := (db.events.countP fun event => decide (event.attemptId = attemptId)) + 1
  let event : ExecutionEvent :=
    { id := eventId, attemptId, sequence, eventType, fromStatus, toStatus, idempotencyKey
      payloadHash, recordedAt }
  require (isExecutionEvent event = true)
    (.validation "ExecutionEvent does not satisfy protocol v1")
  pure event

/-- `INSERT INTO execution_events`: a primary key, and one event per attempt and sequence. -/
def insertEvent (db : Database) (event : ExecutionEvent) : Except RegistryError Database := do
  require (∀ stored ∈ db.events, stored.id ≠ event.id) (.uniqueConstraint "execution_events.id")
  require (∀ stored ∈ db.events, stored.attemptId = event.attemptId →
      stored.sequence ≠ event.sequence)
    (.uniqueConstraint "execution_events.attempt_id, execution_events.sequence")
  pure { db with events := db.events ++ [event] }

/-- `INSERT INTO execution_attempts`: a primary key, one attempt per lease, and one per job and job
    attempt. -/
def insertAttempt (db : Database) (attempt : ExecutionAttempt) : Except RegistryError Database := do
  require (∀ stored ∈ db.attempts, stored.id ≠ attempt.id)
    (.uniqueConstraint "execution_attempts.id")
  require (∀ stored ∈ db.attempts, stored.leaseId ≠ attempt.leaseId)
    (.uniqueConstraint "execution_attempts.lease_id")
  require (∀ stored ∈ db.attempts, stored.jobId = attempt.jobId →
      stored.jobAttempt ≠ attempt.jobAttempt)
    (.uniqueConstraint "execution_attempts.job_id, execution_attempts.job_attempt")
  pure { db with attempts := db.attempts ++ [attempt] }

def updateAttempt (db : Database) (attempt : ExecutionAttempt) : Except RegistryError Database := do
  require (isExecutionAttempt attempt = true)
    (.validation "ExecutionAttempt does not satisfy protocol v1")
  pure { db with attempts := Tables.update db.attempts attempt }

def updateJob (db : Database) (job : Job) (status : JobStatus) (timestamp : Timestamp) :
    Except RegistryError Database := do
  let next := { job with status, updatedAt := timestamp }
  require (isJob next = true) (.validation "Job transition violates contract v1")
  pure { db with jobs := Tables.update db.jobs next }

def updateRun (db : Database) (run : CollectionRun) (status : CollectionRunStatus)
    (timestamp : Timestamp) : Except RegistryError Database := do
  let next := { run with status, updatedAt := timestamp }
  require (isCollectionRun next = true) (.validation "CollectionRun transition violates contract v1")
  pure { db with runs := Tables.update db.runs next }

/-- `closeLease` of the execution repository, which does not shorten the reason. -/
def closeExecutionLease (db : Database) (row : LeaseRow) (status : JobLeaseStatus)
    (reason : String) (timestamp : Timestamp) : Except RegistryError Database := do
  let next := closedLease row.lease status timestamp reason
  require (isJobLease next = true) (.validation "Lease close violates Worker Protocol v1")
  pure (updateLeaseDocument db row next)

/-! ### Idempotent replay -/

/-- Who asks for a transition, on which lease, under which key, and the hash of the request. -/
structure TransitionKey where
  workerId : Id
  leaseId : Id
  idempotencyKey : String
  operation : TransitionOperation
  payloadHash : Digest

def findReplay (db : Database) (key : TransitionKey) :
    Except RegistryError (Option ExecutionTransitionResult) :=
  match db.transitionRequests.find? fun row => decide (row.workerId = key.workerId) &&
      decide (row.leaseId = key.leaseId) && decide (row.idempotencyKey = key.idempotencyKey) with
  | none => pure none
  | some row => do
    require (row.operation = key.operation ∧ row.payloadHash = key.payloadHash)
      (.conflict "EXECUTION_IDEMPOTENCY_CONFLICT"
        "Idempotency key was already used with a different operation or payload")
    require (isExecutionAttempt row.result.attempt = true ∧ isExecutionEvent row.result.event = true)
      (.validation "Stored execution replay result is invalid")
    pure (some { row.result with replayed := true })

/-- `INSERT INTO execution_transition_requests`, keyed by worker, lease and idempotency key. -/
def storeReplay (db : Database) (key : TransitionKey) (result : ExecutionTransitionResult)
    (timestamp : Timestamp) : Except RegistryError Database := do
  require (∀ stored ∈ db.transitionRequests, stored.workerId = key.workerId →
      stored.leaseId = key.leaseId → stored.idempotencyKey ≠ key.idempotencyKey)
    (.uniqueConstraint ("execution_transition_requests.worker_id, " ++
      "execution_transition_requests.lease_id, execution_transition_requests.idempotency_key"))
  pure
    { db with
      transitionRequests := db.transitionRequests ++
        [{ workerId := key.workerId, leaseId := key.leaseId, idempotencyKey := key.idempotencyKey
           operation := key.operation, payloadHash := key.payloadHash, result
           createdAt := timestamp }] }

/-! ### Starting and staging -/

/-- The credentials a worker sends with every execution request. -/
structure WorkerRequest where
  workerId : Id
  credential : String
  leaseId : Id
  leaseToken : String
  idempotencyKey : String

def newAttempt (context : LeaseContext) (workerId : Id) (executor : ExecutionExecutor)
    (attemptId : Id) (now : Timestamp) : ExecutionAttempt where
  id := attemptId
  workspaceId := context.job.workspaceId
  runId := context.job.runId
  jobId := context.job.id
  jobAttempt := context.job.attempt
  leaseId := context.lease.lease.id
  workerId := workerId
  connector := context.job.connector
  executor := executor
  status := .running
  startedAt := now
  updatedAt := now
  completedAt := none
  receipt := none
  failure := none

/-- The transaction of `start`. -/
def startInTransaction (platform : Platform) (request : WorkerRequest) (executor : ExecutionExecutor)
    (key : TransitionKey) (now : Timestamp) (attemptId eventId : Id) (db : Database) :
    Except RegistryError (ExecutionTransitionResult × Database) := do
  let context ← requireActiveContext platform db request.workerId request.leaseId
    request.leaseToken now
  require (context.job.status = .leased ∧ context.run.status = .pending)
    (.conflict "EXECUTION_START_STATE_CONFLICT"
      "Execution can start only from LEASED Job and PENDING CollectionRun")
  let existing ← getByLeaseId db request.leaseId
  require (existing.isNone)
    (.conflict "EXECUTION_ATTEMPT_ALREADY_EXISTS" "The lease already has an execution attempt")
  let attempt := newAttempt context request.workerId executor attemptId now
  require (isExecutionAttempt attempt = true)
    (.validation "ExecutionAttempt does not satisfy protocol v1")
  let event ← buildEvent db attempt.id none .running .started key.idempotencyKey key.payloadHash now
    eventId
  let db ← insertAttempt db attempt
  let db ← insertEvent db event
  let db ← updateJob db context.job .running now
  let db ← updateRun db context.run .running now
  let result := { attempt, event, replayed := false }
  let db ← storeReplay db key result now
  pure (result, db)

/-- The part every worker transition shares: authenticate, replay a repeated request, and run the
    transaction for a new one. -/
def replayOr (platform : Platform) (request : WorkerRequest) (key : TransitionKey)
    (body : Database → Except RegistryError (ExecutionTransitionResult × Database))
    (db : Database) : Except RegistryError (ExecutionTransitionResult × Database) := do
  let _ ← authenticate platform db request.workerId request.credential request.leaseId
    request.leaseToken
  match ← findReplay db key with
  | some replay => pure (replay, db)
  | none => body db

def WorkerRequest.key (request : WorkerRequest) (idempotencyKey : String)
    (operation : TransitionOperation) (payloadHash : Digest) : TransitionKey where
  workerId := request.workerId
  leaseId := request.leaseId
  idempotencyKey := idempotencyKey
  operation := operation
  payloadHash := payloadHash

def start (platform : Platform) (request : WorkerRequest) (executor : ExecutionExecutor)
    (now : Timestamp) (attemptId eventId : Id) (db : Database) :
    Except RegistryError (ExecutionTransitionResult × Database) := do
  require (isExecutionExecutor executor = true) (.validation "Invalid execution executor")
  let idempotencyKey ← normalizeIdempotencyKey request.idempotencyKey
  let key := request.key idempotencyKey .start (platform.hashPayload (.start executor))
  replayOr platform request key
    (startInTransaction platform request executor key now attemptId eventId) db

/-- One of the two stages an attempt passes on its way to completion. -/
structure ExecutionStage where
  operation : TransitionOperation
  expected : ExecutionAttemptStatus
  target : ExecutionAttemptStatus
  eventType : ExecutionEventType

def stageInTransaction (platform : Platform) (request : WorkerRequest) (stage : ExecutionStage)
    (key : TransitionKey) (now : Timestamp) (eventId : Id) (db : Database) :
    Except RegistryError (ExecutionTransitionResult × Database) := do
  let context ← requireActiveContext platform db request.workerId request.leaseId
    request.leaseToken now
  let attempt ← requireAttemptByLease db request.leaseId
  require (attempt.status = stage.expected ∧ context.job.status = stage.expected.toJobStatus)
    (.conflict "EXECUTION_TRANSITION_CONFLICT"
      ("Expected " ++ stage.expected.text ++ " before " ++ stage.target.text))
  let nextAttempt := { attempt with status := stage.target, updatedAt := now }
  let event ← buildEvent db nextAttempt.id (some stage.expected) stage.target stage.eventType
    key.idempotencyKey key.payloadHash now eventId
  let db ← updateAttempt db nextAttempt
  let db ← insertEvent db event
  let db ← updateJob db context.job stage.target.toJobStatus now
  let result := { attempt := nextAttempt, event, replayed := false }
  let db ← storeReplay db key result now
  pure (result, db)

def transition (platform : Platform) (request : WorkerRequest) (stage : ExecutionStage)
    (now : Timestamp) (eventId : Id) (db : Database) :
    Except RegistryError (ExecutionTransitionResult × Database) := do
  let idempotencyKey ← normalizeIdempotencyKey request.idempotencyKey
  let key := request.key idempotencyKey stage.operation
    (platform.hashPayload (.stage stage.target))
  replayOr platform request key (stageInTransaction platform request stage key now eventId) db

def uploadingStage : ExecutionStage where
  operation := .uploading
  expected := .running
  target := .uploading
  eventType := .uploading

def verifyingStage : ExecutionStage where
  operation := .verifying
  expected := .uploading
  target := .verifying
  eventType := .verifying

def markUploading (platform : Platform) (request : WorkerRequest) :
    Timestamp → Id → Database → Except RegistryError (ExecutionTransitionResult × Database) :=
  transition platform request uploadingStage

def markVerifying (platform : Platform) (request : WorkerRequest) :
    Timestamp → Id → Database → Except RegistryError (ExecutionTransitionResult × Database) :=
  transition platform request verifyingStage

/-! ### Completion evidence -/

def assertReceiptMatchesJob (receipt : ExecutionReceipt) (job : Job) : Except RegistryError Unit :=
  require (∀ kind ∈ receipt.outputKinds,
      kind ∈ job.planSnapshot.artifactKinds ∧ kind ∈ job.connectorSnapshot.outputArtifactKinds)
    (.conflict "EXECUTION_RECEIPT_OUTPUT_MISMATCH"
      "Execution receipt contains output kinds outside the immutable Job snapshots")

/-- One listed receipt: its artifact has to exist, with a finalized session, and to belong to the
    completing attempt. -/
def artifactEvidence (db : Database) (executionAttemptId : Id) (receiptId : Id) :
    Except RegistryError (Nat × ArtifactKind) := do
  let notFinalized := RegistryError.conflict "ARTIFACT_RECEIPT_NOT_FINALIZED"
    ("Artifact ingestion receipt " ++ idText "air" receiptId ++ " is not finalized")
  let row ← orThrow (db.rawArtifacts.find? fun row => decide (row.receiptId = receiptId))
    notFinalized
  let session ← orThrow (Tables.find? db.sessions row.sessionId) notFinalized
  require (session.session.status = .finalized ∧ session.receipt.isSome) notFinalized
  require (row.executionAttemptId = executionAttemptId)
    (.conflict "ARTIFACT_RECEIPT_EXECUTION_MISMATCH"
      "Artifact receipt does not belong to this execution attempt")
  pure (row.artifact.sizeBytes, row.artifact.artifactKind)

def assertArtifactEvidence (db : Database) (executionAttemptId : Id) (receipt : ExecutionReceipt)
    (job : Job) : Except RegistryError Unit :=
  match receipt.evidence with
  | .metadataOnly => pure ()
  | .artifactBacked artifactReceiptIds => do
    let rows ← artifactReceiptIds.mapM (artifactEvidence db executionAttemptId)
    let observedKinds := (rows.map (·.2)).eraseDups
    let observedBytes := (rows.map (·.1)).sum
    let reportsAllObservedPages :=
      job.jobType = .pageUpdateCheck ∧ job.planSnapshot.policy.fetchAttachments = false
    require ((observedKinds ⊆ receipt.outputKinds ∧ receipt.outputKinds ⊆ observedKinds) ∧
        (if reportsAllObservedPages then rows.length ≤ receipt.itemsObserved
          else rows.length = receipt.itemsObserved) ∧
        observedBytes = receipt.bytesPrepared)
      (.conflict "ARTIFACT_RECEIPT_TOTAL_MISMATCH"
        "Finalized artifact evidence does not match the execution receipt")

/-! ### Completing and failing -/

def MAX_RETRY_BACKOFF_MS : Nat := 30 * 60000

/-- The first 32 bits of the SHA-256 of `jobId:attempt`, a value of 256 bits. -/
def jitterWord (platform : Platform) (job : Job) : Nat :=
  platform.digestHex (idText "job" job.id ++ ":" ++ toString job.attempt) / 2 ^ 224 % 2 ^ 32

/-- The quotient of the word `jitter` and `0xffffffff`, as a double. -/
def jitterSeed (jitter : Nat) : ℚ := Binary64.round (jitter / 0xffffffff)

/-- `backoffSeconds * 1000`, a product of doubles, if it is finite. -/
def retryBaseMs (backoffSeconds : Nat) : Option Nat :=
  let product : ℚ := backoffSeconds * 1000
  if Binary64.IsFinite product then some ⌊Binary64.round product⌋.toNat else none

/-- The back-off before the next attempt: exponential up to a cap, with a jitter in a window of a
    quarter of it.  With an infinite base the window is the difference of two infinities, and the
    back-off no number.  Only the base, the seed and its product with the window are rounded: the other
    numbers are integers below `2 ^ 53`, or the base alone. -/
def computeExecutionRetryDelayMs (jitter : Nat) (attempt backoffSeconds : Nat) : Option Nat := do
  let baseMs ← retryBaseMs backoffSeconds
  let capMs := max baseMs MAX_RETRY_BACKOFF_MS
  let exponent := min (attempt - 1) 20
  let exponentialMs := min (baseMs * 2 ^ exponent) capMs
  let remainingBeforeCap := capMs - exponentialMs
  let jitterWindowMs := min (exponentialMs / 4) remainingBeforeCap
  if jitterWindowMs = 0 then pure exponentialMs
  else pure (exponentialMs + ⌊Binary64.round (jitterSeed jitter * (jitterWindowMs + 1))⌋.toNat)

def retryJobFor (job : Job) (availableAt timestamp : Timestamp) (jobId : Id) : Job :=
  { job with
    id := jobId
    status := .pending
    attempt := job.attempt + 1
    availableAt
    createdAt := timestamp
    updatedAt := timestamp }

def insertRetryJob (platform : Platform) (db : Database) (job : Job) (timestamp : Timestamp)
    (jobId : Id) : Except RegistryError Database := do
  let backoffMs ← orThrow (computeExecutionRetryDelayMs (jitterWord platform job) job.attempt
    job.planSnapshot.policy.retry.backoffSeconds) .invalidTimeValue
  require (isDate (timestamp + backoffMs) = true) .invalidTimeValue
  let retryJob := retryJobFor job (timestamp + backoffMs) timestamp jobId
  require (isJob retryJob = true)
    (.validation "Retry Job does not satisfy Execution Contract v1")
  insertJob db retryJob

/-- What ends an attempt: a receipt or a failure. -/
inductive Terminal where
  | receipt (receipt : ExecutionReceipt)
  | failure (failure : ExecutionFailure)

def Terminal.target : Terminal → ExecutionAttemptStatus
  | .receipt _ => .completed
  | .failure _ => .failed

def Terminal.eventType : Terminal → ExecutionEventType
  | .receipt _ => .completed
  | .failure _ => .failed

/-- The conditions on the attempt and the job under which a terminal transition is accepted. -/
def assertTerminal (db : Database) (attempt : ExecutionAttempt) (job : Job) :
    Terminal → Except RegistryError Unit
  | .receipt receipt => do
    require (attempt.status = .verifying ∧ job.status = .verifying)
      (.conflict "EXECUTION_TRANSITION_CONFLICT" "Completion requires VERIFYING state")
    require (attempt.executor = receipt.executor)
      (.conflict "EXECUTION_EXECUTOR_MISMATCH"
        "Receipt executor must match the started execution executor")
    assertReceiptMatchesJob receipt job
    assertArtifactEvidence db attempt.id receipt job
  | .failure _ =>
    require (attempt.status.isActive = true)
      (.conflict "EXECUTION_TRANSITION_CONFLICT" "Failure requires an active execution state")

def terminalAttempt (attempt : ExecutionAttempt) (terminal : Terminal) (now : Timestamp) :
    ExecutionAttempt :=
  match terminal with
  | .receipt receipt =>
    { attempt with
      status := .completed, updatedAt := now, completedAt := some now, receipt := some receipt }
  | .failure failure =>
    { attempt with
      status := .failed, updatedAt := now, completedAt := some now, failure := some failure }

/-- What the end of its attempt makes of the job and the run, and the reason the lease closes
    with. -/
def settleJob (platform : Platform) (db : Database) (job : Job) (run : CollectionRun)
    (terminal : Terminal) (now : Timestamp) (retryJobId : Id) :
    Except RegistryError (String × Database) :=
  match terminal with
  | .receipt _ => do
    let db ← updateJob db job .completed now
    let db ← updateRun db run .completed now
    pure ("EXECUTION_COMPLETED", db)
  | .failure failure => do
    if failure.retryable = true ∧ job.attempt < job.maxAttempts then
      let db ← updateJob db job .retry now
      let db ← insertRetryJob platform db job now retryJobId
      let db ← updateRun db run .pending now
      pure ("EXECUTION_RETRY_SCHEDULED", db)
    else if failure.retryable = true then
      let db ← updateJob db job .deadLetter now
      let db ← updateRun db run .failed now
      pure ("EXECUTION_RETRY_EXHAUSTED", db)
    else
      let db ← updateJob db job .failed now
      let db ← updateRun db run .failed now
      pure ("EXECUTION_FAILED", db)

/-- The generated ids of a terminal transition. -/
structure TerminalIds where
  eventId : Id
  retryJobId : Id

def terminalInTransaction (platform : Platform) (request : WorkerRequest) (terminal : Terminal)
    (key : TransitionKey) (now : Timestamp) (ids : TerminalIds) (db : Database) :
    Except RegistryError (ExecutionTransitionResult × Database) := do
  let context ← requireActiveContext platform db request.workerId request.leaseId
    request.leaseToken now
  let attempt ← requireAttemptByLease db request.leaseId
  assertTerminal db attempt context.job terminal
  let nextAttempt := terminalAttempt attempt terminal now
  require (isExecutionAttempt nextAttempt = true)
    (.validation "Terminal attempt does not satisfy protocol v1")
  let event ← buildEvent db nextAttempt.id (some attempt.status) terminal.target terminal.eventType
    key.idempotencyKey key.payloadHash now ids.eventId
  let db ← updateAttempt db nextAttempt
  let db ← insertEvent db event
  let (reason, db) ← settleJob platform db context.job context.run terminal now ids.retryJobId
  let db ← closeExecutionLease db context.lease .released reason now
  let result := { attempt := nextAttempt, event, replayed := false }
  let db ← storeReplay db key result now
  pure (result, db)

def complete (platform : Platform) (request : WorkerRequest) (receipt : ExecutionReceipt)
    (now : Timestamp) (ids : TerminalIds) (db : Database) :
    Except RegistryError (ExecutionTransitionResult × Database) := do
  require (isExecutionReceipt receipt = true) (.validation "Invalid execution receipt")
  let idempotencyKey ← normalizeIdempotencyKey request.idempotencyKey
  let key := request.key idempotencyKey .complete (platform.hashPayload (.complete receipt))
  replayOr platform request key
    (terminalInTransaction platform request (.receipt receipt) key now ids) db

structure FailExecutionInput where
  code : String
  message : String
  retryable : Bool

/-- `fail` reads the clock twice: for the failure it records and in the transaction. -/
def fail (platform : Platform) (request : WorkerRequest) (input : FailExecutionInput)
    (occurredAt now : Timestamp) (ids : TerminalIds) (db : Database) :
    Except RegistryError (ExecutionTransitionResult × Database) := do
  let code := trim input.code
  let message := trim input.message
  let idempotencyKey ← normalizeIdempotencyKey request.idempotencyKey
  let key := request.key idempotencyKey .fail
    (platform.hashPayload (.fail code message input.retryable))
  let failure : ExecutionFailure := { code, message, retryable := input.retryable, occurredAt }
  replayOr platform request key (fun db => do
    require (isExecutionFailure failure = true) (.validation "Invalid execution failure")
    terminalInTransaction platform request (.failure failure) key now ids db) db

/-! ### Reconciliation -/

/-- An active attempt whose lease ended, with the rows joined to it. -/
structure AbandonedRow where
  attempt : ExecutionAttempt
  lease : LeaseRow
  job : Job
  run : CollectionRun

def abandonedRow (db : Database) (now : Timestamp) (attempt : ExecutionAttempt) :
    Option AbandonedRow := do
  let lease ← Tables.find? db.leases attempt.leaseId
  let job ← Tables.find? db.jobs attempt.jobId
  let run ← Tables.find? db.runs attempt.runId
  if attempt.status.isActive = true ∧ (lease.lease.status ≠ .active ∨ lease.lease.expiresAt ≤ now) then
    some { attempt, lease, job, run }
  else none

/-- `ORDER BY a.started_at, a.id`. -/
def abandonedRows (db : Database) (now : Timestamp) : List AbandonedRow :=
  (db.attempts.filterMap (abandonedRow db now)).insertionSort fun left right =>
    toLex (left.attempt.startedAt, left.attempt.id) ≤
      toLex (right.attempt.startedAt, right.attempt.id)

def abandonedFailure (now : Timestamp) : ExecutionFailure where
  code := "LEASE_EXPIRED_DURING_EXECUTION"
  message := "The execution lease ended after execution started; external outcome is unknown."
  retryable := false
  occurredAt := now

def abandon (platform : Platform) (now : Timestamp) (db : Database) (entry : AbandonedRow × Id) :
    Except RegistryError Database := do
  let (row, eventId) := entry
  let attempt ← parseAttempt row.attempt
  let lease ← parseLease row.lease
  let job ← parseJob row.job
  let run ← parseRun row.run
  let failure := abandonedFailure now
  let nextAttempt := terminalAttempt attempt (.failure failure) now
  let idempotencyKey := sliceText ("system-reconcile-" ++ idText "lse" lease.lease.id) 128
  let event ← buildEvent db nextAttempt.id (some attempt.status) .failed .abandoned idempotencyKey
    (platform.hashPayload (.reconcile failure.code lease.lease.status)) now eventId
  let db ← updateAttempt db nextAttempt
  let db ← insertEvent db event
  let db ← updateJob db job .failed now
  let db ← updateRun db run .failed now
  if lease.lease.status = .active then
    closeExecutionLease db lease .expired "LEASE_EXPIRED_DURING_EXECUTION" now
  else pure db

/-- Fail every active attempt whose lease is closed or expired; `eventId i` is the id generated for
    the `i`-th of them. -/
def reconcileExpired (platform : Platform) (now : Timestamp) (eventId : Nat → Id) (db : Database) :
    Except RegistryError (Nat × Database) := do
  let rows := abandonedRows db now
  let db ← (rows.mapIdx fun i row => (row, eventId i)).foldlM (abandon platform now) db
  pure (rows.length, db)

end MarkorbitKnowledge.Execution
