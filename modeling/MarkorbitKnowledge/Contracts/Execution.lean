import MarkorbitKnowledge.Contracts.Schema
import MarkorbitKnowledge.Lib.Tables

/-!
# Execution contracts: runs, jobs, leases and attempts

The documents the execution store persists, `CollectionRun`, `Job`, `WorkerDefinition`,
`WorkerHeartbeat`, `JobLease`, `ExecutionAttempt` and `ExecutionEvent`, their validators, and
`deriveRunStatusFromJob`, which says what a run's status has to be once the status of its newest
job is known.  A repository stores a document only after its validator accepted it, so the
validators are part of the behaviour of every write.
-/

namespace MarkorbitKnowledge.Contracts

/-! ### Collection runs and jobs -/

inductive JobStatus where
  | pending | leased | running | uploading | verifying | completed | retry | failed | deadLetter
  | cancelled
deriving DecidableEq

def JobStatus.text : JobStatus → String
  | .pending => "PENDING"
  | .leased => "LEASED"
  | .running => "RUNNING"
  | .uploading => "UPLOADING"
  | .verifying => "VERIFYING"
  | .completed => "COMPLETED"
  | .retry => "RETRY"
  | .failed => "FAILED"
  | .deadLetter => "DEAD_LETTER"
  | .cancelled => "CANCELLED"

inductive CollectionRunStatus where
  | pending | running | completed | failed | cancelled
deriving DecidableEq

def CollectionRunStatus.text : CollectionRunStatus → String
  | .pending => "PENDING"
  | .running => "RUNNING"
  | .completed => "COMPLETED"
  | .failed => "FAILED"
  | .cancelled => "CANCELLED"

def deriveRunStatusFromJob : JobStatus → CollectionRunStatus
  | .running | .uploading | .verifying => .running
  | .completed => .completed
  | .failed | .deadLetter => .failed
  | .cancelled => .cancelled
  | _ => .pending

inductive RunTriggerType where
  | manual | scheduled | retry | api
deriving DecidableEq

inductive ExecutionActorType where
  | localAdmin | system | apiClient
deriving DecidableEq

structure ExecutionActor where
  actorType : ExecutionActorType
  actorId : Option String

structure ExecutionTrigger where
  type : RunTriggerType
  requestedBy : ExecutionActor
  idempotencyKey : Option String
  parentRunId : Option Id

structure CollectionRun where
  id : Id
  workspaceId : Id
  sourceId : Id
  planId : Id
  status : CollectionRunStatus
  trigger : ExecutionTrigger
  planSnapshot : CollectionPlan
  sourceSnapshot : SourceDefinition
  connectorSnapshot : ConnectorManifest
  requestedAt : Timestamp
  createdAt : Timestamp
  updatedAt : Timestamp
  cancelledAt : Option Timestamp
  cancellationReason : Option String
  extensions : Option Extensions

structure Job where
  id : Id
  runId : Id
  workspaceId : Id
  sourceId : Id
  planId : Id
  jobType : JobType
  status : JobStatus
  connector : ConnectorRef
  priority : CollectionPriority
  attempt : Nat
  maxAttempts : Nat
  availableAt : Timestamp
  planSnapshot : CollectionPlan
  sourceSnapshot : SourceDefinition
  connectorSnapshot : ConnectorManifest
  createdAt : Timestamp
  updatedAt : Timestamp
  cancelledAt : Option Timestamp
  cancellationReason : Option String
  extensions : Option Extensions

def isExecutionActor (actor : ExecutionActor) : Bool :=
  actor.actorId.all fun actorId => decide (0 < jsLength actorId) && decide (jsLength actorId ≤ 200)

def isExecutionTrigger (trigger : ExecutionTrigger) : Bool :=
  isExecutionActor trigger.requestedBy &&
    (trigger.idempotencyKey.all fun key => decide (0 < jsLength key) && decide (jsLength key ≤ 128)) &&
    (if trigger.type = .retry then trigger.parentRunId.isSome else trigger.parentRunId.isNone)

def snapshotsAlign (workspaceId sourceId planId : Id) (plan : CollectionPlan)
    (source : SourceDefinition) (connector : ConnectorManifest) : Bool :=
  decide (plan.id = planId) && decide (plan.sourceId = sourceId) &&
    decide (plan.workspaceId = workspaceId) && decide (source.id = sourceId) &&
    decide (source.workspaceId = workspaceId) &&
    decide (source.connector.connectorId = connector.connectorId) &&
    decide (source.connector.version = connector.version)

/-- `cancelledAt` and `cancellationReason` belong to the CANCELLED status and to no other. -/
def cancellationFieldsAreValid (cancelled : Bool) (cancelledAt : Option Timestamp)
    (cancellationReason : Option String) : Bool :=
  if cancelled then
    cancelledAt.any isRfc3339 &&
      cancellationReason.all fun reason => decide (0 < jsLength reason) && decide (jsLength reason ≤ 500)
  else cancelledAt.isNone && cancellationReason.isNone

def isCollectionRun (run : CollectionRun) : Bool :=
  isExecutionTrigger run.trigger && isCollectionPlan run.planSnapshot &&
    isSourceDefinition run.sourceSnapshot && isConnectorManifest run.connectorSnapshot &&
    isRfc3339 run.requestedAt && isRfc3339 run.createdAt && isRfc3339 run.updatedAt &&
    optionalExtensions run.extensions &&
    snapshotsAlign run.workspaceId run.sourceId run.planId run.planSnapshot run.sourceSnapshot
      run.connectorSnapshot &&
    cancellationFieldsAreValid (run.status = .cancelled) run.cancelledAt run.cancellationReason

def isJob (job : Job) : Bool :=
  job.connector.isValid && decide (0 < job.attempt) && decide (0 < job.maxAttempts) &&
    decide (job.attempt ≤ job.maxAttempts) && isRfc3339 job.availableAt &&
    isCollectionPlan job.planSnapshot && isSourceDefinition job.sourceSnapshot &&
    isConnectorManifest job.connectorSnapshot && isRfc3339 job.createdAt &&
    isRfc3339 job.updatedAt && optionalExtensions job.extensions &&
    snapshotsAlign job.workspaceId job.sourceId job.planId job.planSnapshot job.sourceSnapshot
      job.connectorSnapshot &&
    decide (job.connector.connectorId = job.connectorSnapshot.connectorId) &&
    decide (job.connector.version = job.connectorSnapshot.version) &&
    cancellationFieldsAreValid (job.status = .cancelled) job.cancelledAt job.cancellationReason

theorem attempt_bounds_of_isJob {job : Job} (h : isJob job = true) :
    0 < job.attempt ∧ job.attempt ≤ job.maxAttempts := by
  simp only [isJob, Bool.and_eq_true, decide_eq_true_eq] at h
  tauto

/-! ### Workers and leases -/

inductive WorkerDesiredState where
  | active | draining | disabled
deriving DecidableEq

inductive WorkerHealthState where
  | healthy | degraded | error
deriving DecidableEq

/-- The effective status of a worker. -/
inductive WorkerStatus where
  | online | busy | draining | offline | disabled | error
deriving DecidableEq

inductive JobLeaseStatus where
  | active | released | expired | revoked
deriving DecidableEq

def JobLeaseStatus.text : JobLeaseStatus → String
  | .active => "ACTIVE"
  | .released => "RELEASED"
  | .expired => "EXPIRED"
  | .revoked => "REVOKED"

structure WorkerConnectorBinding where
  connectorId : String
  version : String
  capabilities : List ConnectorCapability

structure WorkerRuntime where
  runtimeId : String
  version : String

structure WorkerDefinition where
  id : Id
  workspaceId : Id
  displayName : String
  desiredState : WorkerDesiredState
  runtime : WorkerRuntime
  supportedJobTypes : List JobType
  connectorBindings : List WorkerConnectorBinding
  maxConcurrency : Nat
  labels : List String
  createdAt : Timestamp
  updatedAt : Timestamp
  extensions : Option Extensions

structure WorkerHeartbeat where
  id : Id
  workerId : Id
  workspaceId : Id
  observedAt : Timestamp
  receivedAt : Timestamp
  runtimeVersion : String
  health : WorkerHealthState
  activeLeaseIds : List Id
  diagnostics : Option Extensions

structure JobLease where
  id : Id
  workspaceId : Id
  workerId : Id
  jobId : Id
  runId : Id
  jobType : JobType
  connector : ConnectorRef
  status : JobLeaseStatus
  acquiredAt : Timestamp
  expiresAt : Timestamp
  updatedAt : Timestamp
  closedAt : Option Timestamp
  closeReason : Option String

def isConnectorBinding (binding : WorkerConnectorBinding) : Bool :=
  isSlug binding.connectorId && isSemver binding.version && !binding.capabilities.isEmpty &&
    decide binding.capabilities.Nodup

def isWorkerDefinition (worker : WorkerDefinition) : Bool :=
  isBoundedText worker.displayName 200 && isRuntimeId worker.runtime.runtimeId &&
    isSemver worker.runtime.version && !worker.supportedJobTypes.isEmpty &&
    decide worker.supportedJobTypes.Nodup && !worker.connectorBindings.isEmpty &&
    worker.connectorBindings.all isConnectorBinding &&
    decide (worker.connectorBindings.map fun b => b.connectorId ++ "@" ++ b.version).Nodup &&
    decide (1 ≤ worker.maxConcurrency) && decide (worker.maxConcurrency ≤ 1000) &&
    decide (worker.labels.length ≤ 50) && worker.labels.all (isBoundedText · 200) &&
    decide worker.labels.Nodup && isRfc3339 worker.createdAt && isRfc3339 worker.updatedAt &&
    optionalExtensions worker.extensions

def isWorkerHeartbeat (heartbeat : WorkerHeartbeat) : Bool :=
  isRfc3339 heartbeat.observedAt && isRfc3339 heartbeat.receivedAt &&
    isSemver heartbeat.runtimeVersion && decide (heartbeat.activeLeaseIds.length ≤ 1000) &&
    decide heartbeat.activeLeaseIds.Nodup && optionalExtensions heartbeat.diagnostics

def closureFieldsAreValid (status : JobLeaseStatus) (closedAt : Option Timestamp)
    (closeReason : Option String) : Bool :=
  if status = .active then closedAt.isNone && closeReason.isNone
  else closedAt.any isRfc3339 && closeReason.all fun reason => decide (jsLength reason ≤ 500)

def isJobLease (lease : JobLease) : Bool :=
  lease.connector.isValid && isRfc3339 lease.acquiredAt && isRfc3339 lease.expiresAt &&
    decide (lease.acquiredAt < lease.expiresAt) && isRfc3339 lease.updatedAt &&
    closureFieldsAreValid lease.status lease.closedAt lease.closeReason

/-! ### Execution attempts -/

inductive ExecutionAttemptStatus where
  | running | uploading | verifying | completed | failed
deriving DecidableEq

/-- `ACTIVE_EXECUTION_STATES`. -/
def ExecutionAttemptStatus.isActive : ExecutionAttemptStatus → Bool
  | .running | .uploading | .verifying => true
  | .completed | .failed => false

def ExecutionAttemptStatus.text : ExecutionAttemptStatus → String
  | .running => "RUNNING"
  | .uploading => "UPLOADING"
  | .verifying => "VERIFYING"
  | .completed => "COMPLETED"
  | .failed => "FAILED"

/-- The job status with the same name. -/
def ExecutionAttemptStatus.toJobStatus : ExecutionAttemptStatus → JobStatus
  | .running => .running
  | .uploading => .uploading
  | .verifying => .verifying
  | .completed => .completed
  | .failed => .failed

inductive ExecutionEventType where
  | started | uploading | verifying | completed | failed | abandoned
deriving DecidableEq

inductive ExecutorMode where
  | fixture | production
deriving DecidableEq

/-- An executor as a request sends it.  `JSON.stringify` writes the members in the order in which they
    stand, so two texts are equal exactly if all fields are. -/
structure ExecutionExecutor where
  executorId : String
  version : String
  mode : ExecutorMode
  memberOrder : List String := ["executorId", "version", "mode"]
deriving DecidableEq

/-- A receipt lists artifact receipts exactly when it is not `metadataOnly`. -/
inductive ReceiptEvidence where
  | metadataOnly
  | artifactBacked (artifactReceiptIds : List Id)

structure ExecutionReceipt where
  executor : ExecutionExecutor
  outputKinds : List ArtifactKind
  itemsObserved : Nat
  bytesPrepared : Nat
  evidence : ReceiptEvidence
  summary : Option String
  /-- The members in the order in which they stand, as in its executor. -/
  memberOrder : List String :=
    ["executor", "outputKinds", "itemsObserved", "bytesPrepared", "metadataOnly",
      "artifactReceiptIds", "summary"]

structure ExecutionFailure where
  code : String
  message : String
  retryable : Bool
  occurredAt : Timestamp

structure ExecutionAttempt where
  id : Id
  workspaceId : Id
  runId : Id
  jobId : Id
  jobAttempt : Nat
  leaseId : Id
  workerId : Id
  connector : ConnectorRef
  executor : ExecutionExecutor
  status : ExecutionAttemptStatus
  startedAt : Timestamp
  updatedAt : Timestamp
  completedAt : Option Timestamp
  receipt : Option ExecutionReceipt
  failure : Option ExecutionFailure

structure ExecutionEvent where
  id : Id
  attemptId : Id
  sequence : Nat
  eventType : ExecutionEventType
  fromStatus : Option ExecutionAttemptStatus
  toStatus : ExecutionAttemptStatus
  idempotencyKey : String
  payloadHash : Digest
  recordedAt : Timestamp

def isExecutionExecutor (executor : ExecutionExecutor) : Bool :=
  isSlug executor.executorId && isSemver executor.version

def ReceiptEvidence.isValid : ReceiptEvidence → Bool
  | .metadataOnly => true
  | .artifactBacked artifactReceiptIds =>
      !artifactReceiptIds.isEmpty && decide artifactReceiptIds.Nodup

def isExecutionReceipt (receipt : ExecutionReceipt) : Bool :=
  isExecutionExecutor receipt.executor && !receipt.outputKinds.isEmpty &&
    decide receipt.outputKinds.Nodup && receipt.evidence.isValid &&
    receipt.summary.all fun s => decide (0 < jsLength s) && decide (jsLength s ≤ 500)

def isExecutionFailure (failure : ExecutionFailure) : Bool :=
  isFailureCode failure.code && decide (0 < jsLength failure.message) &&
    decide (jsLength failure.message ≤ 1000) && isRfc3339 failure.occurredAt

def isExecutionAttempt (attempt : ExecutionAttempt) : Bool :=
  decide (0 < attempt.jobAttempt) && attempt.connector.isValid &&
    isExecutionExecutor attempt.executor && isRfc3339 attempt.startedAt &&
    isRfc3339 attempt.updatedAt &&
    match attempt.status with
    | .completed =>
        attempt.completedAt.any isRfc3339 &&
          (attempt.receipt.any fun r => isExecutionReceipt r && decide (attempt.executor = r.executor)) &&
          attempt.failure.isNone
    | .failed =>
        attempt.completedAt.any isRfc3339 && attempt.failure.any isExecutionFailure &&
          attempt.receipt.isNone
    | _ => attempt.completedAt.isNone && attempt.receipt.isNone && attempt.failure.isNone

def isExecutionEvent (event : ExecutionEvent) : Bool :=
  decide (0 < event.sequence) && decide (0 < jsLength event.idempotencyKey) &&
    decide (jsLength event.idempotencyKey ≤ 128) && isRfc3339 event.recordedAt

/-! ### Keys -/

instance : Tables.Keyed CollectionRun Id := ⟨CollectionRun.id⟩
instance : Tables.Keyed Job Id := ⟨Job.id⟩
instance : Tables.Keyed WorkerDefinition Id := ⟨WorkerDefinition.id⟩
instance : Tables.Keyed ExecutionAttempt Id := ⟨ExecutionAttempt.id⟩

@[simp] theorem key_run (run : CollectionRun) : Tables.key run = run.id := rfl
@[simp] theorem key_job (job : Job) : Tables.key job = job.id := rfl
@[simp] theorem key_worker (worker : WorkerDefinition) : Tables.key worker = worker.id := rfl
@[simp] theorem key_attempt (attempt : ExecutionAttempt) : Tables.key attempt = attempt.id := rfl

end MarkorbitKnowledge.Contracts
