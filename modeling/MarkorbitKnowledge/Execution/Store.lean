import MarkorbitKnowledge.Contracts.Artifact
import MarkorbitKnowledge.Lib.Fallible

/-!
# The execution database

One SQLite database holds the catalogue, the workers, the execution ledger, the execution attempts
and the artifact registry.  A table is the list of its rows in insertion order and a row is the
document it stores; a column the source keeps beside the document is a field of the row only where
no field of the document carries it (credential and token digests, for example).  The repositories
run in one process on one synchronous connection, so a repository call is one step, and a call that
throws leaves the database as it was: its transaction was rolled back or never begun.

The digests and the URL parser of the platform are parameters (`Platform`).
-/

namespace MarkorbitKnowledge.Execution

open Contracts

/-! ### Errors -/

/-- What a repository call can throw: a `RegistryError` of the source, with its code and message, the
    constraint error of the database, with the columns of the violated constraint, or the
    `RangeError` of an instant outside what a `Date` can hold. -/
inductive RegistryError where
  | registry (code message : String)
  | uniqueConstraint (columns : String)
  | invalidTimeValue
deriving DecidableEq

namespace RegistryError

/-- `new RegistryConflictError(code, message)`. -/
def conflict (code message : String) : RegistryError := registry code message

/-- `new RegistryValidationError(message)`. -/
def validation (message : String) : RegistryError :=
  registry "REGISTRY_VALIDATION_ERROR" message

/-- `new RegistryNotFoundError(id)`. -/
def sourceNotFound (id : Id) : RegistryError :=
  registry "SOURCE_NOT_FOUND" ("Source " ++ idText "src" id ++ " was not found")

def collectionPlanNotFound (id : Id) : RegistryError :=
  registry "COLLECTION_PLAN_NOT_FOUND"
    ("Collection plan " ++ idText "pln" id ++ " was not found")

def connectorNotFound (connectorId version : String) : RegistryError :=
  registry "CONNECTOR_NOT_FOUND"
    ("Connector " ++ connectorId ++ "@" ++ version ++ " was not found")

def executionRunNotFound (id : Id) : RegistryError :=
  registry "EXECUTION_RUN_NOT_FOUND" ("Collection run " ++ idText "run" id ++ " was not found")

def workerNotFound (id : Id) : RegistryError :=
  registry "WORKER_NOT_FOUND" ("Worker " ++ idText "wrk" id ++ " was not found")

def leaseNotFound (id : Id) : RegistryError :=
  registry "LEASE_NOT_FOUND" ("Lease " ++ idText "lse" id ++ " was not found")

def executionLeaseNotFound (id : Id) : RegistryError :=
  registry "EXECUTION_LEASE_NOT_FOUND" ("Execution lease " ++ idText "lse" id ++ " was not found")

/-- `ExecutionAttemptNotFoundError`, which the source constructs with the lease id. -/
def executionAttemptNotFound (leaseId : Id) : RegistryError :=
  registry "EXECUTION_ATTEMPT_NOT_FOUND"
    ("Execution attempt " ++ idText "lse" leaseId ++ " was not found")

def workerAuthentication (message : String) : RegistryError :=
  registry "WORKER_AUTHENTICATION_FAILED" message

end RegistryError

/-! ### Rows -/

/-- A row of `worker_credentials`. -/
structure WorkerCredential where
  workerId : Id
  credentialDigest : Digest
  rotatedAt : Timestamp

/-- A row of `job_leases`: the lease document and the digest of its token. -/
structure LeaseRow where
  lease : JobLease
  tokenDigest : Digest

/-- What a worker's transition returns, stored for replay. -/
structure ExecutionTransitionResult where
  attempt : ExecutionAttempt
  event : ExecutionEvent
  replayed : Bool

inductive TransitionOperation where
  | start | uploading | verifying | complete | fail
deriving DecidableEq

/-- A row of `execution_transition_requests`. -/
structure TransitionRequest where
  workerId : Id
  leaseId : Id
  idempotencyKey : String
  operation : TransitionOperation
  payloadHash : Digest
  result : ExecutionTransitionResult
  createdAt : Timestamp

/-- A row of `artifact_ingestion_sessions`. -/
structure SessionRow where
  session : ArtifactIngestionSession
  descriptorHash : Digest
  verification : Option ArtifactVerificationResult
  receipt : Option ArtifactIngestionReceipt
  failure : Option ArtifactIngestionFailure
  /-- Whether `temp_relative_path` is set; the path itself is a function of the session id. -/
  tempRelativePath : Bool

/-- A row of `content_objects`. -/
structure ContentObject where
  digest : Digest
  sizeBytes : Nat
  referenceCount : Nat
  createdAt : Timestamp
  verifiedAt : Timestamp

/-- A row of `raw_artifacts`. -/
structure RawArtifactRow where
  artifact : RawArtifact
  jobId : Id
  jobAttempt : Nat
  executionAttemptId : Id
  sessionId : Id
  receiptId : Id

/-- A row of `collection_schedule_states`. -/
structure PersistedScheduleState where
  planId : Id
  workspaceId : Id
  scheduleMode : ScheduleMode
  scheduleFingerprint : Digest
  nextDueAt : Option Timestamp
  lastSlotAt : Option Timestamp
  lastTriggeredAt : Option Timestamp
  lastRunId : Option Id
  lastErrorCode : Option String
  lastErrorMessage : Option String
  lastErrorAt : Option Timestamp
  updatedAt : Timestamp

instance : Tables.Keyed LeaseRow Id := ⟨fun row => row.lease.id⟩
instance : Tables.Keyed SessionRow Id := ⟨fun row => row.session.id⟩
instance : Tables.Keyed PersistedScheduleState Id := ⟨PersistedScheduleState.planId⟩
instance : Tables.Keyed CollectionPlan Id := ⟨CollectionPlan.id⟩

@[simp] theorem key_lease (row : LeaseRow) : Tables.key row = row.lease.id := rfl
@[simp] theorem key_session (row : SessionRow) : Tables.key row = row.session.id := rfl
@[simp] theorem key_scheduleState (row : PersistedScheduleState) :
    Tables.key row = row.planId := rfl
@[simp] theorem key_plan (plan : CollectionPlan) : Tables.key plan = plan.id := rfl

structure Database where
  plans : List CollectionPlan
  sources : List SourceDefinition
  connectors : List ConnectorManifest
  workers : List WorkerDefinition
  credentials : List WorkerCredential
  heartbeats : List WorkerHeartbeat
  runs : List CollectionRun
  jobs : List Job
  leases : List LeaseRow
  attempts : List ExecutionAttempt
  events : List ExecutionEvent
  transitionRequests : List TransitionRequest
  scheduleStates : List PersistedScheduleState
  sessions : List SessionRow
  contentObjects : List ContentObject
  rawArtifacts : List RawArtifactRow
  ingestionEvents : List ArtifactIngestionEvent

/-- The database after its migrations, with nothing stored. -/
def Database.empty : Database where
  plans := []
  sources := []
  connectors := []
  workers := []
  credentials := []
  heartbeats := []
  runs := []
  jobs := []
  leases := []
  attempts := []
  events := []
  transitionRequests := []
  scheduleStates := []
  sessions := []
  contentObjects := []
  rawArtifacts := []
  ingestionEvents := []

/-! ### The platform -/

/-- What a transition request hashes: the JSON payload of the request, with the documents of the
    worker as they were sent. -/
inductive ExecutionPayload where
  | start (executor : ExecutionExecutor)
  | stage (target : ExecutionAttemptStatus)
  | complete (receipt : ExecutionReceipt)
  | fail (code message : String) (retryable : Bool)
  | reconcile (code : String) (leaseStatus : JobLeaseStatus)

/-- The platform functions the repositories call: SHA-256 of a text, and of the JSON text of a
    payload, an upload descriptor or a schedule; the protocol and host name of a parsed URL; and the
    formatter of a time zone, if the zone is known, with the parts it finds, if they are integers. -/
structure Platform where
  digestHex : String → Digest
  hashPayload : ExecutionPayload → Digest
  hashDescriptor : ArtifactUploadDescriptor → Digest
  hashSchedule : CollectionSchedule → Digest
  parseUrl : String → Option (String × String)
  timezoneFormatter : String → Option (Timestamp → Option DateParts)

/-- `verifyDigest`: the value hashes to the stored digest. -/
def Platform.verifyDigest (platform : Platform) (value : String) (expected : Digest) : Bool :=
  decide (platform.digestHex value = expected)

end MarkorbitKnowledge.Execution
