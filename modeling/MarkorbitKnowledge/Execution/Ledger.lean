import MarkorbitKnowledge.Execution.Store
import Mathlib.Data.List.Sort

/-!
# The execution ledger

`execution-ledger.ts`: loading a plan, its source and connector, deciding whether the plan may be
dispatched and as which kind of job, `dispatchManual`, which inserts a run and its first job, and
`cancel`, which cancels a pending run together with all its jobs.  The clock readings and generated
ids of a call are arguments.
-/

namespace MarkorbitKnowledge.Execution

open Contracts Fallible

/-! ### Reading documents -/

def parsePlan (plan : CollectionPlan) : Except RegistryError CollectionPlan := do
  require (isCollectionPlan plan = true)
    (.validation "Persisted collection plan no longer satisfies Schema v1")
  pure plan

def parseSource (source : SourceDefinition) : Except RegistryError SourceDefinition := do
  require (isSourceDefinition source = true)
    (.validation "Persisted source no longer satisfies Schema v1")
  pure source

def parseConnector (connector : ConnectorManifest) : Except RegistryError ConnectorManifest := do
  require (isConnectorManifest connector = true)
    (.validation "Persisted connector no longer satisfies Schema v1")
  pure connector

def parseRun (run : CollectionRun) : Except RegistryError CollectionRun := do
  require (isCollectionRun run = true)
    (.validation "Persisted CollectionRun no longer satisfies Execution Contract v1")
  pure run

def parseJob (job : Job) : Except RegistryError Job := do
  require (isJob job = true)
    (.validation "Persisted Job no longer satisfies Execution Contract v1")
  pure job

@[simp] theorem parsePlan_eq_ok {plan plan' : CollectionPlan} :
    parsePlan plan = .ok plan' ↔ isCollectionPlan plan = true ∧ plan = plan' := by
  simp [parsePlan]

@[simp] theorem parseRun_eq_ok {run run' : CollectionRun} :
    parseRun run = .ok run' ↔ isCollectionRun run = true ∧ run = run' := by
  simp [parseRun]

@[simp] theorem parseJob_eq_ok {job job' : Job} :
    parseJob job = .ok job' ↔ isJob job = true ∧ job = job' := by
  simp [parseJob]

def loadPlan (db : Database) (planId : Id) : Except RegistryError CollectionPlan := do
  let row ← orThrow (Tables.find? db.plans planId) (.collectionPlanNotFound planId)
  parsePlan row

def loadSource (db : Database) (sourceId : Id) : Except RegistryError SourceDefinition := do
  let row ← orThrow (db.sources.find? fun source => decide (source.id = sourceId))
    (.sourceNotFound sourceId)
  parseSource row

/-- `loadConnector`, with the error the caller throws for a missing connector version. -/
def loadConnector (db : Database) (source : SourceDefinition)
    (missing : String → String → RegistryError) : Except RegistryError ConnectorManifest := do
  let row ← orThrow
    (db.connectors.find? fun connector =>
      decide (connector.connectorId = source.connector.connectorId) &&
        decide (connector.version = source.connector.version))
    (missing source.connector.connectorId source.connector.version)
  parseConnector row

/-! ### Dispatch validation -/

def COLLECTION_JOB_TYPES : List JobType :=
  [.webCrawl, .pageUpdateCheck, .apiCollection, .emailImport, .localFileScan]

def deriveCollectionJobType (plan : CollectionPlan) (source : SourceDefinition)
    (connector : ConnectorManifest) : Except RegistryError JobType := do
  let derived ← match source.sourceType with
    | .web => pure (if plan.schedule.mode = .changeWatch then .pageUpdateCheck else .webCrawl)
    | .api => pure .apiCollection
    | .email => pure .emailImport
    | .localFolder | .manualUpload => pure .localFileScan
    | _ =>
      match connector.supportedJobTypes.filter COLLECTION_JOB_TYPES.contains with
      | [compatible] => pure compatible
      | _ => .error (.conflict "EXECUTION_JOB_TYPE_AMBIGUOUS"
          ("Unable to derive one collection JobType for " ++ source.sourceType.text))
  require (derived ∈ connector.supportedJobTypes)
    (.conflict "EXECUTION_JOB_TYPE_UNSUPPORTED"
      ("Connector " ++ connector.connectorId ++ "@" ++ connector.version ++
        " does not support " ++ derived.text))
  pure derived

/-- The codes and messages in which the manual and the scheduled dispatch checks differ. -/
structure DispatchTexts where
  planNotActive : RegistryError
  sourceNotActive : RegistryError
  connectorNotActive : RegistryError
  sourceTypeMismatch : String
  capabilityMismatch : String
  collectRequired : String
  changeWatchUnsupported : RegistryError
  outputMismatch : String
  /-- Whether a manual plan is refused, as the scheduler does. -/
  manualPlan : Option RegistryError

/-- The checks `validateDispatch` and `validateScheduledDispatch` make, in their common order. -/
def checkDispatch (texts : DispatchTexts) (plan : CollectionPlan) (source : SourceDefinition)
    (connector : ConnectorManifest) : Except RegistryError JobType := do
  require (plan.status = .active) texts.planNotActive
  match texts.manualPlan with
  | some error => require (plan.schedule.mode ≠ .manual) error
  | none => pure ()
  require (source.status = .active) texts.sourceNotActive
  require (connector.status = .active) texts.connectorNotActive
  require (source.sourceType ∈ connector.sourceTypes)
    (.conflict texts.sourceTypeMismatch ("Connector does not support " ++ source.sourceType.text))
  require (.collect ∈ connector.capabilities)
    (.conflict texts.capabilityMismatch texts.collectRequired)
  require (plan.policy.renderJavascript = true → .renderJavascript ∈ connector.capabilities)
    (.conflict texts.capabilityMismatch "Plan requires JavaScript rendering")
  require (plan.policy.fetchAttachments = true → .fetchAttachments ∈ connector.capabilities)
    (.conflict texts.capabilityMismatch "Plan requires attachment fetching")
  require (plan.schedule.mode = .changeWatch →
      .checkUpdate ∈ connector.capabilities ∨ .watch ∈ connector.capabilities)
    texts.changeWatchUnsupported
  require (∀ kind ∈ plan.artifactKinds, kind ∈ connector.outputArtifactKinds)
    (.conflict texts.outputMismatch "Plan requests unsupported artifact kinds")
  deriveCollectionJobType plan source connector

def validateDispatch : CollectionPlan → SourceDefinition → ConnectorManifest →
    Except RegistryError JobType :=
  checkDispatch
    { planNotActive := .conflict "EXECUTION_PLAN_NOT_ACTIVE" "Only an active plan can be dispatched"
      sourceNotActive :=
        .conflict "EXECUTION_SOURCE_NOT_ACTIVE" "An active source is required for dispatch"
      connectorNotActive := .conflict "EXECUTION_CONNECTOR_NOT_ACTIVE"
        "An active exact ConnectorManifest version is required for dispatch"
      sourceTypeMismatch := "EXECUTION_SOURCE_TYPE_MISMATCH"
      capabilityMismatch := "EXECUTION_CAPABILITY_MISMATCH"
      collectRequired := "Dispatch requires COLLECT capability"
      changeWatchUnsupported := .conflict "EXECUTION_CHANGE_WATCH_UNSUPPORTED"
        "Change-watch dispatch requires CHECK_UPDATE or WATCH capability"
      outputMismatch := "EXECUTION_OUTPUT_MISMATCH"
      manualPlan := none }

/-! ### Normalisation of the inputs -/

def normalizeIdempotencyKey (value : String) : Except RegistryError String := do
  let normalized := trim value
  require (jsLength normalized ≠ 0 ∧ jsLength normalized ≤ 128)
    (.validation "Idempotency key must contain 1 to 128 characters")
  pure normalized

def normalizeActor (value : Option ExecutionActor) : Except RegistryError ExecutionActor := do
  let actor := value.getD { actorType := .localAdmin, actorId := some "local-admin" }
  require (∀ actorId ∈ actor.actorId,
      jsLength (trim actorId) ≠ 0 ∧ jsLength (trim actorId) ≤ 200)
    (.validation "Invalid execution actor")
  pure { actorType := actor.actorType, actorId := actor.actorId.map trim }

/-! ### Runs and jobs -/

structure ExecutionRunRecord where
  run : CollectionRun
  jobs : List Job

structure ManualDispatchResult where
  record : ExecutionRunRecord
  replayed : Bool

/-- `ORDER BY attempt, created_at`. -/
def jobOrder (left right : Job) : Prop :=
  left.attempt < right.attempt ∨ left.attempt = right.attempt ∧ left.createdAt ≤ right.createdAt

instance : DecidableRel jobOrder := fun left right => by unfold jobOrder; infer_instance

def jobsForRun (db : Database) (runId : Id) : Except RegistryError (List Job) :=
  ((db.jobs.filter fun job => decide (job.runId = runId)).insertionSort jobOrder).mapM parseJob

def recordFromRun (db : Database) (value : CollectionRun) :
    Except RegistryError ExecutionRunRecord := do
  let run ← parseRun value
  let jobs ← jobsForRun db run.id
  pure { run, jobs }

/-- `INSERT INTO collection_runs`: a primary key, and one run per workspace and idempotency key. -/
def insertRun (db : Database) (run : CollectionRun) : Except RegistryError Database := do
  require (∀ stored ∈ db.runs, stored.id ≠ run.id) (.uniqueConstraint "collection_runs.id")
  require (∀ stored ∈ db.runs, run.trigger.idempotencyKey.isSome →
      stored.workspaceId = run.workspaceId →
      stored.trigger.idempotencyKey ≠ run.trigger.idempotencyKey)
    (.uniqueConstraint "collection_runs.workspace_id, collection_runs.idempotency_key")
  pure { db with runs := db.runs ++ [run] }

/-- `INSERT INTO jobs`: a primary key, and one job per run and attempt. -/
def insertJob (db : Database) (job : Job) : Except RegistryError Database := do
  require (∀ stored ∈ db.jobs, stored.id ≠ job.id) (.uniqueConstraint "jobs.id")
  require (∀ stored ∈ db.jobs, stored.runId = job.runId → stored.attempt ≠ job.attempt)
    (.uniqueConstraint "jobs.run_id, jobs.attempt")
  pure { db with jobs := db.jobs ++ [job] }

/-- The pending run a dispatch of `plan` creates. -/
def newRun (plan : CollectionPlan) (source : SourceDefinition) (connector : ConnectorManifest)
    (trigger : ExecutionTrigger) (extensions : Option Extensions) (runId : Id)
    (timestamp : Timestamp) : CollectionRun where
  id := runId
  workspaceId := plan.workspaceId
  sourceId := source.id
  planId := plan.id
  status := .pending
  trigger := trigger
  planSnapshot := plan
  sourceSnapshot := source
  connectorSnapshot := connector
  requestedAt := timestamp
  createdAt := timestamp
  updatedAt := timestamp
  cancelledAt := none
  cancellationReason := none
  extensions := extensions

/-- The first job of a run. -/
def newJob (run : CollectionRun) (jobType : JobType) (jobId : Id) (timestamp : Timestamp) : Job where
  id := jobId
  runId := run.id
  workspaceId := run.workspaceId
  sourceId := run.sourceId
  planId := run.planId
  jobType := jobType
  status := .pending
  connector := ⟨run.connectorSnapshot.connectorId, run.connectorSnapshot.version⟩
  priority := run.planSnapshot.priority
  attempt := 1
  maxAttempts := run.planSnapshot.policy.retry.maxAttempts
  availableAt := timestamp
  planSnapshot := run.planSnapshot
  sourceSnapshot := run.sourceSnapshot
  connectorSnapshot := run.connectorSnapshot
  createdAt := timestamp
  updatedAt := timestamp
  cancelledAt := none
  cancellationReason := none
  extensions := run.extensions

/-- The transaction of a dispatch: the run, then its first job. -/
def insertDispatch (db : Database) (run : CollectionRun) (job : Job) :
    Except RegistryError Database := do
  let db ← insertRun db run
  insertJob db job

/-! ### Manual dispatch -/

structure ManualDispatchInput where
  planId : Id
  requestedBy : Option ExecutionActor
  idempotencyKey : Option String
  extensions : Option Extensions

def runWithKey (db : Database) (workspaceId : Id) (idempotencyKey : String) :
    Option CollectionRun :=
  db.runs.find? fun run =>
    decide (run.workspaceId = workspaceId) &&
      decide (run.trigger.idempotencyKey = some idempotencyKey)

/-- The replay of an earlier dispatch under the same key, or a conflict with it. -/
def replayDispatch (db : Database) (plan : CollectionPlan) (extensions : Option Extensions)
    (existing : CollectionRun) (conflictMessage : String) :
    Except RegistryError ManualDispatchResult := do
  let record ← recordFromRun db existing
  require (record.run.planId = plan.id ∧ record.run.trigger.type = .manual ∧
      extensionsMatch record.run.extensions extensions = true)
    (.conflict "EXECUTION_IDEMPOTENCY_CONFLICT" conflictMessage)
  pure { record, replayed := true }

def dispatchManual (input : ManualDispatchInput) (now : Timestamp) (runId jobId : Id)
    (db : Database) : Except RegistryError (ManualDispatchResult × Database) := do
  let plan ← loadPlan db input.planId
  let source ← loadSource db plan.sourceId
  let connector ← loadConnector db source .connectorNotFound
  let jobType ← validateDispatch plan source connector
  let idempotencyKey ← input.idempotencyKey.mapM normalizeIdempotencyKey
  match idempotencyKey.bind (runWithKey db plan.workspaceId) with
  | some existing =>
    let replay ← replayDispatch db plan input.extensions existing
      "Idempotency key was already used for a different dispatch"
    pure (replay, db)
  | none =>
    let actor ← normalizeActor input.requestedBy
    let trigger : ExecutionTrigger :=
      { type := .manual, requestedBy := actor, idempotencyKey, parentRunId := none }
    let run := newRun plan source connector trigger input.extensions runId now
    let job := newJob run jobType jobId now
    require (isCollectionRun run = true ∧ isJob job = true)
      (.validation "Dispatch does not satisfy Execution Contract v1")
    -- A constraint error is thrown on: the key was free a moment ago, on the same connection, so
    -- the replay the source attempts in its catch block finds no run under it.
    let db ← insertDispatch db run job
    pure ({ record := { run, jobs := [job] }, replayed := false }, db)

/-! ### Cancellation -/

structure CancelRunInput where
  expectedUpdatedAt : Timestamp
  reason : Option String

/-- A run or job takes the CANCELLED status at `timestamp`; an empty reason is no reason. -/
def cancelledRun (run : CollectionRun) (timestamp : Timestamp) (reason : Option String) :
    CollectionRun :=
  { run with
    status := .cancelled, updatedAt := timestamp, cancelledAt := some timestamp
    cancellationReason := reason.filter (· ≠ "") <|> run.cancellationReason }

def cancelledJob (job : Job) (timestamp : Timestamp) (reason : Option String) : Job :=
  { job with
    status := .cancelled, updatedAt := timestamp, cancelledAt := some timestamp
    cancellationReason := reason.filter (· ≠ "") <|> job.cancellationReason }

/-- `UPDATE jobs … WHERE id = ? AND status = 'PENDING'`, which has to change one row. -/
def cancelPendingJob (db : Database) (job : Job) : Except RegistryError Database := do
  require (∃ stored ∈ db.jobs, stored.id = job.id ∧ stored.status = .pending)
    (.conflict "EXECUTION_JOB_STATE_CONFLICT"
      ("Job " ++ idText "job" job.id ++ " changed during cancellation"))
  pure { db with jobs := Tables.update db.jobs job }

def cancel (id : Id) (input : CancelRunInput) (now : Timestamp) (db : Database) :
    Except RegistryError (ExecutionRunRecord × Database) := do
  let row ← orThrow (Tables.find? db.runs id) (.executionRunNotFound id)
  let current ← recordFromRun db row
  require (current.run.updatedAt = input.expectedUpdatedAt)
    (.conflict "EXECUTION_VERSION_CONFLICT" "CollectionRun was modified after it was read")
  require (current.run.status = .pending)
    (.conflict "EXECUTION_RUN_NOT_CANCELLABLE"
      ("Only PENDING runs can be cancelled; current status is " ++ current.run.status.text))
  let reason := input.reason.map trim
  require (∀ text ∈ reason, jsLength text ≤ 500)
    (.validation "Cancellation reason must not exceed 500 characters")
  let run := cancelledRun current.run now reason
  let jobs ← current.jobs.mapM fun job => do
    require (job.status = .pending)
      (.conflict "EXECUTION_JOB_NOT_CANCELLABLE"
        ("Job " ++ idText "job" job.id ++ " is " ++ job.status.text ++
          " and cannot be cancelled by the control plane"))
    pure (cancelledJob job now reason)
  require (isCollectionRun run = true ∧ jobs.all isJob = true)
    (.validation "Cancellation does not satisfy Execution Contract v1")
  require (∃ stored ∈ db.runs, stored.id = run.id ∧ stored.updatedAt = input.expectedUpdatedAt)
    (.conflict "EXECUTION_VERSION_CONFLICT" "CollectionRun was modified during cancellation")
  let db ← jobs.foldlM cancelPendingJob { db with runs := Tables.update db.runs run }
  pure ({ run, jobs }, db)

end MarkorbitKnowledge.Execution
