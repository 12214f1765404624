import MarkorbitKnowledge.Conversion.Leases
import Mathlib.Data.List.MinMax

/-!
# Transitions of a conversion run

`conversion-runtime-transitions.ts`: the reports of the worker that holds the lease of an attempt
(started, progress, output ready, failed) and the decisions of the control plane (completion, failed
verification, an expired lease).  Both look for a replay first, then compute what becomes of the run,
the attempt and the lease (`Transition`), and store the three with one event.  The outcome of the
credential check of a worker comes with its report.
-/

namespace MarkorbitKnowledge.Conversion

open Contracts Fallible Tables
open Execution (RegistryError)

structure ConversionRuntimeTransitionResult where
  run : ConversionRun
  attempt : ConversionAttempt
  lease : ConversionLease
  event : ConversionExecutionEvent
  replayed : Bool

/-! ### Reading -/

namespace ConversionDatabase

variable (db : ConversionDatabase)

/-- `ORDER BY ordinal DESC LIMIT 1`. -/
def loadLatestAttempt (runId : Id) : Except RegistryError ConversionAttempt :=
  load ((db.attemptsOfRun runId).argmax (·.ordinal)) isConversionAttempt
    (.registry "CONVERSION_ATTEMPT_NOT_FOUND" "Conversion attempt not found")
    (.validation "Persisted ConversionAttempt is invalid")

def loadUploadGrant (id : Id) : Except RegistryError StagingOutputUploadGrant :=
  load (find? db.uploadGrants id) isStagingOutputUploadGrant
    (.registry "CONVERSION_UPLOAD_GRANT_NOT_FOUND" "Upload grant not found")
    (.validation "Persisted StagingOutputUploadGrant is invalid")

def resultForEvent (eventId : Id) (replayed : Bool) :
    Except RegistryError ConversionRuntimeTransitionResult := do
  let event ← load (find? db.events eventId) isConversionExecutionEvent
    (.registry "CONVERSION_EVENT_NOT_FOUND" "Transition event missing")
    (.validation "Persisted ConversionExecutionEvent is invalid")
  let run ← db.loadRun event.runId
  let attempt ← db.loadLatestAttempt run.id
  let lease ← db.loadLease attempt.conversionLeaseId
  pure { run, attempt, lease, event, replayed }

end ConversionDatabase

def transitionKeyOf (value : String) : Except RegistryError String :=
  idempotencyKeyOf value "Invalid transition idempotency key"

def validateActor (value field : String) : Except RegistryError String := do
  require (isActorId (trim value) = true) (.validation ("Invalid " ++ field))
  pure (trim value)

def validateFailure (code message : String) : Except RegistryError Unit := do
  require (isCheckCode code = true) (.validation "Failure code must be uppercase")
  require (trim message ≠ "" ∧ jsLength message ≤ 1000)
    (.validation "Failure message must contain 1-1000 characters")

/-! ### Storing a transition -/

/-- What a transition makes of a run, its attempt and its lease, and what its event says. -/
structure Transition where
  run : ConversionRun
  attempt : ConversionAttempt
  lease : ConversionLease
  eventType : ConversionEventType
  occurredAt : Timestamp
  actor : ConversionActor
  message : Option String
  payload : EventPayload

/-- `COALESCE(MAX(sequence), 0)` over the events of a run. -/
def maxSequence (db : ConversionDatabase) (runId : Id) : Nat :=
  ((eventsOfRun db runId).map (·.sequence)).foldr max 0

def Transition.event (t : Transition) (db : ConversionDatabase) (previous : ConversionRun)
    (eventId : Id) : ConversionExecutionEvent where
  id := eventId
  runId := previous.id
  sequence := maxSequence db previous.id + 1
  eventType := t.eventType
  previousStatus := some previous.status
  resultingStatus := t.run.status
  occurredAt := t.occurredAt
  actor := t.actor
  message := t.message.filter (· ≠ "")
  payload := t.payload

def validateTransitionObjects (t : Transition) (event : ConversionExecutionEvent) :
    Except RegistryError Unit :=
  require (isConversionRun t.run = true ∧ isConversionAttempt t.attempt = true ∧
      isConversionLease t.lease = true ∧ isConversionExecutionEvent event = true)
    (.validation "Runtime transition violates Conversion Execution or Runtime Protocol v1")

/-- `persistTransition`.  Its updates name the status, and the generation of the lease, that the
    transaction has just read, so they find their row. -/
def persistTransition (db : ConversionDatabase) (t : Transition) (event : ConversionExecutionEvent) :
    Except RegistryError ConversionDatabase :=
  insertEvent (updateLease (updateAttempt (updateRun db t.run) t.attempt) t.lease) event

def storeTransition (db : ConversionDatabase) (previous : ConversionRun) (t : Transition)
    (eventId : Id) : Except RegistryError (ConversionRuntimeTransitionResult × ConversionDatabase) := do
  let event := t.event db previous eventId
  validateTransitionObjects t event
  let db ← persistTransition db t event
  pure ({ run := t.run, attempt := t.attempt, lease := t.lease, event, replayed := false }, db)

/-! ### Reports of a worker -/

/-- What the database has to agree on before a report may change anything. -/
def authorizeReport (report : RuntimeReport) (run : ConversionRun) (lease : ConversionLease)
    (attempt : ConversionAttempt) (now : Timestamp) : Except RegistryError Unit :=
  require (run.workspaceId = report.workspaceId ∧ lease.workspaceId = report.workspaceId ∧
      attempt.workspaceId = report.workspaceId ∧ attempt.conversionRunId = run.id ∧
      lease.conversionRunId = run.id ∧ attempt.conversionLeaseId = lease.id ∧
      lease.conversionAttemptId = attempt.id ∧ attempt.workerId = report.workerId ∧
      attempt.converter = lease.converter ∧ report.occurredAt ≤ now ∧
      authorizeRuntimeReport report lease run.status now = true)
    (.conflict "CONVERSION_REPORT_NOT_AUTHORIZED"
      "Runtime report does not match the active Worker, lease, attempt, token or run status")

/-- `validateOutput`; there is one media type. -/
def validateOutput (output : OutputEvidence) (occurredAt : Timestamp)
    (grant : StagingOutputUploadGrant) (run : ConversionRun) (lease : ConversionLease)
    (attempt : ConversionAttempt) : Except RegistryError Unit :=
  require (grant.workspaceId = run.workspaceId ∧ grant.conversionRunId = run.id ∧
      grant.conversionAttemptId = attempt.id ∧ grant.workerId = lease.workerId ∧
      output.targetPath = grant.normalizedTargetPath ∧ output.sizeBytes ≤ grant.maximumBytes ∧
      occurredAt < grant.expiresAt)
    (.conflict "CONVERSION_OUTPUT_GRANT_MISMATCH"
      "Output evidence does not match the active upload grant")

def workerActor (workerId : Id) : ConversionActor where
  type := .worker
  id := idText "wrk" workerId

def startedTransition (report : RuntimeReport) (run : ConversionRun) (attempt : ConversionAttempt)
    (lease : ConversionLease) : Transition where
  run :=
    { run with
      status := .running, startedAt := some report.occurredAt, updatedAt := report.occurredAt }
  attempt := { attempt with status := .started, startedAt := some report.occurredAt }
  lease := lease
  eventType := .started
  occurredAt := report.occurredAt
  actor := workerActor report.workerId
  message := none
  payload := .empty

def progressTransition (report : RuntimeReport) (percent : Nat) (message : Option String)
    (run : ConversionRun) (attempt : ConversionAttempt) (lease : ConversionLease) : Transition where
  run := { run with updatedAt := report.occurredAt }
  attempt := attempt
  lease := lease
  eventType := .progressReported
  occurredAt := report.occurredAt
  actor := workerActor report.workerId
  message := message
  payload := .progress percent

def outputReadyTransition (report : RuntimeReport) (run : ConversionRun)
    (attempt : ConversionAttempt) (lease : ConversionLease) : Transition where
  run :=
    { run with
      status := .verifying, verifyingAt := some report.occurredAt, updatedAt := report.occurredAt }
  attempt :=
    { attempt with
      status := .outputReported, outcome := some .outputReported
      endedAt := some report.occurredAt }
  lease := { lease with status := .released, releasedAt := some report.occurredAt }
  eventType := .verificationStarted
  occurredAt := report.occurredAt
  actor := workerActor report.workerId
  message := some "Output evidence accepted for control-plane verification"
  payload := .verification 0 0

def failedRun (run : ConversionRun) (failure : ConversionFailure) (occurredAt : Timestamp) :
    ConversionRun :=
  { run with
    status := .failed, failedAt := some occurredAt, failure := some failure, updatedAt := occurredAt }

def failedTransition (report : RuntimeReport) (failure : AttemptFailure) (run : ConversionRun)
    (attempt : ConversionAttempt) (lease : ConversionLease) : Transition :=
  let runFailure : ConversionFailure :=
    { kind := .workerError, code := failure.code, message := failure.message, retryable := false }
  { run := failedRun run runFailure report.occurredAt
    attempt :=
      { attempt with
        status := .failed, outcome := some .failed, endedAt := some report.occurredAt
        failure := some failure }
    lease := { lease with status := .released, releasedAt := some report.occurredAt }
    eventType := .failed
    occurredAt := report.occurredAt
    actor := workerActor report.workerId
    message := none
    payload := .failure runFailure }

/-- What an authorized report changes. -/
def workerTransition (db : ConversionDatabase) (report : RuntimeReport) (run : ConversionRun)
    (attempt : ConversionAttempt) (lease : ConversionLease) : Except RegistryError Transition :=
  match report.body with
  | .started converter => do
    require (attempt.status = .claimed ∧ converter = run.converter)
      (.conflict "CONVERSION_START_NOT_ALLOWED"
        "Only the claimed exact Converter attempt may start")
    require (canTransitionConversionRun (some run.status) .running = true)
      (.conflict "CONVERSION_TRANSITION_INVALID" "Run cannot start")
    pure (startedTransition report run attempt lease)
  | .progress percent message => do
    require (attempt.status = .started ∧ run.status = .running)
      (.conflict "CONVERSION_PROGRESS_NOT_ALLOWED"
        "Progress requires a RUNNING run and STARTED attempt")
    pure (progressTransition report percent message run attempt lease)
  | .outputReady output => do
    require (attempt.status = .started ∧
        canTransitionConversionRun (some run.status) .verifying = true)
      (.conflict "CONVERSION_OUTPUT_NOT_ALLOWED"
        "Output-ready requires a RUNNING run and STARTED attempt")
    let grant ← db.loadUploadGrant output.uploadGrantId
    validateOutput output report.occurredAt grant run lease attempt
    pure (outputReadyTransition report run attempt lease)
  | .failed failure => do
    require (attempt.status = .started ∧ run.status = .running)
      (.conflict "CONVERSION_FAILURE_NOT_ALLOWED"
        "Worker failure requires a RUNNING run and STARTED attempt")
    pure (failedTransition report failure run attempt lease)

/-- `INSERT INTO conversion_runtime_reports`: a primary key, and one report per workspace, worker and
    key. -/
def insertReport (db : ConversionDatabase) (row : ReportRow) :
    Except RegistryError ConversionDatabase := do
  require (∀ stored ∈ db.reports, stored.report.id ≠ row.report.id)
    (.uniqueConstraint "conversion_runtime_reports.id")
  require (∀ stored ∈ db.reports, stored.report.workspaceId = row.report.workspaceId →
      stored.report.workerId = row.report.workerId →
      stored.report.idempotencyKey ≠ row.report.idempotencyKey)
    (.uniqueConstraint ("conversion_runtime_reports.workspace_id, " ++
      "conversion_runtime_reports.worker_id, conversion_runtime_reports.idempotency_key"))
  pure { db with reports := db.reports ++ [row] }

/-- The message for a document that is no report of its kind. -/
def reportViolation : RuntimeReportBody → String
  | .started _ => "Started report violates Conversion Runtime Protocol v1"
  | .progress .. => "Progress report violates Conversion Runtime Protocol v1"
  | .outputReady _ => "Output-ready report violates Conversion Runtime Protocol v1"
  | .failed _ => "Failed report violates Conversion Runtime Protocol v1"

/-- The outcome of the credential check, and the clock readings and the event id of a report. -/
structure ReportValues where
  /-- The workspace of the worker whose credential was verified. -/
  worker : Except RegistryError Id
  now : Timestamp
  eventId : Id
  storedAt : Timestamp

def reportKeyed (report : RuntimeReport) (row : ReportRow) : Bool :=
  decide (row.report.workspaceId = report.workspaceId) &&
    decide (row.report.workerId = report.workerId) &&
    decide (row.report.idempotencyKey = report.idempotencyKey)

def workerReplay (db : ConversionDatabase) (report : RuntimeReport) (reportDigest : Digest) :
    Except RegistryError (Option ConversionRuntimeTransitionResult) :=
  match db.reports.find? (reportKeyed report) with
  | none => pure none
  | some previous => do
    require (previous.reportDigest = reportDigest)
      (.conflict "CONVERSION_REPORT_IDEMPOTENCY_CONFLICT"
        "Runtime report idempotency key was reused with a different report")
    some <$> db.resultForEvent previous.eventId true

/-- The transaction of a report that is no replay. -/
def acceptReport (report : RuntimeReport) (reportDigest : Digest) (values : ReportValues)
    (db : ConversionDatabase) :
    Except RegistryError (ConversionRuntimeTransitionResult × ConversionDatabase) := do
  let run ← db.loadRun report.conversionRunId
  let lease ← db.loadLease report.conversionLeaseId
  let attempt ← db.loadAttempt report.conversionAttemptId
  authorizeReport report run lease attempt values.now
  let transition ← workerTransition db report run attempt lease
  let (result, db) ← storeTransition db run transition values.eventId
  let db ← insertReport db
    { report, reportDigest, eventId := result.event.id, createdAt := values.storedAt }
  pure (result, db)

def applyWorkerReport (platform : ConversionPlatform) (report : RuntimeReport)
    (values : ReportValues) (db : ConversionDatabase) :
    Except RegistryError (ConversionRuntimeTransitionResult × ConversionDatabase) := do
  let workspaceId ← values.worker
  require (workspaceId = report.workspaceId)
    (.conflict "CONVERSION_REPORT_WORKSPACE_MISMATCH"
      "Worker credential belongs to another Workspace")
  let reportDigest := platform.hashReport report
  match ← workerReplay db report reportDigest with
  | some replay => pure (replay, db)
  | none => acceptReport report reportDigest values db

/-- `submitFailed` checks the failure once more. -/
def validateReportFailure : RuntimeReportBody → Except RegistryError Unit
  | .failed failure => validateFailure failure.code failure.message
  | _ => pure ()

/-- `submitStarted`, `submitProgress`, `submitOutputReady` and `submitFailed`, by the kind of the
    report. -/
def submitReport (platform : ConversionPlatform) (report : RuntimeReport) (values : ReportValues)
    (db : ConversionDatabase) :
    Except RegistryError (ConversionRuntimeTransitionResult × ConversionDatabase) := do
  require (isRuntimeReport report = true) (.validation (reportViolation report.body))
  validateReportFailure report.body
  applyWorkerReport platform report values db

/-! ### Transitions of the control plane -/

/-- `validateDescriptor`, against the last output the run reported. -/
def validateDescriptor (db : ConversionDatabase) (run : ConversionRun)
    (descriptor : StagingDocumentDescriptor) : Except RegistryError Unit := do
  let outputs := db.reports.filterMap fun row =>
    match row.report.body with
    | .outputReady output =>
      if row.report.conversionRunId = run.id then some (row, output) else none
    | _ => none
  let (row, output) ← orThrow (outputs.argmax fun entry => isoOrder entry.1.createdAt)
    (.conflict "CONVERSION_OUTPUT_EVIDENCE_MISSING"
      "Completion requires persisted output-ready evidence")
  require (isRuntimeReport row.report = true) (.validation "Persisted output-ready report is invalid")
  require (descriptor.workspaceId = run.workspaceId ∧ descriptor.sourceId = run.sourceId ∧
      descriptor.rawArtifactId = run.rawArtifactId ∧ descriptor.conversionRunId = run.id ∧
      descriptor.converter = run.converter ∧ descriptor.targetPath = output.targetPath ∧
      descriptor.contentHash = output.sha256 ∧ descriptor.sizeBytes = output.sizeBytes)
    (.conflict "CONVERSION_STAGING_DESCRIPTOR_MISMATCH"
      "Staging descriptor does not match the frozen run and output evidence")

def systemActor (id : String) : ConversionActor where
  type := .system
  id := id

def completedTransition (descriptor : StagingDocumentDescriptor) (actorId : String)
    (occurredAt : Timestamp) (run : ConversionRun) (attempt : ConversionAttempt)
    (lease : ConversionLease) : Transition where
  run :=
    { run with
      status := .completed, completedAt := some occurredAt, stagingDocument := some descriptor
      updatedAt := occurredAt }
  attempt := attempt
  lease := lease
  eventType := .completed
  occurredAt := occurredAt
  actor := systemActor actorId
  message := none
  payload := .completion descriptor.id descriptor.contentHash descriptor.sizeBytes

def verificationFailedTransition (code message actorId : String) (occurredAt : Timestamp)
    (run : ConversionRun) (attempt : ConversionAttempt) (lease : ConversionLease) : Transition :=
  let failure : ConversionFailure := { kind := .verificationFailed, code, message, retryable := false }
  { run := failedRun run failure occurredAt
    attempt
    lease
    eventType := .failed
    occurredAt
    actor := systemActor actorId
    message := none
    payload := .failure failure }

def leaseExpiredFailure : AttemptFailure where
  code := "LEASE_EXPIRED_DURING_CONVERSION"
  message := "Conversion lease expired after execution started"

def expiredTransition (actorId : String) (occurredAt : Timestamp) (run : ConversionRun)
    (attempt : ConversionAttempt) (lease : ConversionLease) : Transition :=
  let failure : ConversionFailure :=
    { kind := .timeout, code := leaseExpiredFailure.code, message := leaseExpiredFailure.message
      retryable := false }
  { run := failedRun run failure occurredAt
    attempt :=
      { attempt with
        status := .leaseLost, outcome := some .leaseLost, endedAt := some occurredAt
        failure := some leaseExpiredFailure, reconciliation := some leaseExpiredFailure.code }
    lease := { lease with status := .expired, expiredAt := some occurredAt }
    eventType := .failed
    occurredAt
    actor := systemActor actorId
    message := none
    payload := .failure failure }

/-- Which workspace, actor and key a request is made for. -/
structure VerifierKey where
  workspaceId : Id
  verifierId : String
  idempotencyKey : String
deriving DecidableEq

def VerifierRequest.key : VerifierRequest → VerifierKey
  | .complete workspaceId verifierId idempotencyKey _
  | .failVerification workspaceId verifierId idempotencyKey _ _ _
  | .reconcileExpired _ workspaceId verifierId idempotencyKey =>
    { workspaceId, verifierId, idempotencyKey }

/-- What a request of the control plane changes. -/
def verifierTransition (db : ConversionDatabase) (request : VerifierRequest) (occurredAt : Timestamp)
    (run : ConversionRun) (attempt : ConversionAttempt) (lease : ConversionLease) :
    Except RegistryError Transition :=
  match request with
  | .complete _ verifierId _ descriptor => do
    require (run.status = .verifying ∧ attempt.status = .outputReported)
      (.conflict "CONVERSION_COMPLETION_NOT_ALLOWED"
        "Completion requires VERIFYING run and OUTPUT_REPORTED attempt")
    validateDescriptor db run descriptor
    require (canTransitionConversionRun (some run.status) .completed = true)
      (.conflict "CONVERSION_TRANSITION_INVALID" "Run cannot complete")
    pure (completedTransition descriptor verifierId occurredAt run attempt lease)
  | .failVerification _ verifierId _ _ code message => do
    require (run.status = .verifying ∧ canTransitionConversionRun (some run.status) .failed = true)
      (.conflict "CONVERSION_VERIFICATION_FAILURE_NOT_ALLOWED"
        "Verification failure requires a VERIFYING run")
    pure (verificationFailedTransition code message verifierId occurredAt run attempt lease)
  | .reconcileExpired _ _ reconcilerId _ => do
    require (lease.status = .active ∧ attempt.status = .started ∧ run.status = .running)
      (.conflict "CONVERSION_LEASE_RECONCILIATION_NOT_ALLOWED"
        "Only an expired ACTIVE lease for a STARTED attempt may be reconciled")
    require (lease.expiresAt ≤ occurredAt)
      (.conflict "CONVERSION_LEASE_NOT_EXPIRED" "Lease has not expired")
    pure (expiredTransition reconcilerId occurredAt run attempt lease)

/-- The stored requests under the key of a request. -/
def verifierKeyed (key : VerifierKey) (row : VerifierTransitionRow) : Bool :=
  decide (row.workspaceId = key.workspaceId) && decide (row.verifierId = key.verifierId) &&
    decide (row.idempotencyKey = key.idempotencyKey)

def verifierReplay (db : ConversionDatabase) (key : VerifierKey) (requestDigest : Digest) :
    Except RegistryError (Option ConversionRuntimeTransitionResult) :=
  match db.verifierTransitions.find? (verifierKeyed key) with
  | none => pure none
  | some previous => do
    require (previous.requestDigest = requestDigest)
      (.conflict "CONVERSION_VERIFIER_IDEMPOTENCY_CONFLICT"
        "Verifier idempotency key was reused with a different request")
    some <$> db.resultForEvent previous.eventId true

/-- The transaction of a request that is no replay. -/
def acceptRequest (request : VerifierRequest) (requestDigest : Digest) (conversionRunId : Id)
    (occurredAt : Timestamp) (eventId : Id) (db : ConversionDatabase) :
    Except RegistryError (ConversionRuntimeTransitionResult × ConversionDatabase) := do
  let key := request.key
  let run ← db.loadRun conversionRunId
  require (run.workspaceId = key.workspaceId)
    (.conflict "CONVERSION_VERIFIER_WORKSPACE_MISMATCH" "ConversionRun belongs to another Workspace")
  let attempt ← db.loadLatestAttempt run.id
  let lease ← db.loadLease attempt.conversionLeaseId
  let transition ← verifierTransition db request occurredAt run attempt lease
  let (result, db) ← storeTransition db run transition eventId
  -- the primary key of the row was looked up by `verifierReplay`
  pure (result,
    { db with
      verifierTransitions := db.verifierTransitions ++
        [{ workspaceId := key.workspaceId, verifierId := key.verifierId
           idempotencyKey := key.idempotencyKey, requestDigest, conversionRunId := run.id
           eventId := result.event.id, createdAt := occurredAt }] })

def applyVerifierTransition (platform : ConversionPlatform) (request : VerifierRequest)
    (conversionRunId : Id) (occurredAt : Timestamp) (eventId : Id) (db : ConversionDatabase) :
    Except RegistryError (ConversionRuntimeTransitionResult × ConversionDatabase) := do
  let requestDigest := platform.hashVerifier request
  match ← verifierReplay db request.key requestDigest with
  | some replay => pure (replay, db)
  | none => acceptRequest request requestDigest conversionRunId occurredAt eventId db

structure CompleteConversionVerificationInput where
  workspaceId : Id
  verifierId : String
  idempotencyKey : String
  stagingDocument : StagingDocumentDescriptor

def completeVerification (platform : ConversionPlatform)
    (input : CompleteConversionVerificationInput) (occurredAt : Timestamp) (eventId : Id)
    (db : ConversionDatabase) :
    Except RegistryError (ConversionRuntimeTransitionResult × ConversionDatabase) := do
  require (isStagingDocumentDescriptor input.stagingDocument = true ∧
      input.stagingDocument.status = .ready)
    (.validation "Completion requires a READY StagingDocumentDescriptor")
  let verifierId ← validateActor input.verifierId "verifierId"
  let idempotencyKey ← transitionKeyOf input.idempotencyKey
  applyVerifierTransition platform
    (.complete input.workspaceId verifierId idempotencyKey input.stagingDocument)
    input.stagingDocument.conversionRunId occurredAt eventId db

structure FailConversionVerificationInput where
  workspaceId : Id
  verifierId : String
  idempotencyKey : String
  conversionRunId : Id
  code : String
  message : String

def failVerification (platform : ConversionPlatform) (input : FailConversionVerificationInput)
    (occurredAt : Timestamp) (eventId : Id) (db : ConversionDatabase) :
    Except RegistryError (ConversionRuntimeTransitionResult × ConversionDatabase) := do
  let verifierId ← validateActor input.verifierId "verifierId"
  let idempotencyKey ← transitionKeyOf input.idempotencyKey
  validateFailure input.code input.message
  applyVerifierTransition platform
    (.failVerification input.workspaceId verifierId idempotencyKey input.conversionRunId input.code
      input.message) input.conversionRunId occurredAt eventId db

structure ReconcileExpiredConversionLeaseInput where
  workspaceId : Id
  reconcilerId : String
  idempotencyKey : String

def reconcileExpiredStartedLease (platform : ConversionPlatform) (leaseId : Id)
    (input : ReconcileExpiredConversionLeaseInput) (occurredAt : Timestamp) (eventId : Id)
    (db : ConversionDatabase) :
    Except RegistryError (ConversionRuntimeTransitionResult × ConversionDatabase) := do
  let reconcilerId ← validateActor input.reconcilerId "reconcilerId"
  let idempotencyKey ← transitionKeyOf input.idempotencyKey
  let lease ← db.loadLease leaseId
  applyVerifierTransition platform
    (.reconcileExpired leaseId input.workspaceId reconcilerId idempotencyKey)
    lease.conversionRunId occurredAt eventId db

end MarkorbitKnowledge.Conversion
