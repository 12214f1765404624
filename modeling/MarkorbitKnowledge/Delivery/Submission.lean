import Mathlib.Data.List.Sort
import MarkorbitKnowledge.Contracts.Formats
import MarkorbitKnowledge.Lib.Fallible
import MarkorbitKnowledge.Lib.Tables

/-!
# Deliveries of ReadyPackages and their audit events

The repository behind the delivery of ReadyPackage V2 (`ready-package-v2-delivery-submission.ts` and
`ready-package-v2-delivery-audit.ts`).  A submission freezes the exact request; the audit events of a
submission are appended next to each change of it, in the same transaction.  Each of the four
recording calls, `markTransportAttempt`, `recordTransportUncertainty`, `recordTransportResult` and
`recordResult`, reads the stored submission, checks what it may record, and writes both.

Identifiers and digests are the numbers they write, as everywhere here, so that the checks of their
prefixes and alphabets have nothing left to refuse.  Hashing and JSON are parameters.
-/

namespace MarkorbitKnowledge.Delivery

open Contracts Fallible
open Tables (Keyed KeysUnique key)

/-! ### Errors -/

/-- What a call can throw: a registry error, the `TypeError` of a contract assertion, the
    `SyntaxError` of `JSON.parse`, or an error of the database. -/
inductive DeliveryError where
  | registry (code message : String)
  | invalidContract (contract : String)
  | syntaxError
  | database
  | transport (issueCode : String) (httpStatus : Nat)
deriving DecidableEq

/-- `new RegistryConflictError(code, message)`. -/
def DeliveryError.conflict (code message : String) : DeliveryError := registry code message

/-- `new RegistryValidationError(message)`. -/
def DeliveryError.validation (message : String) : DeliveryError :=
  registry "REGISTRY_VALIDATION_ERROR" message

/-! ### Contracts -/

def READY_PACKAGE_V2_DELIVERY_PROTOCOL_VERSION : String := "1.0"

def READY_PACKAGE_V2_DELIVERY_REQUEST_OBJECT_TYPE : String := "READY_PACKAGE_V2_DELIVERY_REQUEST"

def READY_PACKAGE_V2_DELIVERY_RESULT_OBJECT_TYPE : String := "READY_PACKAGE_V2_DELIVERY_RESULT"

def READY_PACKAGE_V2_DELIVERY_TARGET_SERVICE : String := "MARKORBIT_CORE"

/-- A timestamp as it is written: the instant `Date.parse` reads, and the text where it is not the one
    `toISOString` has for that instant.  So two are equal when their texts are. -/
structure TimestampText where
  instant : Timestamp
  spelling : Option String
deriving DecidableEq

/-- `Date.prototype.toISOString`. -/
def isoText (instant : Timestamp) : TimestampText := { instant, spelling := none }

inductive DeliveryStatus where
  | received | accepted | rejected
deriving DecidableEq

/-- The fields of a content export that the delivery reads, and the rest as text. -/
structure ContentExport where
  contractVersion : String
  objectType : String
  readyPackageId : Id
  knowledgeWorkspaceId : Id
  readyPackageDigest : Digest
  rest : String
deriving DecidableEq

structure DeliveryRequest where
  protocolVersion : String
  objectType : String
  deliveryId : Id
  readyPackageId : Id
  knowledgeWorkspaceId : Id
  /-- `target.service` -/
  targetService : String
  /-- `target.workspaceId` -/
  targetWorkspaceId : String
  readyPackageDigest : Digest
  contentExportSha256 : Digest
  contentExport : ContentExport
  submittedAt : TimestampText
deriving DecidableEq

structure DeliveryResult where
  protocolVersion : String
  objectType : String
  deliveryId : Id
  readyPackageId : Id
  status : DeliveryStatus
  requestSha256 : Digest
deriving DecidableEq

def isHexDigit (c : Char) : Bool :=
  c.isDigit || ('a' ≤ c && c ≤ 'f') || ('A' ≤ c && c ≤ 'F')

/-- `/^[0-9a-f]{8}-[0-9a-f]{4}-[0-9a-f]{4}-[0-9a-f]{4}-[0-9a-f]{12}$/iu`. -/
def isUuid (value : String) : Bool :=
  let parts := value.toList.splitOn '-'
  decide (parts.map List.length = [8, 4, 4, 4, 12]) && parts.all fun part => part.all isHexDigit

/-- `String.prototype.toLowerCase`, on the letters an identifier can have. -/
def toLowerCase (value : String) : String := String.ofList (value.toList.map Char.toLower)

def isReadyPackageV2DeliveryRequestV1 (value : DeliveryRequest) : Bool :=
  decide (value.protocolVersion = READY_PACKAGE_V2_DELIVERY_PROTOCOL_VERSION) &&
    decide (value.objectType = READY_PACKAGE_V2_DELIVERY_REQUEST_OBJECT_TYPE) &&
    decide (value.targetService = READY_PACKAGE_V2_DELIVERY_TARGET_SERVICE) &&
    isUuid value.targetWorkspaceId &&
    decide (value.contentExport.contractVersion = "2.0") &&
    decide (value.contentExport.objectType = "READY_PACKAGE_CONTENT_EXPORT") &&
    decide (value.contentExport.readyPackageId = value.readyPackageId) &&
    decide (value.contentExport.knowledgeWorkspaceId = value.knowledgeWorkspaceId) &&
    decide (value.contentExport.readyPackageDigest = value.readyPackageDigest)

def isReadyPackageV2DeliveryResultV1 (value : DeliveryResult) : Bool :=
  decide (value.protocolVersion = READY_PACKAGE_V2_DELIVERY_PROTOCOL_VERSION) &&
    decide (value.objectType = READY_PACKAGE_V2_DELIVERY_RESULT_OBJECT_TYPE)

/-- Hashing, and JSON as far as the repository reads its own texts back: `none` is a
    `SyntaxError`. -/
structure Platform where
  sha256 : String → Digest
  serializeContentExport : ContentExport → Except DeliveryError String
  parseContentExport : String → Option ContentExport
  serializeRequest : DeliveryRequest → String
  parseRequest : String → Option DeliveryRequest

/-! ### Rows -/

structure ResultEvidence extends DeliveryResult where
  recordedAt : TimestampText
deriving DecidableEq

inductive SubmissionState where
  | pending | resultRecorded
deriving DecidableEq

structure Submission where
  submissionId : Id
  workspaceId : Id
  readyPackageId : Id
  readyPackageDigest : Digest
  coreWorkspaceId : String
  idempotencyKey : String
  requestJson : String
  requestSha256 : Digest
  contentExportSha256 : Digest
  state : SubmissionState
  transportAttempts : Nat
  lastTransportAttemptedAt : Option TimestampText
  transportResult : Option ResultEvidence
  result : Option ResultEvidence
  createdAt : TimestampText
  updatedAt : TimestampText
deriving DecidableEq

inductive AuditEventType where
  | prepared | transportAttemptStarted | transportOutcomeUnknown | transportResultRecorded
  | finalized
deriving DecidableEq

structure AuditEvent where
  workspaceId : Id
  submissionId : Id
  readyPackageId : Id
  sequence : Nat
  type : AuditEventType
  requestSha256 : Digest
  recordedAt : TimestampText
  attemptNumber : Option Nat
  issueCode : Option String
  httpStatus : Option Nat
  resultStatus : Option DeliveryStatus
deriving DecidableEq

/-- The tables of the delivery, and the ids of the ReadyPackages that can be delivered, each with its
    workspace. -/
structure Database where
  readyPackages : List (Id × Id)
  submissions : List Submission
  auditEvents : List AuditEvent

instance : Keyed Submission (Id × Id) := ⟨fun s => (s.workspaceId, s.submissionId)⟩

@[simp] theorem key_submission (s : Submission) : key s = (s.workspaceId, s.submissionId) := rfl

/-! ### Audit events -/

/-- `/^[A-Z0-9_]{3,128}$/u`. -/
def isIssueCode (code : String) : Bool :=
  decide (3 ≤ code.toList.length) && decide (code.toList.length ≤ 128) &&
    code.toList.all fun c => ('A' ≤ c && c ≤ 'Z') || c.isDigit || c == '_'

/-- `assertOptionalShape`. -/
def optionalShape (event : AuditEvent) : Bool :=
  match event.type with
  | .prepared => event.attemptNumber.isNone && event.issueCode.isNone && event.httpStatus.isNone &&
      event.resultStatus.isNone
  | .transportAttemptStarted => event.attemptNumber.any (0 < ·) && event.issueCode.isNone &&
      event.httpStatus.isNone && event.resultStatus.isNone
  | .transportOutcomeUnknown => event.attemptNumber.any (0 < ·) && event.issueCode.any isIssueCode &&
      event.httpStatus.any (fun status => 400 ≤ status && status ≤ 599) && event.resultStatus.isNone
  | .transportResultRecorded | .finalized => event.attemptNumber.any (0 < ·) &&
      event.issueCode.isNone && event.httpStatus.isNone && event.resultStatus.isSome

/-- `assertReadyPackageV2DeliveryAuditEvent`. -/
def isAuditEvent (event : AuditEvent) : Bool :=
  decide (0 < event.sequence) && optionalShape event

/-- The rows of the audit table of one submission, in insertion order. -/
def eventsOf (db : Database) (workspaceId submissionId : Id) : List AuditEvent :=
  db.auditEvents.filter fun event =>
    decide (event.workspaceId = workspaceId) && decide (event.submissionId = submissionId)

/-- `COALESCE(MAX(sequence), 0) + 1`. -/
def nextSequence (events : List AuditEvent) : Nat :=
  (events.map (·.sequence)).foldl max 0 + 1

/-- An event as the repository builds it, with the sequence number still to come. -/
def auditEvent (s : Submission) (type : AuditEventType) (recordedAt : TimestampText)
    (attemptNumber : Option Nat) : AuditEvent where
  workspaceId := s.workspaceId
  submissionId := s.submissionId
  readyPackageId := s.readyPackageId
  sequence := 0
  type
  requestSha256 := s.requestSha256
  recordedAt
  attemptNumber
  issueCode := none
  httpStatus := none
  resultStatus := none

/-- `INSERT INTO ready_package_v2_delivery_audit_events`: a primary key, and one event of each type
    and attempt. -/
def appendAuditEvent (db : Database) (input : AuditEvent) : Except DeliveryError Database := do
  let stored := eventsOf db input.workspaceId input.submissionId
  let event := { input with sequence := nextSequence stored }
  require (isAuditEvent event = true)
    (.conflict "READY_PACKAGE_V2_DELIVERY_AUDIT_EVENT_INVALID" "Persisted audit event is invalid")
  require (∀ other ∈ stored, other.sequence ≠ event.sequence) .database
  require (∀ other ∈ stored, event.attemptNumber.isSome = true → other.type = event.type →
    other.attemptNumber ≠ event.attemptNumber) .database
  pure { db with auditEvents := db.auditEvents ++ [event] }

def MAX_LIMIT : Nat := 200

/-- The last `limit` events of a submission, by sequence number. -/
def listAuditEvents (db : Database) (workspaceId submissionId : Id) (limit : Nat) :
    List AuditEvent :=
  let events := (eventsOf db workspaceId submissionId).insertionSort fun left right =>
    left.sequence ≤ right.sequence
  events.drop (events.length - min limit MAX_LIMIT)

/-! ### Submissions -/

/-- `value?.trim()`, or a validation error. -/
def required (value field : String) : Except DeliveryError String := do
  require (trim value ≠ "") (.validation (field ++ " is required"))
  pure (trim value)

def sameResult (left : Option ResultEvidence) (right : DeliveryResult) : Bool :=
  left.any fun evidence => decide (evidence.toDeliveryResult = right)

def validateResultEvidence (value : Option ResultEvidence) : Except DeliveryError Unit := do
  let evidence ← orThrow value
    (.conflict "READY_PACKAGE_V2_DELIVERY_RESULT_EVIDENCE_INVALID"
      "Persisted ReadyPackage V2 delivery result evidence is invalid")
  require (isReadyPackageV2DeliveryResultV1 evidence.toDeliveryResult = true)
    (.invalidContract "ReadyPackageV2DeliveryResultV1")

/-- The frozen request of a submission is the one its text holds. -/
def requestMatches (request : DeliveryRequest) (s : Submission) : Bool :=
  decide (request.deliveryId = s.submissionId) &&
    decide (request.readyPackageId = s.readyPackageId) &&
    decide (request.knowledgeWorkspaceId = s.workspaceId) &&
    decide (toLowerCase request.targetWorkspaceId = toLowerCase s.coreWorkspaceId) &&
    decide (request.readyPackageDigest = s.readyPackageDigest) &&
    decide (request.contentExportSha256 = s.contentExportSha256) &&
    decide (request.submittedAt = s.createdAt)

def parseSubmission (platform : Platform) (s : Submission) : Except DeliveryError Submission := do
  require (isUuid s.coreWorkspaceId = true ∧
      s.idempotencyKey = "ready-package-v2-delivery:" ++ idText "rvd" s.submissionId ∧
      trim s.requestJson ≠ "" ∧ platform.sha256 s.requestJson = s.requestSha256)
    (.conflict "READY_PACKAGE_V2_DELIVERY_PERSISTED_STATE_INVALID"
      "Persisted ReadyPackage V2 delivery submission is invalid")
  let request ← orThrow (platform.parseRequest s.requestJson) .syntaxError
  require (isReadyPackageV2DeliveryRequestV1 request = true)
    (.invalidContract "ReadyPackageV2DeliveryRequestV1")
  require (requestMatches request s = true)
    (.conflict "READY_PACKAGE_V2_DELIVERY_FROZEN_REQUEST_MISMATCH"
      "Persisted ReadyPackage V2 delivery request does not match submission metadata")
  match s.transportResult with
  | none => pure ()
  | some evidence => do
    validateResultEvidence s.transportResult
    require (evidence.deliveryId = s.submissionId ∧ evidence.readyPackageId = s.readyPackageId ∧
        evidence.requestSha256 = s.requestSha256)
      (.conflict "READY_PACKAGE_V2_DELIVERY_TRANSPORT_RESULT_MISMATCH"
        "Persisted transport result does not match the frozen request")
  match s.state with
  | .resultRecorded => do
    validateResultEvidence s.result
    require (s.result.any (fun result => sameResult s.transportResult result.toDeliveryResult) = true)
      (.conflict "READY_PACKAGE_V2_DELIVERY_FINAL_RESULT_MISMATCH"
        "Persisted final result does not match the durable transport result")
  | .pending =>
    require (s.result = none)
      (.conflict "READY_PACKAGE_V2_DELIVERY_PENDING_RESULT_INVALID"
        "Pending ReadyPackage V2 delivery cannot contain a final result")
  pure s

def getByReadyPackage (platform : Platform) (db : Database) (workspaceId readyPackageId : Id) :
    Except DeliveryError (Option Submission) :=
  (db.submissions.find? fun s => decide (s.workspaceId = workspaceId) &&
    decide (s.readyPackageId = readyPackageId)).mapM (parseSubmission platform)

def requireSubmission (platform : Platform) (db : Database) (workspaceId submissionId : Id) :
    Except DeliveryError Submission := do
  let row ← orThrow (Tables.find? db.submissions (workspaceId, submissionId))
    (.registry "READY_PACKAGE_V2_DELIVERY_NOT_FOUND"
      ("ReadyPackage V2 delivery " ++ idText "rvd" submissionId ++ " was not found"))
  parseSubmission platform row

/-- `persistInsideTransaction`. -/
def persistInsideTransaction (platform : Platform) (db : Database) (s : Submission) :
    Except DeliveryError Database := do
  let _ ← parseSubmission platform s
  pure { db with submissions := Tables.update db.submissions s }

/-! ### Preparing -/

/-- The ReadyPackage a delivery is prepared for. -/
structure ReadyPackage where
  id : Id
  workspaceId : Id
  verified : Bool
  contractVersion : String
  /-- `evidence.digest` -/
  digest : Digest

structure PrepareInput where
  workspaceId : Id
  readyPackage : ReadyPackage
  coreWorkspaceId : String
  contentExport : ContentExport

def coreWorkspaceId (value : String) : Except DeliveryError String := do
  let normalized ← required value "coreWorkspaceId"
  require (isUuid (toLowerCase normalized) = true)
    (.validation "coreWorkspaceId must be a canonical UUID")
  pure (toLowerCase normalized)

/-- `INSERT INTO ready_package_v2_delivery_submissions`. -/
def insertSubmission (db : Database) (s : Submission) : Except DeliveryError Database := do
  require (∀ other ∈ db.submissions, (other.workspaceId, other.submissionId) ≠
    (s.workspaceId, s.submissionId)) .database
  require (∀ other ∈ db.submissions, (other.workspaceId, other.readyPackageId) ≠
    (s.workspaceId, s.readyPackageId)) .database
  pure { db with submissions := db.submissions ++ [s] }

/-- The submission `prepare` freezes. -/
def preparedSubmission (platform : Platform) (workspaceId : Id) (targetCoreWorkspaceId : String)
    (readyPackage : ReadyPackage) (contentExportSha256 : Digest) (requestJson : String) (id : Id)
    (createdAt : TimestampText) : Submission where
  submissionId := id
  workspaceId
  readyPackageId := readyPackage.id
  readyPackageDigest := readyPackage.digest
  coreWorkspaceId := targetCoreWorkspaceId
  idempotencyKey := "ready-package-v2-delivery:" ++ idText "rvd" id
  requestJson
  requestSha256 := platform.sha256 requestJson
  contentExportSha256
  state := .pending
  transportAttempts := 0
  lastTransportAttemptedAt := none
  transportResult := none
  result := none
  createdAt
  updatedAt := createdAt

structure Recorded where
  submission : Submission
  replayed : Bool

def prepare (platform : Platform) (input : PrepareInput) (now : Timestamp) (id : Id)
    (db : Database) : Except DeliveryError (Recorded × Database) := do
  let workspaceId := input.workspaceId
  let targetCoreWorkspaceId ← coreWorkspaceId input.coreWorkspaceId
  let readyPackage := input.readyPackage
  require (readyPackage.workspaceId = workspaceId ∧ readyPackage.verified = true ∧
      readyPackage.contractVersion = "2.0")
    (.conflict "READY_PACKAGE_V2_DELIVERY_PACKAGE_INVALID"
      "Delivery preparation requires a VERIFIED ReadyPackage V2 in the same Workspace")
  require (input.contentExport.readyPackageId = readyPackage.id ∧
      input.contentExport.knowledgeWorkspaceId = workspaceId ∧
      input.contentExport.readyPackageDigest = readyPackage.digest)
    (.conflict "READY_PACKAGE_V2_DELIVERY_EXPORT_MISMATCH"
      "Content Export V2 does not match the ReadyPackage V2 being prepared")
  let existing ← getByReadyPackage platform db workspaceId readyPackage.id
  let contentExportJson ← platform.serializeContentExport input.contentExport
  let contentExportSha256 := platform.sha256 contentExportJson
  match existing with
  | some existing => do
    require (existing.readyPackageDigest = readyPackage.digest ∧
        existing.coreWorkspaceId = targetCoreWorkspaceId ∧
        existing.contentExportSha256 = contentExportSha256)
      (.conflict "READY_PACKAGE_V2_DELIVERY_ALREADY_FROZEN"
        "ReadyPackage V2 delivery is already frozen with different immutable evidence")
    pure ({ submission := existing, replayed := true }, db)
  | none => do
    require ((workspaceId, readyPackage.id) ∈ db.readyPackages)
      (.registry "READY_PACKAGE_V2_NOT_FOUND"
        ("ReadyPackage V2 " ++ idText "rdp" readyPackage.id ++ " was not found"))
    let canonicalExport ← orThrow (platform.parseContentExport contentExportJson) .syntaxError
    let request : DeliveryRequest :=
      { protocolVersion := READY_PACKAGE_V2_DELIVERY_PROTOCOL_VERSION
        objectType := READY_PACKAGE_V2_DELIVERY_REQUEST_OBJECT_TYPE
        deliveryId := id
        readyPackageId := readyPackage.id
        knowledgeWorkspaceId := workspaceId
        targetService := READY_PACKAGE_V2_DELIVERY_TARGET_SERVICE
        targetWorkspaceId := targetCoreWorkspaceId
        readyPackageDigest := readyPackage.digest
        contentExportSha256
        contentExport := canonicalExport
        submittedAt := isoText now }
    require (isReadyPackageV2DeliveryRequestV1 request = true)
      (.invalidContract "ReadyPackageV2DeliveryRequestV1")
    let s := preparedSubmission platform workspaceId targetCoreWorkspaceId readyPackage
      contentExportSha256 (platform.serializeRequest request) id (isoText now)
    let db ← insertSubmission db s
    let db ← appendAuditEvent db (auditEvent s .prepared (isoText now) none)
    pure ({ submission := s, replayed := false }, db)

/-! ### Recording -/

def markTransportAttempt (platform : Platform) (workspaceId submissionId : Id) (now : Timestamp)
    (db : Database) : Except DeliveryError (Submission × Database) := do
  let s ← requireSubmission platform db workspaceId submissionId
  if s.state = .resultRecorded ∨ s.transportResult.isSome = true then pure (s, db)
  else do
    let updated : Submission :=
      { s with
        transportAttempts := s.transportAttempts + 1
        lastTransportAttemptedAt := some (isoText now)
        updatedAt := isoText now }
    let db ← persistInsideTransaction platform db updated
    let db ← appendAuditEvent db
      (auditEvent updated .transportAttemptStarted (isoText now) (some updated.transportAttempts))
    pure (updated, db)

def recordTransportUncertainty (platform : Platform) (workspaceId submissionId : Id)
    (issueCode : String) (httpStatus : Nat) (now : Timestamp) (db : Database) :
    Except DeliveryError (Unit × Database) := do
  let s ← requireSubmission platform db workspaceId submissionId
  require (s.state = .pending ∧ s.transportResult = none)
    (.conflict "READY_PACKAGE_V2_DELIVERY_AUDIT_AFTER_RESULT_FORBIDDEN"
      "Unknown transport outcome cannot be recorded after a durable result")
  require (0 < s.transportAttempts)
    (.conflict "READY_PACKAGE_V2_DELIVERY_AUDIT_ATTEMPT_REQUIRED"
      "Unknown transport outcome requires a durable transport attempt")
  match (listAuditEvents db s.workspaceId s.submissionId 200).find? fun event =>
      decide (event.type = .transportOutcomeUnknown) &&
        decide (event.attemptNumber = some s.transportAttempts) with
  | some prior => do
    require (prior.issueCode = some issueCode ∧ prior.httpStatus = some httpStatus)
      (.conflict "READY_PACKAGE_V2_DELIVERY_AUDIT_UNCERTAINTY_CONFLICT"
        "A different unknown-outcome event already exists for this transport attempt")
    pure ((), db)
  | none => do
    let db ← appendAuditEvent db
      { auditEvent s .transportOutcomeUnknown (isoText now) (some s.transportAttempts) with
        issueCode := some issueCode
        httpStatus := some httpStatus }
    pure ((), db)

def assertResultMatchesSubmission (s : Submission) (result : DeliveryResult) :
    Except DeliveryError Unit :=
  require (result.deliveryId = s.submissionId ∧ result.readyPackageId = s.readyPackageId ∧
      result.requestSha256 = s.requestSha256)
    (.conflict "READY_PACKAGE_V2_DELIVERY_RESULT_MISMATCH"
      "Delivery result does not match the frozen request")

def recordTransportResult (platform : Platform) (workspaceId submissionId : Id)
    (result : DeliveryResult) (now : Timestamp) (db : Database) :
    Except DeliveryError (Submission × Database) := do
  require (isReadyPackageV2DeliveryResultV1 result = true)
    (.invalidContract "ReadyPackageV2DeliveryResultV1")
  let s ← requireSubmission platform db workspaceId submissionId
  assertResultMatchesSubmission s result
  if s.transportResult.isSome = true then do
    require (sameResult s.transportResult result = true)
      (.conflict "READY_PACKAGE_V2_DELIVERY_TRANSPORT_RESULT_CONFLICT"
        "A different transport result is already durable for this delivery")
    pure (s, db)
  else do
    require (0 < s.transportAttempts)
      (.conflict "READY_PACKAGE_V2_DELIVERY_TRANSPORT_ATTEMPT_REQUIRED"
        "A durable transport result requires a prior durable transport attempt")
    let updated : Submission :=
      { s with
        transportResult := some { result with recordedAt := isoText now }
        updatedAt := isoText now }
    let db ← persistInsideTransaction platform db updated
    let db ← appendAuditEvent db
      { auditEvent updated .transportResultRecorded (isoText now) (some updated.transportAttempts) with
        resultStatus := some result.status }
    pure (updated, db)

def recordResult (platform : Platform) (workspaceId submissionId : Id) (result : DeliveryResult)
    (now : Timestamp) (db : Database) : Except DeliveryError (Submission × Database) := do
  require (isReadyPackageV2DeliveryResultV1 result = true)
    (.invalidContract "ReadyPackageV2DeliveryResultV1")
  let s ← requireSubmission platform db workspaceId submissionId
  assertResultMatchesSubmission s result
  if s.state = .resultRecorded then do
    require (sameResult s.result result = true)
      (.conflict "READY_PACKAGE_V2_DELIVERY_RESULT_CONFLICT"
        "A different final result is already durable for this delivery")
    pure (s, db)
  else do
    require (sameResult s.transportResult result = true)
      (.conflict "READY_PACKAGE_V2_DELIVERY_TRANSPORT_RESULT_REQUIRED"
        "Finalization requires the exact durable transport result")
    require (0 < s.transportAttempts)
      (.conflict "READY_PACKAGE_V2_DELIVERY_TRANSPORT_ATTEMPT_REQUIRED"
        "Finalization requires a prior durable transport attempt")
    let updated : Submission :=
      { s with
        state := .resultRecorded
        result := some { result with recordedAt := isoText now }
        updatedAt := isoText now }
    let db ← persistInsideTransaction platform db updated
    let db ← appendAuditEvent db
      { auditEvent updated .finalized (isoText now) (some updated.transportAttempts) with
        resultStatus := some result.status }
    pure (updated, db)

end MarkorbitKnowledge.Delivery
