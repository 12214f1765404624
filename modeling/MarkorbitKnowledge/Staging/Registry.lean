import MarkorbitKnowledge.Conversion.Database
import MarkorbitKnowledge.Staging.Evaluation

/-!
# The staging content registry

`ingestGenerated` of `staging-content-registry.ts`.  The registry keeps a row for every content and
for every document in the database, and the content itself in a file named by its digest.  A call
runs one transaction; the file is written inside it and is not rolled back with it, so the failure
path takes it away again where no row needs it.
-/

namespace MarkorbitKnowledge.Staging

open Contracts Fallible
open Execution (RegistryError)
open Conversion

/-! ### Rows -/

/-- A row of `staging_content_objects`; its storage reference is a function of the digest. -/
structure StagingContentObject where
  sha256 : Digest
  sizeBytes : Nat
  createdAt : Timestamp
deriving DecidableEq

structure StagingDocumentRecord where
  descriptor : StagingDocumentDescriptor
  createdAt : Timestamp
  updatedAt : Timestamp
deriving DecidableEq

/-- A row of `staging_content_ingest_idempotency`. -/
structure IngestRow where
  workspaceId : Id
  workerId : Id
  idempotencyKey : String
  requestDigest : Digest
  stagingDocumentId : Id
  createdAt : Timestamp
deriving DecidableEq

structure StagingVerificationEvidence where
  id : Id
  workspaceId : Id
  stagingDocumentId : Id
  conversionRunId : Id
  contentSha256 : Digest
  outcome : StagingValidationOutcome
  checks : List StagingValidationCheck
  warnings : List Text
  frontmatterSummary : FrontmatterSummary
  createdAt : Timestamp
deriving DecidableEq

/-- A row of `staging_verification_idempotency`; the verifier is always the built-in one. -/
structure VerificationRow where
  workspaceId : Id
  stagingDocumentId : Id
  idempotencyKey : String
  requestDigest : Digest
  verificationId : Id
  createdAt : Timestamp
deriving DecidableEq

instance : Tables.Keyed StagingContentObject Digest := ⟨StagingContentObject.sha256⟩
instance : Tables.Keyed StagingDocumentRecord Id := ⟨fun record => record.descriptor.id⟩
instance : Tables.Keyed StagingVerificationEvidence Id := ⟨StagingVerificationEvidence.id⟩

@[simp] theorem key_object (object : StagingContentObject) : Tables.key object = object.sha256 := rfl
@[simp] theorem key_document (record : StagingDocumentRecord) :
    Tables.key record = record.descriptor.id := rfl
@[simp] theorem key_evidence (evidence : StagingVerificationEvidence) :
    Tables.key evidence = evidence.id := rfl

structure StagingDatabase where
  conversion : ConversionDatabase
  objects : List StagingContentObject
  documents : List StagingDocumentRecord
  ingests : List IngestRow
  verifications : List StagingVerificationEvidence
  verificationRequests : List VerificationRow

/-- The content files below the storage root, by the digest in their name. -/
abbrev Files := Digest → Option ByteArray

def Files.write (files : Files) (digest : Digest) (content : ByteArray) : Files :=
  fun d => if d = digest then some content else files d

def Files.remove (files : Files) (digest : Digest) : Files :=
  fun d => if d = digest then none else files d

structure StagingState where
  db : StagingDatabase
  files : Files

/-! ### Requests -/

structure IngestGeneratedStagingContentInput where
  workspaceId : Id
  workerId : Id
  conversionRunId : Id
  conversionAttemptId : Id
  uploadGrantId : Id
  idempotencyKey : String
  title : String
  content : ByteArray

/-- What the digest of an ingest request is taken of. -/
structure IngestRequest where
  workspaceId : Id
  workerId : Id
  conversionRunId : Id
  conversionAttemptId : Id
  uploadGrantId : Id
  idempotencyKey : String
  title : String
  contentHash : Digest
  sizeBytes : Nat
deriving DecidableEq

/-- What the digest of a verification request is taken of. -/
structure VerificationRequest where
  workspaceId : Id
  stagingDocumentId : Id
  verifierId : String
  verifierVersion : String
  idempotencyKey : String
  contentSha256 : Digest
  sizeBytes : Nat
deriving DecidableEq

structure StagingServices extends StagingPlatform where
  hashIngest : IngestRequest → Digest
  hashVerification : VerificationRequest → Digest

structure StagingContentIngestResult where
  record : StagingDocumentRecord
  replayed : Bool
  contentCreated : Bool
deriving DecidableEq

def MAX_CONTENT_BYTES : Nat := 5000000

/-- What an ingest knows before its transaction. -/
structure IngestTicket where
  title : String
  contentHash : Digest
  digest : Digest
  now : Timestamp

def ingestTicket (services : StagingServices) (input : IngestGeneratedStagingContentInput)
    (now : Timestamp) : Except RegistryError IngestTicket := do
  let title := trim input.title
  require (isIdempotencyKey input.idempotencyKey = true)
    (.validation "Invalid staging ingest idempotency key")
  require (0 < jsLength title ∧ jsLength title ≤ 300)
    (.validation "title must contain 1-300 characters")
  require (input.content.size ≠ 0)
    (.validation "Generated staging content must be non-empty bytes")
  require (input.content.size ≤ MAX_CONTENT_BYTES)
    (.validation "Generated staging content exceeds the maximum size")
  let contentHash := services.sha256 input.content
  let digest := services.hashIngest
    { workspaceId := input.workspaceId, workerId := input.workerId
      conversionRunId := input.conversionRunId, conversionAttemptId := input.conversionAttemptId
      uploadGrantId := input.uploadGrantId, idempotencyKey := input.idempotencyKey
      title := input.title, contentHash, sizeBytes := input.content.size }
  pure { title, contentHash, digest, now }

/-! ### Reading -/

def documentNotFound (id : Id) : RegistryError :=
  .registry "STAGING_DOCUMENT_NOT_FOUND"
    ("Staging document " ++ idText "std" id ++ " was not found")

namespace StagingDatabase

variable (db : StagingDatabase)

/-- The row of `getDocument`. -/
def document? (id workspaceId : Id) : Option StagingDocumentRecord :=
  (Tables.find? db.documents id).filter (·.descriptor.workspaceId = workspaceId)

def requireDocument (id workspaceId : Id) : Except RegistryError StagingDocumentRecord :=
  load (db.document? id workspaceId) (fun record => isStagingDocumentDescriptor record.descriptor)
    (documentNotFound id) (.validation "Persisted StagingDocumentDescriptor is invalid")

/-- `getByConversionRun`. -/
def getByConversionRun (conversionRunId workspaceId : Id) :
    Except RegistryError (Option StagingDocumentRecord) :=
  match db.documents.find? fun record => record.descriptor.conversionRunId = conversionRunId ∧
      record.descriptor.workspaceId = workspaceId with
  | none => pure none
  | some record => do
    require (isStagingDocumentDescriptor record.descriptor = true)
      (.validation "Persisted StagingDocumentDescriptor is invalid")
    pure (some record)

def loadRun (id : Id) : Except RegistryError ConversionRun :=
  load (db.conversion.run? id) isConversionRun
    (.registry "CONVERSION_RUN_NOT_FOUND" ("ConversionRun " ++ idText "cvr" id ++ " was not found"))
    (.validation "Persisted ConversionRun is invalid")

def loadAttempt (id : Id) : Except RegistryError ConversionAttempt :=
  load (Tables.find? db.conversion.attempts id) isConversionAttempt
    (.registry "CONVERSION_ATTEMPT_NOT_FOUND"
      ("ConversionAttempt " ++ idText "cva" id ++ " was not found"))
    (.validation "Persisted ConversionAttempt is invalid")

def loadGrant (id : Id) : Except RegistryError StagingOutputUploadGrant :=
  load (Tables.find? db.conversion.uploadGrants id) isStagingOutputUploadGrant
    (.registry "STAGING_UPLOAD_GRANT_NOT_FOUND"
      ("Upload grant " ++ idText "sug" id ++ " was not found"))
    (.validation "Persisted StagingOutputUploadGrant is invalid")

/-- The output of a report that is a valid output-ready report. -/
def outputReady? (row : ReportRow) : Option (RuntimeReport × OutputEvidence) :=
  match row.report.body with
  | .outputReady output =>
    if isRuntimeReport row.report = true then some (row.report, output) else none
  | _ => none

/-- `loadOutputReport`: the newest output-ready report of an attempt. -/
def loadOutputReport (runId attemptId : Id) :
    Except RegistryError (RuntimeReport × OutputEvidence) :=
  let rows := db.conversion.reports.filter fun row => row.report.conversionRunId = runId ∧
    row.report.conversionAttemptId = attemptId
  orThrow ((rows.mergeSort fun r q => decide (q.createdAt ≤ r.createdAt)).findSome? outputReady?)
    (.conflict "STAGING_OUTPUT_READY_REQUIRED"
      "Staging ingest requires persisted output-ready evidence")

end StagingDatabase

def assertBinding (input : IngestGeneratedStagingContentInput) (run : ConversionRun)
    (attempt : ConversionAttempt) (grant : StagingOutputUploadGrant) (report : RuntimeReport)
    (output : OutputEvidence) (contentHash : Digest) : Except RegistryError Unit := do
  require (run.workspaceId = input.workspaceId ∧ attempt.workspaceId = input.workspaceId ∧
      grant.workspaceId = input.workspaceId ∧ run.id = input.conversionRunId ∧
      attempt.conversionRunId = run.id ∧ grant.conversionRunId = run.id ∧
      attempt.id = input.conversionAttemptId ∧ grant.conversionAttemptId = attempt.id ∧
      attempt.workerId = input.workerId ∧ grant.workerId = input.workerId)
    (.conflict "STAGING_SCOPE_MISMATCH" "Staging ingest scope does not match")
  require (run.status = .verifying ∧ attempt.status = .outputReported)
    (.conflict "STAGING_OUTPUT_NOT_READY"
      "ConversionRun and Attempt must have output-ready evidence")
  require (output.uploadGrantId = grant.id ∧ output.targetPath = grant.normalizedTargetPath ∧
      output.sha256 = contentHash ∧ output.sizeBytes = input.content.size ∧
      input.content.size ≤ grant.maximumBytes ∧ report.occurredAt ≤ grant.expiresAt)
    (.conflict "STAGING_OUTPUT_EVIDENCE_MISMATCH"
      "Content does not match output-ready evidence and upload grant")

/-! ### The transaction -/

/-- What an ingest finds in the database: the document of an earlier call with its key, or the run
    and the grant of a new document. -/
inductive IngestFound where
  | replay (record : StagingDocumentRecord)
  | fresh (run : ConversionRun) (grant : StagingOutputUploadGrant)

def ingestReads (db : StagingDatabase) (input : IngestGeneratedStagingContentInput)
    (ticket : IngestTicket) : Except RegistryError IngestFound := do
  match db.ingests.find? fun row => row.workspaceId = input.workspaceId ∧
      row.workerId = input.workerId ∧ row.idempotencyKey = input.idempotencyKey with
  | some replay =>
    require (replay.requestDigest = ticket.digest)
      (.conflict "STAGING_INGEST_IDEMPOTENCY_CONFLICT"
        "Staging ingest idempotency key was reused with different content or metadata")
    let record ← db.requireDocument replay.stagingDocumentId input.workspaceId
    pure (.replay record)
  | none =>
    let run ← db.loadRun input.conversionRunId
    let attempt ← db.loadAttempt input.conversionAttemptId
    let grant ← db.loadGrant input.uploadGrantId
    let (report, output) ← db.loadOutputReport input.conversionRunId input.conversionAttemptId
    assertBinding input run attempt grant report output ticket.contentHash
    let existingRun ← db.getByConversionRun input.conversionRunId input.workspaceId
    require (existingRun = none)
      (.conflict "STAGING_RUN_ALREADY_REGISTERED" "ConversionRun already has a Staging document")
    let pathConflict := db.documents.find? fun record =>
      record.descriptor.workspaceId = input.workspaceId ∧
        record.descriptor.targetPath = grant.normalizedTargetPath
    require (pathConflict.all (·.descriptor.contentHash = ticket.contentHash) = true)
      (.conflict "STAGING_TARGET_PATH_CONFLICT"
        "Target path is already bound to different immutable content")
    pure (.fresh run grant)

/-- `verifyStoredBytes`. -/
def verifyStoredBytes (services : StagingServices) (content : ByteArray) (expectedHash : Digest)
    (expectedSize : Nat) : Except RegistryError Unit :=
  require (content.size = expectedSize ∧ services.sha256 content = expectedHash)
    (.conflict "STAGING_CAS_INTEGRITY_MISMATCH"
      "Staging CAS integrity mismatch: stored bytes do not match immutable evidence")

/-- The content file is checked where it exists and written where it does not; the result says
    whether it was written. -/
def storeContent (services : StagingServices) (files : Files) (contentHash : Digest)
    (content : ByteArray) : Except RegistryError (Files × Bool) :=
  match files contentHash with
  | some stored => do
    verifyStoredBytes services stored contentHash content.size
    pure (files, false)
  | none => pure (files.write contentHash content, true)

def newDescriptor (input : IngestGeneratedStagingContentInput) (ticket : IngestTicket)
    (run : ConversionRun) (grant : StagingOutputUploadGrant) (documentId : Id) :
    StagingDocumentDescriptor where
  id := documentId
  workspaceId := run.workspaceId
  sourceId := run.sourceId
  rawArtifactId := run.rawArtifactId
  conversionRunId := run.id
  title := ticket.title
  targetPath := grant.normalizedTargetPath
  contentHash := ticket.contentHash
  sizeBytes := input.content.size
  frontmatterSummary := { fieldCount := 0, fields := [] }
  converter := run.converter
  generatedAt := ticket.now
  validation := { outcome := .pass, checks := [], warnings := [] }
  status := .generated

/-- `INSERT OR IGNORE INTO staging_content_objects`. -/
def insertObject (objects : List StagingContentObject) (object : StagingContentObject) :
    List StagingContentObject :=
  if (Tables.find? objects object.sha256).isSome then objects else objects ++ [object]

def ingestRows (db : StagingDatabase) (input : IngestGeneratedStagingContentInput)
    (ticket : IngestTicket) (run : ConversionRun) (grant : StagingOutputUploadGrant)
    (documentId : Id) : Except RegistryError (StagingDocumentRecord × StagingDatabase) := do
  let descriptor := newDescriptor input ticket run grant documentId
  require (isStagingDocumentDescriptor descriptor = true)
    (.validation "Generated StagingDocumentDescriptor is invalid")
  require (Tables.find? db.documents documentId = none)
    (.uniqueConstraint "staging_documents.id")
  require (∀ record ∈ db.documents, record.descriptor.conversionRunId ≠ run.id)
    (.uniqueConstraint "staging_documents.conversion_run_id")
  require (∀ record ∈ db.documents, ¬(record.descriptor.workspaceId = run.workspaceId ∧
      record.descriptor.targetPath = grant.normalizedTargetPath))
    (.uniqueConstraint "staging_documents.workspace_id, staging_documents.target_path")
  let record : StagingDocumentRecord := { descriptor, createdAt := ticket.now, updatedAt := ticket.now }
  pure (record,
    { db with
      objects := insertObject db.objects
        { sha256 := ticket.contentHash, sizeBytes := input.content.size, createdAt := ticket.now }
      documents := db.documents ++ [record]
      ingests := db.ingests ++
        [{ workspaceId := input.workspaceId, workerId := input.workerId
           idempotencyKey := input.idempotencyKey, requestDigest := ticket.digest
           stagingDocumentId := documentId, createdAt := ticket.now }] })

/-- What the failure path leaves of the files: it removes the content it wrote, unless a row has its
    digest. -/
def cleanUp (db : StagingDatabase) (files : Files) (contentHash : Digest) (contentCreated : Bool) :
    Files :=
  if contentCreated ∧ Tables.find? db.objects contentHash = none then files.remove contentHash
  else files

def ingestGenerated (services : StagingServices) (input : IngestGeneratedStagingContentInput)
    (now : Timestamp) (documentId : Id) (s : StagingState) :
    Except RegistryError StagingContentIngestResult × StagingState :=
  match ingestTicket services input now with
  | .error e => (.error e, s)
  | .ok ticket =>
    match ingestReads s.db input ticket with
    | .error e => (.error e, s)
    | .ok (.replay record) => (.ok { record, replayed := true, contentCreated := false }, s)
    | .ok (.fresh run grant) =>
      match storeContent services s.files ticket.contentHash input.content with
      | .error e => (.error e, s)
      | .ok (files, contentCreated) =>
        match ingestRows s.db input ticket run grant documentId with
        | .ok (record, db) => (.ok { record, replayed := false, contentCreated }, { db, files })
        | .error e =>
          (.error e, { s with files := cleanUp s.db files ticket.contentHash contentCreated })

/-- `readContent`. -/
def readContent (services : StagingServices) (s : StagingState) (id workspaceId : Id) :
    Except RegistryError ByteArray := do
  let document ← s.db.requireDocument id workspaceId
  let _ ← orThrow (Tables.find? s.db.objects document.descriptor.contentHash)
    (.registry "STAGING_CONTENT_NOT_FOUND" "Staging CAS object is missing")
  let content ← orThrow (s.files document.descriptor.contentHash)
    (.registry "STAGING_CONTENT_NOT_FOUND" "Staging CAS file is missing")
  verifyStoredBytes services content document.descriptor.contentHash document.descriptor.sizeBytes
  pure content

end MarkorbitKnowledge.Staging
