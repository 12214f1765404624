import MarkorbitKnowledge.Execution.WorkerExecution
import Mathlib.Data.List.MinMax

/-!
# The raw artifact registry

`raw-artifact-registry.ts`: a worker that holds an active lease opens a session for a content, uploads it,
and finalizes it, which stores a `RawArtifact` and counts its content object up.  Uploading and finalizing
wait for the file system in between; here are their parts between two waits, `Machine` puts them together.
The credentials and the lease are only read when a call begins.
-/

namespace MarkorbitKnowledge.Ingestion

open Contracts Fallible Execution

/-! ### Files -/

/-- The files below the storage root.  A content object is linked to the upload it was made of, which no
    one writes to any more; so the two are kept as separate contents. -/
structure Files where
  /-- `sessions/<id>/content.part`. -/
  sessions : Id → Option ByteArray
  /-- The content object of a digest. -/
  objects : Digest → Option ByteArray

def Files.empty : Files := { sessions := fun _ => none, objects := fun _ => none }

def Files.setSession (files : Files) (id : Id) (content : Option ByteArray) : Files :=
  { files with sessions := fun i => if i = id then content else files.sessions i }

/-- `handle.write`, which goes to the open file; where its name was removed, nobody sees it. -/
def Files.appendSession (files : Files) (id : Id) (chunk : ByteArray) : Files :=
  files.setSession id ((files.sessions id).map (· ++ chunk))

/-- `link(source, target)`; a target that exists stays as it is, a missing source fails the call. -/
def Files.linkObject (files : Files) (id : Id) (digest : Digest) : Option Files :=
  (files.sessions id).map fun content =>
    { files with
      objects := fun d => if d = digest then some ((files.objects digest).getD content)
        else files.objects d }

structure IngestionPlatform extends Platform where
  /-- The SHA-256 of bytes. -/
  sha256 : ByteArray → Digest
  maxBytes : Nat

/-- The content object exists, with the digest in its name and the expected size. -/
def verifiesObject (platform : IngestionPlatform) (files : Files) (digest : Digest)
    (expectedSize : Nat) : Bool :=
  (files.objects digest).any fun content =>
    decide (platform.sha256 content = digest) && decide (content.size = expectedSize)

/-! ### Reading -/

/-- What every call of a worker begins with. -/
structure Caller where
  workerId : Id
  credential : String
  leaseId : Id
  leaseToken : String
  /-- When the lease is compared with the clock. -/
  checkedAt : Timestamp

structure AuthenticatedExecutionContext where
  lease : JobLease
  job : Job
  run : CollectionRun
  attempt : ExecutionAttempt

def parsed (valid : Bool) (message : String) : Except RegistryError Unit :=
  require (valid = true) (.validation message)

def authenticate (platform : IngestionPlatform) (db : Database) (caller : Caller) :
    Except RegistryError AuthenticatedExecutionContext := do
  let _ ← verifyCredential platform.toPlatform db caller.workerId caller.credential
  let notFound := RegistryError.conflict "ARTIFACT_EXECUTION_CONTEXT_NOT_FOUND"
    "Active execution context was not found"
  let row ← orThrow (Tables.find? db.leases caller.leaseId) notFound
  let job ← orThrow (Tables.find? db.jobs row.lease.jobId) notFound
  let run ← orThrow (Tables.find? db.runs row.lease.runId) notFound
  let attempt ← orThrow (db.attempts.find? fun attempt => decide (attempt.leaseId = caller.leaseId))
    notFound
  parsed (isJobLease row.lease) "Persisted JobLease is invalid"
  require (row.lease.workerId = caller.workerId ∧
      platform.verifyDigest caller.leaseToken row.tokenDigest = true ∧ row.lease.status = .active ∧
      caller.checkedAt < row.lease.expiresAt)
    (.conflict "ARTIFACT_LEASE_AUTHENTICATION_FAILED"
      "Invalid or inactive artifact ingestion lease")
  parsed (isExecutionAttempt attempt) "Persisted execution attempt is invalid"
  require (attempt.status ≠ .completed ∧ attempt.status ≠ .failed)
    (.conflict "ARTIFACT_EXECUTION_TERMINAL" "Terminal execution cannot ingest artifacts")
  parsed (isJob job) "Persisted Job is invalid"
  parsed (isCollectionRun run) "Persisted CollectionRun is invalid"
  return { lease := row.lease, job, run, attempt }

structure ArtifactSessionRecord where
  session : ArtifactIngestionSession
  verification : Option ArtifactVerificationResult
  receipt : Option ArtifactIngestionReceipt
  failure : Option ArtifactIngestionFailure
  events : List ArtifactIngestionEvent

def artifactSessionNotFound (id : Id) : RegistryError :=
  .registry "ARTIFACT_SESSION_NOT_FOUND"
    ("Artifact ingestion session " ++ idText "ing" id ++ " was not found")

def rawArtifactNotFound (id : Id) : RegistryError :=
  .registry "RAW_ARTIFACT_NOT_FOUND" ("RawArtifact " ++ idText "art" id ++ " was not found")

/-- The events of a session, `ORDER BY sequence`: they are numbered in the order they are inserted. -/
def eventsOf (db : Database) (sessionId : Id) : List ArtifactIngestionEvent :=
  db.ingestionEvents.filter fun event => decide (event.sessionId = sessionId)

def requireSession (db : Database) (id : Id) : Except RegistryError ArtifactSessionRecord := do
  let row ← orThrow (Tables.find? db.sessions id) (artifactSessionNotFound id)
  parsed ((eventsOf db id).all isArtifactIngestionEvent)
    "Persisted ingestion event no longer satisfies protocol v1"
  parsed (isArtifactIngestionSession row.session)
    "Persisted ingestion session no longer satisfies protocol v1"
  parsed (row.verification.all isArtifactVerificationResult)
    "Persisted verification result no longer satisfies protocol v1"
  parsed (row.receipt.all isArtifactIngestionReceipt)
    "Persisted ingestion receipt no longer satisfies protocol v1"
  return { session := row.session, verification := row.verification, receipt := row.receipt
           failure := row.failure, events := eventsOf db id }

def assertOwnership (session : ArtifactIngestionSession) (caller : Caller) :
    Except RegistryError Unit :=
  require (session.workerId = caller.workerId ∧ session.leaseId = caller.leaseId)
    (.conflict "ARTIFACT_SESSION_OWNERSHIP_MISMATCH" "Session is owned by another Worker or lease")

/-- The session a call is about, after the checks every call makes. -/
def ownedSession (platform : IngestionPlatform) (db : Database) (caller : Caller) (sessionId : Id) :
    Except RegistryError ArtifactSessionRecord := do
  let _ ← authenticate platform db caller
  let record ← requireSession db sessionId
  assertOwnership record.session caller
  return record

/-! ### Writing -/

instance : Tables.Keyed ContentObject Digest := ⟨ContentObject.digest⟩
instance : Tables.Keyed RawArtifactRow Id := ⟨fun row => row.artifact.id⟩

@[simp] theorem key_contentObject (object : ContentObject) : Tables.key object = object.digest := rfl
@[simp] theorem key_rawArtifact (row : RawArtifactRow) : Tables.key row = row.artifact.id := rfl

/-- The options of `updateSession`; `tempRelativePath` is always given. -/
structure SessionChanges where
  verification : Option ArtifactVerificationResult
  receipt : Option ArtifactIngestionReceipt
  failure : Option ArtifactIngestionFailure
  tempRelativePath : Bool

def SessionChanges.write (changes : SessionChanges) (session : ArtifactIngestionSession)
    (row : SessionRow) : SessionRow :=
  { row with
    session
    verification := changes.verification <|> row.verification
    receipt := changes.receipt <|> row.receipt
    failure := changes.failure <|> row.failure
    tempRelativePath := changes.tempRelativePath }

/-- `UPDATE artifact_ingestion_sessions … WHERE id = ?`. -/
def SessionChanges.update (changes : SessionChanges) (session : ArtifactIngestionSession)
    (sessions : List SessionRow) : List SessionRow :=
  sessions.map fun row => if row.session.id = session.id then changes.write session row else row

def updateSession (db : Database) (session : ArtifactIngestionSession) (changes : SessionChanges) :
    Except RegistryError Database := do
  parsed (isArtifactIngestionSession session) "Session update does not satisfy protocol v1"
  return { db with sessions := changes.update session db.sessions }

def insertEvent (db : Database) (sessionId : Id) (eventType : ArtifactIngestionEventType)
    (recordedAt : Timestamp) (failure : Option ArtifactIngestionFailure) (eventId : Id) :
    Except RegistryError Database := do
  let sequence := ((eventsOf db sessionId).map (·.sequence)).foldl max 0 + 1
  let event : ArtifactIngestionEvent :=
    { id := eventId, sessionId, sequence, eventType, recordedAt, failure }
  parsed (isArtifactIngestionEvent event) "Generated ingestion event is invalid"
  require (∀ stored ∈ db.ingestionEvents, stored.id ≠ event.id)
    (.uniqueConstraint "artifact_ingestion_events.id")
  return { db with ingestionEvents := db.ingestionEvents ++ [event] }

/-! ### Opening a session -/

structure CreateArtifactSessionInput where
  caller : Caller
  descriptor : ArtifactUploadDescriptor
  /-- The SHA-256 of the JSON text of the whole descriptor, of which the model keeps what is read. -/
  descriptorHash : Digest
  idempotencyKey : String

structure CreatedSession where
  record : ArtifactSessionRecord
  replayed : Bool

/-- `INSERT INTO artifact_ingestion_sessions`, with its primary key; that the idempotency key is new has
    been checked in the same step. -/
def insertSession (db : Database) (session : ArtifactIngestionSession) (descriptorHash : Digest) :
    Except RegistryError Database := do
  require (∀ row ∈ db.sessions, row.session.id ≠ session.id)
    (.uniqueConstraint "artifact_ingestion_sessions.id")
  return { db with
    sessions := db.sessions ++ [{ session, descriptorHash, verification := none, receipt := none
                                  failure := none, tempRelativePath := false }] }

def newSession (input : CreateArtifactSessionInput) (context : AuthenticatedExecutionContext)
    (key : String) (now : Timestamp) (sessionId : Id) : ArtifactIngestionSession where
  id := sessionId
  workspaceId := context.run.workspaceId
  sourceId := context.run.sourceId
  runId := context.run.id
  jobId := context.job.id
  jobAttempt := context.job.attempt
  executionAttemptId := context.attempt.id
  leaseId := context.lease.id
  workerId := input.caller.workerId
  connector := { connectorId := context.job.connectorSnapshot.connectorId
                 version := context.job.connectorSnapshot.version }
  descriptor := input.descriptor
  status := .created
  idempotencyKey := key
  createdAt := now
  updatedAt := now
  finalizedAt := none

/-- `createSession` of the base repository.  `raw-artifact-repository.ts` overrides it to check the parents
    of the descriptor first; a call refused there is one that is not made here. -/
def createSession (platform : IngestionPlatform) (input : CreateArtifactSessionInput)
    (now : Timestamp) (sessionId eventId : Id) (db : Database) :
    Except RegistryError (CreatedSession × Database) := do
  parsed (isArtifactUploadDescriptor input.descriptor)
    "Artifact descriptor does not satisfy protocol v1"
  let key ← normalizeIdempotencyKey input.idempotencyKey
  let context ← authenticate platform db input.caller
  match db.sessions.find? fun row => decide (row.session.workspaceId = context.run.workspaceId) &&
      decide (row.session.idempotencyKey = key) with
  | some existing =>
    require (existing.descriptorHash = input.descriptorHash)
      (.conflict "ARTIFACT_INGESTION_IDEMPOTENCY_CONFLICT"
        "Idempotency key was reused with different artifact metadata")
    let record ← requireSession db existing.session.id
    return ({ record, replayed := true }, db)
  | none =>
    require (context.attempt.status = .running ∨ context.attempt.status = .uploading ∨
        context.attempt.status = .verifying)
      (.conflict "ARTIFACT_EXECUTION_STATE_CONFLICT"
        "Artifact ingestion requires an active execution attempt")
    let session := newSession input context key now sessionId
    parsed (isArtifactIngestionSession session) "Generated ingestion session is invalid"
    let db ← insertSession db session input.descriptorHash
    let db ← insertEvent db session.id .sessionCreated now none eventId
    let record ← requireSession db session.id
    return ({ record, replayed := false }, db)

/-! ### Uploading -/

/-- `uploadContent` up to its writes: a session that is verified already is given back. -/
def uploadable (platform : IngestionPlatform) (caller : Caller) (sessionId : Id) (db : Database) :
    Except RegistryError (Option ArtifactIngestionSession) := do
  let record ← ownedSession platform db caller sessionId
  if record.session.status = .verified then
    require (record.verification.isSome = true) (.validation "Verified session lacks evidence")
    return none
  require (record.session.status = .created)
    (.conflict "ARTIFACT_SESSION_STATE_CONFLICT"
      ("Cannot upload content while session is " ++ record.session.status.text))
  return some record.session

/-- `uploadContent` up to its first wait; its two writes are not one transaction. -/
def beginUpload (platform : IngestionPlatform) (caller : Caller) (sessionId : Id) (now : Timestamp)
    (eventId : Id) (db : Database) :
    Except RegistryError (Option ArtifactIngestionSession) × Database :=
  match uploadable platform caller sessionId db with
  | .error e => (.error e, db)
  | .ok none => (.ok none, db)
  | .ok (some session) =>
    let uploading := { session with status := .uploading, updatedAt := now }
    match updateSession db uploading
      { verification := none, receipt := none, failure := none, tempRelativePath := true } with
    | .error e => (.error e, db)
    | .ok db =>
      match insertEvent db sessionId .uploadStarted now none eventId with
      | .error e => (.error e, db)
      | .ok db => (.ok (some uploading), db)

/-- The verification of an upload. -/
def verificationOf (platform : IngestionPlatform) (session : ArtifactIngestionSession)
    (received : ByteArray) (verifiedAt : Timestamp) : ArtifactVerificationResult :=
  let observedSha256 := platform.sha256 received
  let sizeMatches := decide (received.size = session.descriptor.expectedSizeBytes)
  let digestMatches := decide (observedSha256 = session.descriptor.expectedSha256)
  { sessionId := session.id
    status := if !sizeMatches then .sizeMismatch else if !digestMatches then .digestMismatch
      else .matched
    observedSizeBytes := received.size
    observedSha256
    verifiedAt
    failureCode := if !sizeMatches then some "ARTIFACT_SIZE_MISMATCH"
      else if !digestMatches then some "ARTIFACT_DIGEST_MISMATCH" else none }

/-- The failure of an upload that does not match its descriptor. -/
def mismatchFailure (verification : ArtifactVerificationResult) : ArtifactIngestionFailure where
  code := verification.failureCode.getD ""
  message := "Observed upload identity does not match the declared descriptor"
  occurredAt := verification.verifiedAt

/-- The transaction that makes a session verified; `session` is the document the upload began with. -/
def verifySession (session : ArtifactIngestionSession) (verification : ArtifactVerificationResult)
    (eventId : Id) (db : Database) : Except RegistryError Database := do
  let verified := { session with status := .verified, updatedAt := verification.verifiedAt }
  let db ← updateSession db verified
    { verification := some verification, receipt := none, failure := none, tempRelativePath := true }
  insertEvent db session.id .uploadVerified verification.verifiedAt none eventId

def rejectSession (session : ArtifactIngestionSession) (failure : ArtifactIngestionFailure)
    (verification : Option ArtifactVerificationResult) (eventId : Id) (db : Database) :
    Except RegistryError Database := do
  let rejected := { session with status := .quarantined, updatedAt := failure.occurredAt }
  let db ← updateSession db rejected
    { verification, receipt := none, failure := some failure, tempRelativePath := false }
  insertEvent db session.id .uploadRejected failure.occurredAt (some failure) eventId

/-! ### Finalizing -/

/-- What `finalize` has read before it waits. -/
structure Finalization where
  session : ArtifactIngestionSession
  verification : ArtifactVerificationResult
  now : Timestamp

structure RawArtifactView where
  row : RawArtifactRow
  contentObject : ContentObject

/-- `getArtifact`, for an artifact that has to be there. -/
def requireArtifact (db : Database) (id : Id) : Except RegistryError RawArtifactView := do
  let row ← orThrow (Tables.find? db.rawArtifacts id) (rawArtifactNotFound id)
  let contentObject ← orThrow (Tables.find? db.contentObjects row.artifact.binaryHash)
    (rawArtifactNotFound id)
  parsed (isRawArtifact row.artifact) "Persisted RawArtifact no longer satisfies Schema v1"
  return { row, contentObject }

/-- `finalize` up to its first wait: what it has to finalize, or nothing where that was done before. -/
def beginFinalize (platform : IngestionPlatform) (caller : Caller) (sessionId : Id)
    (now : Timestamp) (db : Database) : Except RegistryError (Option Finalization) := do
  let record ← ownedSession platform db caller sessionId
  if record.session.status = .finalized then
    let receipt ← orThrow record.receipt (.validation "Finalized session lacks receipt")
    let _ ← requireArtifact db receipt.artifactId
    return none
  let notVerified := RegistryError.conflict "ARTIFACT_SESSION_NOT_VERIFIED"
    "Only a verified ingestion session can be finalized"
  require (record.session.status = .verified) notVerified
  let verification ← orThrow record.verification notVerified
  let row ← orThrow (Tables.find? db.sessions sessionId) (artifactSessionNotFound sessionId)
  require (row.tempRelativePath = true)
    (.validation "Verified session lacks temporary storage reference")
  return some { session := record.session, verification, now }

/-- The place of an artifact in `ORDER BY created_at, id`. -/
def captureOrder (row : RawArtifactRow) : (Nat ×ₗ Int ×ₗ Timestamp) ×ₗ Id :=
  toLex (isoOrder row.artifact.createdAt, row.artifact.id)

/-- The artifacts of a canonical URI. -/
def artifactsOf (artifacts : List RawArtifactRow) (workspaceId sourceId : Id)
    (canonicalUri : String) : List RawArtifactRow :=
  artifacts.filter fun row => decide (row.artifact.workspaceId = workspaceId) &&
    decide (row.artifact.sourceId = sourceId) &&
    decide (row.artifact.canonicalUri = some canonicalUri)

/-- The artifact that a new one of the session supersedes. -/
def previousArtifact (artifacts : List RawArtifactRow) (session : ArtifactIngestionSession) :
    Option RawArtifactRow :=
  session.descriptor.canonicalUri.bind fun canonicalUri =>
    (artifactsOf artifacts session.workspaceId session.sourceId canonicalUri).argmax captureOrder

def newArtifact (f : Finalization) (previous : Option RawArtifact) (artifactId : Id) :
    RawArtifact where
  id := artifactId
  workspaceId := f.session.workspaceId
  sourceId := f.session.sourceId
  collectionRunId := f.session.runId
  version := match previous with
    | some previous => previous.version + 1
    | none => 1
  supersedesArtifactId := previous.map (·.id)
  artifactKind := f.session.descriptor.artifactKind
  canonicalUri := f.session.descriptor.canonicalUri
  binaryHash := f.verification.observedSha256
  sizeBytes := f.verification.observedSizeBytes
  capturedAt := f.now
  sourceUri := f.session.descriptor.sourceUri
  parentArtifactIds := f.session.descriptor.parentArtifactIds
  createdAt := f.now

def newReceipt (f : Finalization) (artifactId receiptId : Id) : ArtifactIngestionReceipt where
  id := receiptId
  sessionId := f.session.id
  artifactId := artifactId
  executionAttemptId := f.session.executionAttemptId
  contentSha256 := f.verification.observedSha256
  sizeBytes := f.verification.observedSizeBytes
  artifactKind := f.session.descriptor.artifactKind
  finalizedAt := f.now

/-- `INSERT INTO content_objects … ON CONFLICT(digest) DO UPDATE`. -/
def countObject (objects : List ContentObject) (digest : Digest) (sizeBytes : Nat)
    (now : Timestamp) : List ContentObject :=
  match Tables.find? objects digest with
  | none => objects ++
      [{ digest, sizeBytes, referenceCount := 1, createdAt := now, verifiedAt := now }]
  | some object => Tables.update objects
      { object with referenceCount := object.referenceCount + 1, verifiedAt := now }

/-- `INSERT INTO raw_artifacts`: a primary key, and one artifact for a session and for a receipt. -/
def insertArtifact (artifacts : List RawArtifactRow) (row : RawArtifactRow) :
    Except RegistryError (List RawArtifactRow) := do
  require (∀ stored ∈ artifacts, stored.artifact.id ≠ row.artifact.id)
    (.uniqueConstraint "raw_artifacts.id")
  require (∀ stored ∈ artifacts, stored.sessionId ≠ row.sessionId)
    (.uniqueConstraint "raw_artifacts.session_id")
  require (∀ stored ∈ artifacts, stored.receiptId ≠ row.receiptId)
    (.uniqueConstraint "raw_artifacts.receipt_id")
  return artifacts ++ [row]

/-- The row of a new artifact. -/
def newRow (f : Finalization) (artifact : RawArtifact) (receiptId : Id) : RawArtifactRow where
  artifact := artifact
  jobId := f.session.jobId
  jobAttempt := f.session.jobAttempt
  executionAttemptId := f.session.executionAttemptId
  sessionId := f.session.id
  receiptId := receiptId

/-- `finalize` after its waits: the artifact, its receipt and the transaction that stores them. -/
def finalizeSession (f : Finalization) (artifactId receiptId eventId : Id) (db : Database) :
    Except RegistryError Database := do
  let previous := previousArtifact db.rawArtifacts f.session
  parsed (previous.all fun row => isRawArtifact row.artifact)
    "Persisted RawArtifact no longer satisfies Schema v1"
  let artifact := newArtifact f (previous.map (·.artifact)) artifactId
  parsed (isRawArtifact artifact) "Generated RawArtifact does not satisfy Schema v1"
  let receipt := newReceipt f artifactId receiptId
  parsed (isArtifactIngestionReceipt receipt) "Generated ingestion receipt is invalid"
  let finalized := { f.session with
    status := .finalized, updatedAt := f.now, finalizedAt := some f.now }
  let rawArtifacts ← insertArtifact db.rawArtifacts (newRow f artifact receiptId)
  let db := { db with
    contentObjects := countObject db.contentObjects f.verification.observedSha256
      f.verification.observedSizeBytes f.now
    rawArtifacts }
  let db ← updateSession db finalized
    { verification := none, receipt := some receipt, failure := none, tempRelativePath := false }
  insertEvent db f.session.id .finalized f.now none eventId

/-! ### Giving up -/

def abortReason (reason : Option String) : String :=
  let trimmed := trim (reason.getD "")
  sliceText (if trimmed = "" then "Artifact ingestion was aborted" else trimmed) 1000

/-- The transaction of `abort`. -/
def abortSession (session : ArtifactIngestionSession) (failure : ArtifactIngestionFailure)
    (eventId : Id) (db : Database) : Except RegistryError Database := do
  let aborted := { session with status := .aborted, updatedAt := failure.occurredAt }
  let db ← updateSession db aborted
    { verification := none, receipt := none, failure := some failure, tempRelativePath := false }
  insertEvent db session.id .aborted failure.occurredAt none eventId

/-- `abort` up to its effects: the session to abort, or nothing where it is over. -/
def beginAbort (platform : IngestionPlatform) (caller : Caller) (sessionId : Id) (db : Database) :
    Except RegistryError (Option ArtifactIngestionSession) := do
  let record ← ownedSession platform db caller sessionId
  if record.session.status = .finalized ∨ record.session.status = .aborted ∨
      record.session.status = .quarantined then
    return none
  return some record.session

/-- The sessions `cleanupAbandoned` gives up. -/
def abandonedSessions (db : Database) (olderThan : Timestamp) : List SessionRow :=
  db.sessions.filter fun row =>
    (decide (row.session.status = .created) || decide (row.session.status = .uploading)) &&
      decide (isoOrder row.session.updatedAt < isoOrder olderThan)

def abandonedFailure (now : Timestamp) : ArtifactIngestionFailure where
  code := "ARTIFACT_SESSION_ABANDONED"
  message := "Incomplete ingestion session was cleaned up"
  occurredAt := now

/-- One session of `cleanupAbandoned`, inside its transaction. -/
def abandonSession (now : Timestamp) (db : Database) (id eventId : Id) :
    Except RegistryError Database := do
  let record ← requireSession db id
  abortSession record.session (abandonedFailure now) eventId db

end MarkorbitKnowledge.Ingestion
