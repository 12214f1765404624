import MarkorbitKnowledge.Staging.Registry

/-!
# The staging verifier

`verifyGenerated` of `staging-verification.ts`: one call evaluates a generated document and stores
the decision, a later call with the same key and request returns what was stored.
-/

namespace MarkorbitKnowledge.Staging

open Contracts Fallible
open Execution (RegistryError)
open Conversion

def VERIFIER_ID : String := "builtin-staging-verifier"
def VERIFIER_VERSION : String := "1.0.0"

structure VerifyGeneratedStagingInput where
  workspaceId : Id
  stagingDocumentId : Id
  verifierId : Option String
  verifierVersion : Option String
  idempotencyKey : String

structure StagingVerificationResult where
  evidence : StagingVerificationEvidence
  record : StagingDocumentRecord
  replayed : Bool
deriving DecidableEq

namespace StagingDatabase

variable (db : StagingDatabase)

/-- `getVerification`. -/
def verification? (id workspaceId : Id) : Option StagingVerificationEvidence :=
  (Tables.find? db.verifications id).filter (·.workspaceId = workspaceId)

def requireVerification (id workspaceId : Id) : Except RegistryError StagingVerificationEvidence :=
  orThrow (db.verification? id workspaceId)
    (.registry "STAGING_VERIFICATION_EVIDENCE_INVALID" "Verification evidence is missing")

end StagingDatabase

/-- What a verification finds: the decision of an earlier call with its key, or what is to be
    evaluated. -/
inductive VerificationFound where
  | replay (evidence : StagingVerificationEvidence) (record : StagingDocumentRecord)
  | fresh (current : StagingDocumentRecord) (run : ConversionRun) (content : ByteArray)
      (digest : Digest)

def verificationDigest (services : StagingServices) (input : VerifyGeneratedStagingInput)
    (descriptor : StagingDocumentDescriptor) : Digest :=
  services.hashVerification
    { workspaceId := input.workspaceId, stagingDocumentId := input.stagingDocumentId
      verifierId := input.verifierId.getD VERIFIER_ID
      verifierVersion := input.verifierVersion.getD VERIFIER_VERSION
      idempotencyKey := input.idempotencyKey, contentSha256 := descriptor.contentHash
      sizeBytes := descriptor.sizeBytes }

def verificationReads (services : StagingServices) (input : VerifyGeneratedStagingInput)
    (s : StagingState) : Except RegistryError VerificationFound := do
  require (input.verifierId.getD VERIFIER_ID = VERIFIER_ID ∧
      input.verifierVersion.getD VERIFIER_VERSION = VERIFIER_VERSION)
    (.validation "Only builtin-staging-verifier@1.0.0 is authorized")
  require (isIdempotencyKey input.idempotencyKey = true)
    (.validation "Invalid staging verification idempotency key")
  let initial ← s.db.requireDocument input.stagingDocumentId input.workspaceId
  let digest := verificationDigest services input initial.descriptor
  let content ← readContent services s input.stagingDocumentId input.workspaceId
  match s.db.verificationRequests.find? fun row => row.workspaceId = input.workspaceId ∧
      row.stagingDocumentId = input.stagingDocumentId ∧
      row.idempotencyKey = input.idempotencyKey with
  | some replay =>
    require (replay.requestDigest = digest)
      (.conflict "STAGING_VERIFICATION_IDEMPOTENCY_CONFLICT"
        "Staging verification idempotency key was reused with different evidence")
    let evidence ← s.db.requireVerification replay.verificationId input.workspaceId
    let record ← s.db.requireDocument input.stagingDocumentId input.workspaceId
    pure (.replay evidence record)
  | none =>
    let current ← s.db.requireDocument input.stagingDocumentId input.workspaceId
    require (current.descriptor.status = .generated)
      (.conflict "STAGING_VERIFICATION_ALREADY_DECIDED"
        "Staging document already has a terminal verification decision")
    let run ← s.db.loadRun current.descriptor.conversionRunId
    require (run.workspaceId = input.workspaceId)
      (.conflict "STAGING_VERIFICATION_WORKSPACE_MISMATCH"
        "ConversionRun belongs to another Workspace")
    require (run.status = .verifying)
      (.conflict "STAGING_VERIFICATION_RUN_STATUS_INVALID"
        "ConversionRun must remain VERIFYING during Staging verification")
    pure (.fresh current run content digest)

def newEvidence (current : StagingDocumentRecord) (run : ConversionRun) (evaluated : Evaluation)
    (workspaceId id : Id) (now : Timestamp) : StagingVerificationEvidence where
  id := id
  workspaceId := workspaceId
  stagingDocumentId := current.descriptor.id
  conversionRunId := run.id
  contentSha256 := current.descriptor.contentHash
  outcome := evaluated.outcome
  checks := evaluated.checks
  warnings := evaluated.warnings
  frontmatterSummary := evaluated.frontmatterSummary
  createdAt := now

/-- The descriptor with the decision. -/
def verified (d : StagingDocumentDescriptor) (evaluated : Evaluation) : StagingDocumentDescriptor :=
  { d with
    frontmatterSummary := evaluated.frontmatterSummary
    validation :=
      { outcome := evaluated.outcome, checks := evaluated.checks, warnings := evaluated.warnings }
    status := if evaluated.outcome = .fail then .blocked else .ready }

def verificationRows (input : VerifyGeneratedStagingInput) (current : StagingDocumentRecord)
    (run : ConversionRun) (evaluated : Evaluation) (digest : Digest) (now : Timestamp)
    (verificationId : Id) (db : StagingDatabase) :
    Except RegistryError (StagingVerificationResult × StagingDatabase) := do
  let evidence := newEvidence current run evaluated input.workspaceId verificationId now
  let descriptor := verified current.descriptor evaluated
  require (isStagingDocumentDescriptor descriptor = true)
    (.validation "Verified StagingDocumentDescriptor is invalid")
  require (Tables.find? db.verifications verificationId = none)
    (.uniqueConstraint "staging_document_verifications.id")
  require (∀ evidence ∈ db.verifications, evidence.stagingDocumentId ≠ current.descriptor.id)
    (.uniqueConstraint "staging_document_verifications.staging_document_id")
  let record : StagingDocumentRecord :=
    { descriptor, createdAt := current.createdAt, updatedAt := now }
  pure ({ evidence, record, replayed := false },
    { db with
      verifications := db.verifications ++ [evidence]
      documents := Tables.update db.documents record
      verificationRequests := db.verificationRequests ++
        [{ workspaceId := input.workspaceId, stagingDocumentId := input.stagingDocumentId
           idempotencyKey := input.idempotencyKey, requestDigest := digest
           verificationId := evidence.id, createdAt := now }] })

/-- `verifyGenerated`, with `fuel` attempts for each summary key; `none` where they do not
    suffice. -/
def verifyGenerated (services : StagingServices) (fuel : Nat) (input : VerifyGeneratedStagingInput)
    (now : Timestamp) (verificationId : Id) (s : StagingState) :
    Option (Except RegistryError StagingVerificationResult × StagingState) :=
  match verificationReads services input s with
  | .error e => some (.error e, s)
  | .ok (.replay evidence record) => some (.ok { evidence, record, replayed := true }, s)
  | .ok (.fresh current run content digest) =>
    (evaluate services.toStagingPlatform fuel current.descriptor run content).map fun evaluated =>
      match verificationRows input current run evaluated digest now verificationId s.db with
      | .ok (result, db) => (.ok result, { s with db })
      | .error e => (.error e, s)

end MarkorbitKnowledge.Staging
