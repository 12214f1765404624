import MarkorbitKnowledge.Contracts.Patterns
import MarkorbitKnowledge.Execution.Store
import MarkorbitKnowledge.Lib.Tables
import MarkorbitKnowledge.Lib.Transitions

/-!
# The registry of ready packages

`SqliteReadyPackageRegistryRepository`: the packages built from verified conversions, the keys they
were requested under, and the receipts of Core for them.  A row is the document it stores: its
columns repeat fields of the document.  `createVerified` and `recordCoreIntakeAcknowledgment` are
transactions; `markHandedOff` reads a package and writes it with one `UPDATE`.  Identifiers and
digests are texts here, as this registry checks them itself.

The two digests of the module and `Date.parse` are parameters (`Platform`).
-/

namespace MarkorbitKnowledge.Handoff

open Contracts Fallible Tables Transitions
open Execution (RegistryError)

/-! ### Documents -/

inductive ReadyPackageStatus where
  | created
  | verified
  | handedOff
deriving DecidableEq

inductive VerificationOutcome where
  | pass
  | passWithWarnings
deriving DecidableEq

structure Converter where
  converterId : String
  version : String
deriving DecidableEq

/-- The evidence of a package without its digest; `legalTruthVerified` is `false` in all of them. -/
structure EvidenceBase where
  artifactIds : List String
  stagingDocumentId : String
  sourceId : String
  conversionRunId : String
  rawArtifactSha256 : String
  stagingSha256 : String
  verificationId : String
  verificationOutcome : VerificationOutcome
  converter : Converter
  capturedAt : String
deriving DecidableEq

structure ReadyPackageEvidence extends EvidenceBase where
  digest : String
deriving DecidableEq

structure ReadyPackage where
  id : String
  workspaceId : String
  status : ReadyPackageStatus
  evidence : ReadyPackageEvidence
  createdAt : Timestamp
  verifiedAt : Option Timestamp
  handedOffAt : Option Timestamp
deriving DecidableEq

instance : Keyed ReadyPackage String := ⟨ReadyPackage.id⟩

@[simp] theorem key_readyPackage (p : ReadyPackage) : key p = p.id := rfl

inductive CoreIntakeStatus where
  | received
  | accepted
  | rejected
deriving DecidableEq

structure CoreIntakeResult where
  intakeId : String
  status : CoreIntakeStatus
  readyPackageId : String
deriving DecidableEq

structure ReadyPackageCoreIntakeReceipt where
  intakeId : String
  workspaceId : String
  readyPackageId : String
  expectedDigest : String
  status : CoreIntakeStatus
  recordedAt : Timestamp
deriving DecidableEq

/-- `PRIMARY KEY (workspace_id, intake_id, status)`. -/
instance : Keyed ReadyPackageCoreIntakeReceipt (String × String × CoreIntakeStatus) :=
  ⟨fun receipt => (receipt.workspaceId, receipt.intakeId, receipt.status)⟩

@[simp] theorem key_receipt (receipt : ReadyPackageCoreIntakeReceipt) :
    key receipt = (receipt.workspaceId, receipt.intakeId, receipt.status) := rfl

structure CreateVerifiedReadyPackageInput where
  workspaceId : String
  sourceId : String
  rawArtifactId : String
  rawArtifactSha256 : String
  capturedAt : String
  conversionRunId : String
  converter : Converter
  stagingDocumentId : String
  stagingSha256 : String
  verificationId : String
  verificationOutcome : VerificationOutcome
  idempotencyKey : String
deriving DecidableEq

/-- A row of `ready_package_idempotency`. -/
structure IdempotencyRow where
  workspaceId : String
  idempotencyKey : String
  requestDigest : String
  readyPackageId : String
  createdAt : Timestamp
deriving DecidableEq

structure Database where
  readyPackages : List ReadyPackage
  idempotency : List IdempotencyRow
  receipts : List ReadyPackageCoreIntakeReceipt
deriving DecidableEq

/-- `digest` of a request and of the evidence of a package, and `Date.parse` (`none` for `NaN`). -/
structure Platform where
  requestDigest : CreateVerifiedReadyPackageInput → String
  evidenceDigest : EvidenceBase → String
  dateParse : String → Option Timestamp

/-! ### Checks -/

/-- `/^[A-Za-z0-9][A-Za-z0-9._:-]{0,199}$/`. -/
def KEY (s : String) : Bool :=
  match s.toList with
  | [] => false
  | c :: cs =>
    isAlnum c && decide (cs.length ≤ 199) &&
      cs.all fun c => isAlnum c || c == '.' || c == '_' || c == ':' || c == '-'

/-- `/^[a-f0-9]{64}$/`. -/
def SHA256 (s : String) : Bool := isSha256Text s

/-- `!text?.trim()` is false. -/
def isPresent (s : String) : Bool := !(trim s).isEmpty

/-- `Date.prototype.toISOString`, which throws outside the range of a `Date`. -/
def toISOString (now : Timestamp) : Except RegistryError Timestamp := do
  require (isDate now = true) .invalidTimeValue
  return now

/-- The check of a stored receipt. -/
def parseCoreIntakeReceipt (parsed : ReadyPackageCoreIntakeReceipt) :
    Except RegistryError ReadyPackageCoreIntakeReceipt := do
  require (isPresent parsed.intakeId = true ∧ isPresent parsed.workspaceId = true ∧
      isPresent parsed.readyPackageId = true ∧ SHA256 parsed.expectedDigest = true ∧
      isDate parsed.recordedAt = true)
    (.validation "Persisted Core intake receipt is invalid")
  return parsed

variable (platform : Platform)

def validate (input : CreateVerifiedReadyPackageInput) : Except RegistryError Unit := do
  require (KEY input.idempotencyKey = true) (.validation "Invalid ReadyPackage idempotency key")
  require (SHA256 input.rawArtifactSha256 = true ∧ SHA256 input.stagingSha256 = true)
    (.validation "ReadyPackage evidence requires SHA-256 digests")
  require (platform.dateParse input.capturedAt ≠ none)
    (.validation "ReadyPackage capturedAt is invalid")

structure RecordReadyPackageCoreIntakeAcknowledgmentInput where
  workspaceId : String
  readyPackageId : String
  expectedDigest : String
  coreIntakeResult : CoreIntakeResult
deriving DecidableEq

def validateCoreIntakeAcknowledgment (input : RecordReadyPackageCoreIntakeAcknowledgmentInput) :
    Except RegistryError Unit := do
  require (isPresent input.workspaceId = true) (.validation "workspaceId is required")
  require (isPresent input.readyPackageId = true) (.validation "readyPackageId is required")
  require (SHA256 input.expectedDigest = true)
    (.validation "expectedDigest must be a SHA-256 digest")
  require (isPresent input.coreIntakeResult.intakeId = true)
    (.validation "coreIntakeResult.intakeId is required")
  require (isPresent input.coreIntakeResult.readyPackageId = true)
    (.validation "coreIntakeResult.readyPackageId is required")
  require (input.coreIntakeResult.readyPackageId = input.readyPackageId)
    (.conflict "CORE_INTAKE_READY_PACKAGE_MISMATCH"
      "Core intake result belongs to another ReadyPackage")

/-! ### Reading -/

def getById (db : Database) (id workspaceId : String) : Option ReadyPackage :=
  (find? db.readyPackages id).filter fun p => p.workspaceId = workspaceId

def getByConversionRun (db : Database) (conversionRunId workspaceId : String) :
    Option ReadyPackage :=
  db.readyPackages.find? fun p =>
    p.evidence.conversionRunId = conversionRunId ∧ p.workspaceId = workspaceId

/-- `require` of the source. -/
def requirePackage (db : Database) (id workspaceId : String) : Except RegistryError ReadyPackage :=
  orThrow (getById db id workspaceId)
    (.registry "READY_PACKAGE_NOT_FOUND" ("ReadyPackage " ++ id ++ " was not found"))

/-- The stored receipts of an intake, oldest first. -/
def receiptsOf (db : Database) (intakeId workspaceId : String) :
    List ReadyPackageCoreIntakeReceipt :=
  db.receipts.filter fun r => r.workspaceId = workspaceId ∧ r.intakeId = intakeId

def getCoreIntakeReceiptsByIntakeId (db : Database) (intakeId workspaceId : String) :
    Except RegistryError (List ReadyPackageCoreIntakeReceipt) :=
  (receiptsOf db intakeId workspaceId).mapM parseCoreIntakeReceipt

/-! ### Writing -/

structure ReadyPackageCreateResult where
  readyPackage : ReadyPackage
  replayed : Bool
deriving DecidableEq

/-- The evidence a request becomes. -/
def evidenceBase (input : CreateVerifiedReadyPackageInput) : EvidenceBase where
  artifactIds := [input.rawArtifactId]
  stagingDocumentId := input.stagingDocumentId
  sourceId := input.sourceId
  conversionRunId := input.conversionRunId
  rawArtifactSha256 := input.rawArtifactSha256
  stagingSha256 := input.stagingSha256
  verificationId := input.verificationId
  verificationOutcome := input.verificationOutcome
  converter := input.converter
  capturedAt := input.capturedAt

/-- The package and the idempotency row a new request is stored as. -/
def insertPackage (input : CreateVerifiedReadyPackageInput) (readyPackage : ReadyPackage)
    (db : Database) : Except RegistryError Database := do
  require (∀ p ∈ db.readyPackages, p.id ≠ readyPackage.id) (.uniqueConstraint "ready_packages.id")
  require (getByConversionRun db input.conversionRunId input.workspaceId = none)
    (.uniqueConstraint "ready_packages.workspace_id, ready_packages.conversion_run_id")
  require (∀ row ∈ db.idempotency,
      ¬(row.workspaceId = input.workspaceId ∧ row.idempotencyKey = input.idempotencyKey))
    (.uniqueConstraint
      "ready_package_idempotency.workspace_id, ready_package_idempotency.idempotency_key")
  return { db with
    readyPackages := db.readyPackages ++ [readyPackage]
    idempotency := db.idempotency ++ [{
      workspaceId := input.workspaceId
      idempotencyKey := input.idempotencyKey
      requestDigest := platform.requestDigest input
      readyPackageId := readyPackage.id
      createdAt := readyPackage.createdAt }] }

def createVerifiedBody (input : CreateVerifiedReadyPackageInput) (now : Timestamp) (id : String)
    (db : Database) : Except RegistryError (ReadyPackageCreateResult × Database) := do
  match db.idempotency.find? fun row =>
      row.workspaceId = input.workspaceId ∧ row.idempotencyKey = input.idempotencyKey with
  | some replay =>
    require (replay.requestDigest = platform.requestDigest input)
      (.conflict "READY_PACKAGE_IDEMPOTENCY_CONFLICT"
        "ReadyPackage idempotency key was reused with different evidence")
    let readyPackage ← requirePackage db replay.readyPackageId input.workspaceId
    return (⟨readyPackage, true⟩, db)
  | none =>
    require (getByConversionRun db input.conversionRunId input.workspaceId = none)
      (.conflict "READY_PACKAGE_CONVERSION_ALREADY_PACKAGED"
        "ConversionRun already has a ReadyPackage")
    let createdAt ← toISOString now
    let base := evidenceBase input
    let readyPackage : ReadyPackage := {
      id := id
      workspaceId := input.workspaceId
      status := .verified
      evidence := { base with digest := platform.evidenceDigest base }
      createdAt := createdAt
      verifiedAt := some createdAt
      handedOffAt := none }
    let db' ← insertPackage platform input readyPackage db
    return (⟨readyPackage, false⟩, db')

def createVerified (input : CreateVerifiedReadyPackageInput) (now : Timestamp) (id : String)
    (db : Database) : Except RegistryError ReadyPackageCreateResult × Database :=
  match validate platform input with
  | .error e => (.error e, db)
  | .ok () => commit (createVerifiedBody platform input now id) db

/-- The package and the database after the handoff of `current`. -/
def transitionHandedOff (current : ReadyPackage) (expectedDigest : String) (handedOffAt : Timestamp)
    (db : Database) : Except RegistryError (ReadyPackage × Database) := do
  require (current.evidence.digest = expectedDigest)
    (.conflict "READY_PACKAGE_DIGEST_MISMATCH" "ReadyPackage digest mismatch")
  if current.status = .handedOff then
    return (current, db)
  else
    require (current.status = .verified)
      (.conflict "READY_PACKAGE_NOT_VERIFIED" "Only VERIFIED packages can be handed off")
    let next := { current with status := .handedOff, handedOffAt := some handedOffAt }
    -- `UPDATE … WHERE id = ? AND workspace_id = ? AND status = 'VERIFIED'`
    let readyPackages := db.readyPackages.map fun p =>
      if p.id = current.id ∧ p.workspaceId = current.workspaceId ∧ p.status = .verified then next
      else p
    return (next, { db with readyPackages := readyPackages })

def markHandedOffBody (id workspaceId expectedDigest : String) (now : Timestamp) (db : Database) :
    Except RegistryError (ReadyPackage × Database) := do
  let current ← requirePackage db id workspaceId
  let handedOffAt ← toISOString now
  transitionHandedOff current expectedDigest handedOffAt db

def markHandedOff (id workspaceId expectedDigest : String) (now : Timestamp) (db : Database) :
    Except RegistryError ReadyPackage × Database :=
  commit (markHandedOffBody id workspaceId expectedDigest now) db

inductive Disposition where
  | handoffRecorded
  | handoffAlreadyRecorded
  | rejectedNotHandedOff
deriving DecidableEq

structure ReadyPackageCoreIntakeAcknowledgmentPersistenceResult where
  readyPackage : ReadyPackage
  receipt : ReadyPackageCoreIntakeReceipt
  coreIntakeResult : CoreIntakeResult
  handoffRecorded : Bool
  replayed : Bool
  disposition : Disposition
deriving DecidableEq

/-- `INSERT INTO ready_package_core_intake_receipts`. -/
def insertReceipt (receipt : ReadyPackageCoreIntakeReceipt) (db : Database) :
    Except RegistryError Database := do
  require (∀ stored ∈ db.receipts, key stored ≠ key receipt)
    (.uniqueConstraint ("ready_package_core_intake_receipts.workspace_id, " ++
      "ready_package_core_intake_receipts.intake_id, ready_package_core_intake_receipts.status"))
  return { db with receipts := db.receipts ++ [receipt] }

/-- The first acknowledgment of an intake with this status. -/
def recordNewReceipt (input : RecordReadyPackageCoreIntakeAcknowledgmentInput) (now : Timestamp)
    (current : ReadyPackage) (db : Database) :
    Except RegistryError (ReadyPackageCoreIntakeAcknowledgmentPersistenceResult × Database) := do
  require (¬(input.coreIntakeResult.status = .rejected ∧ current.status = .handedOff))
    (.conflict "CORE_INTAKE_REJECTION_AFTER_HANDOFF"
      "A rejected Core intake result cannot reverse an already recorded handoff")
  let recordedAt ← toISOString now
  let (readyPackage, db) ←
    if input.coreIntakeResult.status = .rejected then pure (current, db)
    else transitionHandedOff current input.expectedDigest recordedAt db
  let receipt : ReadyPackageCoreIntakeReceipt := {
    intakeId := input.coreIntakeResult.intakeId
    workspaceId := input.workspaceId
    readyPackageId := input.readyPackageId
    expectedDigest := input.expectedDigest
    status := input.coreIntakeResult.status
    recordedAt := recordedAt }
  let db ← insertReceipt receipt db
  let handoffRecorded := decide (receipt.status ≠ .rejected)
  return ({
    readyPackage := readyPackage
    receipt := receipt
    coreIntakeResult := input.coreIntakeResult
    handoffRecorded := handoffRecorded
    replayed := false
    disposition :=
      if handoffRecorded then
        if current.status = .handedOff then .handoffAlreadyRecorded else .handoffRecorded
      else .rejectedNotHandedOff }, db)

def recordBody (input : RecordReadyPackageCoreIntakeAcknowledgmentInput) (now : Timestamp)
    (db : Database) :
    Except RegistryError (ReadyPackageCoreIntakeAcknowledgmentPersistenceResult × Database) := do
  let current ← requirePackage db input.readyPackageId input.workspaceId
  require (current.evidence.digest = input.expectedDigest)
    (.conflict "READY_PACKAGE_DIGEST_MISMATCH" "ReadyPackage digest mismatch")
  let intakeReceipts ←
    getCoreIntakeReceiptsByIntakeId db input.coreIntakeResult.intakeId input.workspaceId
  require (¬∃ receipt ∈ intakeReceipts, receipt.readyPackageId ≠ input.readyPackageId ∨
      receipt.expectedDigest ≠ input.expectedDigest)
    (.conflict "CORE_INTAKE_RECEIPT_IDEMPOTENCY_CONFLICT"
      "Core intake receipt intakeId was reused for different ReadyPackage evidence")
  match intakeReceipts.find? fun receipt => receipt.status = input.coreIntakeResult.status with
  | some existing =>
    -- The package is the current one, the outcome that of the old receipt.
    let handoffRecorded := decide (existing.status ≠ .rejected)
    return ({
      readyPackage := current
      receipt := existing
      coreIntakeResult := input.coreIntakeResult
      handoffRecorded := handoffRecorded
      replayed := true
      disposition := if handoffRecorded then .handoffAlreadyRecorded else .rejectedNotHandedOff },
      db)
  | none => recordNewReceipt input now current db

def recordCoreIntakeAcknowledgment (input : RecordReadyPackageCoreIntakeAcknowledgmentInput)
    (now : Timestamp) (db : Database) :
    Except RegistryError ReadyPackageCoreIntakeAcknowledgmentPersistenceResult × Database :=
  match validateCoreIntakeAcknowledgment input with
  | .error e => (.error e, db)
  | .ok () => commit (recordBody input now) db

/-! ### The machine -/

/-- A call of the registry, with the reading of its clock and the id its factory would give. -/
inductive Call where
  | createVerified (input : CreateVerifiedReadyPackageInput) (now : Timestamp) (id : String)
  | markHandedOff (id workspaceId expectedDigest : String) (now : Timestamp)
  | recordCoreIntakeAcknowledgment (input : RecordReadyPackageCoreIntakeAcknowledgmentInput)
      (now : Timestamp)
deriving DecidableEq

def step (db : Database) : Call → Database
  | .createVerified input now id => (createVerified platform input now id db).2
  | .markHandedOff id workspaceId expectedDigest now =>
    (markHandedOff id workspaceId expectedDigest now db).2
  | .recordCoreIntakeAcknowledgment input now => (recordCoreIntakeAcknowledgment input now db).2

/-- The registry from its empty tables on. -/
def registry : Machine Database Call where
  init := ⟨[], [], []⟩
  step := step platform

end MarkorbitKnowledge.Handoff
