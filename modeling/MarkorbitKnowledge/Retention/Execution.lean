import MarkorbitKnowledge.Contracts.Artifact
import MarkorbitKnowledge.Contracts.Conversion
import MarkorbitKnowledge.Lib.Fallible
import MarkorbitKnowledge.Lib.Tables
import MarkorbitKnowledge.Lib.Window

/-!
# Retention execution

`executeRetentionPolicy` of `retention-execution.ts`.  A table that does not exist is an empty one:
the source looks into neither.  Instants are compared as the texts `toISOString` writes.  The audit
table is created, and the default workspace inserted, before the arguments of a call are checked and
outside its transaction.
-/

namespace MarkorbitKnowledge.Retention

open Contracts Fallible Tables

/-! ### The store -/

structure RetentionPolicy where
  rawArtifactDays : Option Nat
  derivedDocumentDays : Option Nat
deriving DecidableEq

/-- A row of `workspaces`; the document is none where the stored text fails `isWorkspace`. -/
structure WorkspaceRow where
  id : Id
  document : Option RetentionPolicy
deriving DecidableEq

inductive ArtifactStatus where
  | received | registered | duplicateChecked | readyForConversion | converted | staged | archived
deriving DecidableEq

/-- The document of a RawArtifact with its status. -/
structure RawArtifactDocument where
  artifact : RawArtifact
  status : ArtifactStatus

structure RawArtifactRow where
  id : Id
  workspaceId : Id
  status : ArtifactStatus
  createdAt : Timestamp
  document : RawArtifactDocument

structure StagingDocumentRow where
  id : Id
  workspaceId : Id
  rawArtifactId : Id
  conversionRunId : Id
  status : ConversionStagingDocumentStatus
  createdAt : Timestamp
  updatedAt : Timestamp
  document : StagingDocumentDescriptor

structure ConversionRunRow where
  id : Id
  rawArtifactId : Id
  status : ConversionRunStatus
deriving DecidableEq

structure ReadyPackageRow where
  rawArtifactId : Id
  stagingDocumentId : Id
deriving DecidableEq

structure RetrievalDocumentRow where
  rawArtifactId : Id
  stagingDocumentId : Id
  isCurrent : Bool
deriving DecidableEq

structure EvidenceSetMember where
  rawArtifactId : Option Id
  stagingDocumentId : Option Id
deriving DecidableEq

/-- The members of an evidence set, none where its text cannot be read. -/
abbrev EvidenceSetRow := Option (List EvidenceSetMember)

instance : Keyed WorkspaceRow Id := ⟨(·.id)⟩
instance : Keyed RawArtifactRow Id := ⟨(·.id)⟩
instance : Keyed StagingDocumentRow Id := ⟨(·.id)⟩

@[simp] theorem key_workspace (row : WorkspaceRow) : Keyed.key row = row.id := rfl
@[simp] theorem key_rawArtifact (row : RawArtifactRow) : Keyed.key row = row.id := rfl
@[simp] theorem key_stagingDocument (row : StagingDocumentRow) : Keyed.key row = row.id := rfl

inductive RetentionExecutionMode where
  | dryRun
  | apply
deriving DecidableEq

inductive RetentionAction where
  | archiveRawArtifact
  | archiveDerivedDocument
deriving DecidableEq

inductive RetentionHoldReason where
  | activeConversionReference
  | activeStagingReference
  | currentRetrievalReference
  | evidenceSetReference
  | readyPackageReference
deriving DecidableEq

structure RetentionCandidate where
  action : RetentionAction
  workspaceId : Id
  id : Id
  createdAt : Timestamp
  cutoffAt : Timestamp
  holdReasons : List RetentionHoldReason
deriving DecidableEq

structure RetentionExecutionResult where
  executionId : String
  mode : RetentionExecutionMode
  observedAt : Timestamp
  workspaceId : Option Id
  scanned : Nat
  actionable : Nat
  held : Nat
  applied : Nat
  truncated : Bool
  candidates : List RetentionCandidate
deriving DecidableEq

/-- The tables a call reads or writes; the audits are none where their table is not created yet. -/
structure Database where
  workspaces : List WorkspaceRow
  rawArtifacts : List RawArtifactRow
  stagingDocuments : List StagingDocumentRow
  conversionRuns : List ConversionRunRow
  readyPackages : List ReadyPackageRow
  retrievalDocuments : List RetrievalDocumentRow
  evidenceSets : List EvidenceSetRow
  audits : Option (List RetentionExecutionResult)

/-! ### Preparing the registry -/

/-- `DEFAULT_WORKSPACE`, whose raw artifacts are kept and whose documents stay for ten years. -/
def DEFAULT_WORKSPACE (defaultWorkspaceId : Id) : WorkspaceRow := ⟨defaultWorkspaceId, some ⟨none, some 3650⟩⟩

/-- `INSERT OR IGNORE` of the default workspace.  The source inserts the manifest of the default connector
    too, and records the migrations it applies, in tables outside this model. -/
def initializeRegistry (defaultWorkspaceId : Id) (db : Database) : Database :=
  if (find? db.workspaces defaultWorkspaceId).isSome then db
  else { db with workspaces := db.workspaces ++ [DEFAULT_WORKSPACE defaultWorkspaceId] }

def ensureRetentionAudit (defaultWorkspaceId : Id) (db : Database) : Database :=
  let db := initializeRegistry defaultWorkspaceId db
  { db with audits := some (db.audits.getD []) }

/-! ### Holds -/

def isTerminal : ConversionRunStatus → Bool
  | .completed | .failed | .cancelled => true
  | .pending | .running | .verifying => false

structure EvidenceReferences where
  raw : List Id
  staging : List Id

def evidenceSetReferences (db : Database) : Except String EvidenceReferences := do
  let sets ← db.evidenceSets.mapM fun row => orThrow row "Evidence Set is not readable"
  return ⟨sets.flatten.filterMap (·.rawArtifactId), sets.flatten.filterMap (·.stagingDocumentId)⟩

/-- A reason where its condition holds. -/
def reason (c : Prop) [Decidable c] (r : RetentionHoldReason) : List RetentionHoldReason :=
  if c then [r] else []

@[simp] theorem reason_eq_nil {c : Prop} [Decidable c] {r : RetentionHoldReason} :
    reason c r = [] ↔ ¬c := by
  simp [reason]

@[simp] theorem mem_reason {c : Prop} [Decidable c] {r s : RetentionHoldReason} :
    s ∈ reason c r ↔ c ∧ s = r := by
  unfold reason
  split_ifs with h <;> simp [h]

/-- The holds of a RawArtifact, in the order of their texts. -/
def rawHolds (db : Database) (artifactId : Id) (evidenceRaw : List Id) : List RetentionHoldReason :=
  reason (∃ run ∈ db.conversionRuns, run.rawArtifactId = artifactId ∧ isTerminal run.status = false)
      .activeConversionReference ++
    (reason (∃ row ∈ db.stagingDocuments, row.rawArtifactId = artifactId ∧ row.status ≠ .archived)
      .activeStagingReference ++
    (reason (∃ row ∈ db.retrievalDocuments, row.rawArtifactId = artifactId ∧ row.isCurrent = true)
      .currentRetrievalReference ++
    (reason (artifactId ∈ evidenceRaw) .evidenceSetReference ++
    reason (∃ row ∈ db.readyPackages, row.rawArtifactId = artifactId) .readyPackageReference)))

/-- The holds of a staging document, in the order of their texts. -/
def stagingHolds (db : Database) (stagingId : Id) (evidenceStaging : List Id) :
    List RetentionHoldReason :=
  reason (∃ row ∈ db.stagingDocuments, row.id = stagingId ∧
      ∃ run ∈ db.conversionRuns, run.id = row.conversionRunId ∧ isTerminal run.status = false)
      .activeConversionReference ++
    (reason (∃ row ∈ db.retrievalDocuments, row.stagingDocumentId = stagingId ∧ row.isCurrent = true)
      .currentRetrievalReference ++
    (reason (stagingId ∈ evidenceStaging) .evidenceSetReference ++
    reason (∃ row ∈ db.readyPackages, row.stagingDocumentId = stagingId) .readyPackageReference))

/-! ### The scan -/

structure RetentionInput where
  mode : RetentionExecutionMode
  observedAt : Timestamp
  workspaceId : Option Id
  limit : Option Int
deriving DecidableEq

def DEFAULT_LIMIT : Nat := 1000
def MAX_LIMIT : Nat := 5000

def normalizeLimit : Option Int → Except String Nat
  | none => return DEFAULT_LIMIT
  | some limit => do
    require (0 < limit ∧ limit ≤ MAX_LIMIT) "retention limit must be an integer in 1..5000"
    return limit.toNat

/-- `new Date(…).toISOString()`. -/
def cutoff (observedAt : Timestamp) (days : Nat) : Except String Timestamp := do
  let t := observedAt - days * 86400000
  require (isDate t = true) "Invalid time value"
  return t

/-- The workspaces a call covers, in the order of their ids. -/
def loadWorkspaces (db : Database) (workspaceId : Option Id) :
    Except String (List (Id × RetentionPolicy)) :=
  let rows := db.workspaces.filter fun row => workspaceId.all fun id => decide (row.id = id)
  (Window.ordered WorkspaceRow.id rows).mapM fun row => do
    let policy ← orThrow row.document "Persisted Workspace no longer satisfies Schema v1"
    return (row.id, policy)

def rawExpired (workspaceId : Id) (cutoffAt : Timestamp) (row : RawArtifactRow) : Bool :=
  decide (row.workspaceId = workspaceId ∧ row.status ≠ .archived ∧
    isoOrder row.createdAt < isoOrder cutoffAt)

def stagingExpired (workspaceId : Id) (cutoffAt : Timestamp) (row : StagingDocumentRow) : Bool :=
  decide (row.workspaceId = workspaceId ∧ row.status ≠ .archived ∧
    isoOrder row.updatedAt < isoOrder cutoffAt)

def rawCandidate (db : Database) (evidence : EvidenceReferences) (cutoffAt : Timestamp)
    (row : RawArtifactRow) : RetentionCandidate :=
  ⟨.archiveRawArtifact, row.workspaceId, row.id, row.createdAt, cutoffAt,
    rawHolds db row.id evidence.raw⟩

def stagingCandidate (db : Database) (evidence : EvidenceReferences) (cutoffAt : Timestamp)
    (row : StagingDocumentRow) : RetentionCandidate :=
  ⟨.archiveDerivedDocument, row.workspaceId, row.id, row.createdAt, cutoffAt,
    stagingHolds db row.id evidence.staging⟩

/-- What the loop over the workspaces carries. -/
structure Scan where
  candidates : List RetentionCandidate
  truncated : Bool

/-- One query of the loop: the first expired rows, one more than may still be examined. -/
def examine {ρ κ : Type} [LinearOrder κ] (limit : Nat) (order : ρ → κ) (expired : List ρ)
    (candidate : ρ → RetentionCandidate) (scan : Scan) : Scan :=
  let remaining := limit - scan.candidates.length
  let rows := Window.window order (remaining + 1) expired
  ⟨scan.candidates ++ (rows.take remaining).map candidate,
    scan.truncated || decide (remaining < rows.length)⟩

def examineRaw (db : Database) (evidence : EvidenceReferences) (observedAt : Timestamp) (limit : Nat)
    (workspace : Id × RetentionPolicy) (scan : Scan) : Except String Scan :=
  match workspace.2.rawArtifactDays with
  | none => return scan
  | some days => do
    let cutoffAt ← cutoff observedAt days
    return examine limit (fun row : RawArtifactRow => toLex (isoOrder row.createdAt, row.id))
      (db.rawArtifacts.filter (rawExpired workspace.1 cutoffAt)) (rawCandidate db evidence cutoffAt) scan

def examineDerived (db : Database) (evidence : EvidenceReferences) (observedAt : Timestamp)
    (limit : Nat) (workspace : Id × RetentionPolicy) (scan : Scan) : Except String Scan :=
  match workspace.2.derivedDocumentDays with
  | none => return scan
  | some days => do
    let cutoffAt ← cutoff observedAt days
    return examine limit (fun row : StagingDocumentRow => toLex (isoOrder row.updatedAt, row.id))
      (db.stagingDocuments.filter (stagingExpired workspace.1 cutoffAt))
      (stagingCandidate db evidence cutoffAt) scan

/-- The loop over the workspaces, with its `break`. -/
def scanWorkspaces (db : Database) (evidence : EvidenceReferences) (observedAt : Timestamp)
    (limit : Nat) : List (Id × RetentionPolicy) → Scan → Except String Scan
  | [], scan => return scan
  | workspace :: rest, scan => do
    let scan ← examineRaw db evidence observedAt limit workspace scan
    if limit ≤ scan.candidates.length then return { scan with truncated := true }
    else do
      let scan ← examineDerived db evidence observedAt limit workspace scan
      scanWorkspaces db evidence observedAt limit rest scan

/-! ### The execution -/

def archivedRaw (row : RawArtifactRow) : RawArtifactRow :=
  { row with status := .archived, document := { row.document with status := .archived } }

def archivedStaging (observedAt : Timestamp) (row : StagingDocumentRow) : StagingDocumentRow :=
  { row with
    status := .archived
    updatedAt := observedAt
    document := { row.document with status := .archived } }

def isRawArtifactDocument (document : RawArtifactDocument) : Bool := isRawArtifact document.artifact

def archiveRawArtifact (db : Database) (id : Id) : Except String Database :=
  match find? db.rawArtifacts id with
  | none => return db
  | some row => do
    require (isRawArtifactDocument row.document = true)
      ("RawArtifact " ++ idText "art" id ++ " no longer satisfies Schema v1")
    return { db with rawArtifacts := update db.rawArtifacts (archivedRaw row) }

def archiveStagingDocument (observedAt : Timestamp) (db : Database) (id : Id) :
    Except String Database :=
  match find? db.stagingDocuments id with
  | none => return db
  | some row => do
    require (isStagingDocumentDescriptor row.document = true)
      ("Staging document " ++ idText "std" id ++ " is invalid")
    return { db with stagingDocuments := update db.stagingDocuments (archivedStaging observedAt row) }

def applyCandidate (observedAt : Timestamp) (db : Database) (candidate : RetentionCandidate) :
    Except String Database :=
  match candidate.action with
  | .archiveRawArtifact => archiveRawArtifact db candidate.id
  | .archiveDerivedDocument => archiveStagingDocument observedAt db candidate.id

/-- The candidates without a hold. -/
def actionableOf (candidates : List RetentionCandidate) : List RetentionCandidate :=
  candidates.filter fun candidate => decide (candidate.holdReasons = [])

/-- The transaction of a call. -/
def executeBody (executionId : String) (input : RetentionInput) (limit : Nat) (db : Database) :
    Except String (RetentionExecutionResult × Database) := do
  let evidence ← evidenceSetReferences db
  let workspaces ← loadWorkspaces db input.workspaceId
  require (input.workspaceId ≠ none → workspaces ≠ [])
    ("Workspace " ++ idText "wsp" (input.workspaceId.getD 0) ++ " was not found")
  let scan ← scanWorkspaces db evidence input.observedAt limit workspaces ⟨[], false⟩
  let actionable := actionableOf scan.candidates
  let applied := if input.mode = .apply then actionable else []
  let archived ← applied.foldlM (applyCandidate input.observedAt) db
  let result : RetentionExecutionResult :=
    { executionId := executionId
      mode := input.mode
      observedAt := input.observedAt
      workspaceId := input.workspaceId
      scanned := scan.candidates.length
      actionable := actionable.length
      held := scan.candidates.length - actionable.length
      applied := applied.length
      truncated := scan.truncated
      candidates := scan.candidates }
  return (result, { archived with audits := some (archived.audits.getD [] ++ [result]) })

def executeRetentionPolicy (defaultWorkspaceId : Id) (executionId : String) (input : RetentionInput)
    (db : Database) : Except String RetentionExecutionResult × Database :=
  let db := ensureRetentionAudit defaultWorkspaceId db
  commit (fun db => do
    require (isDate input.observedAt = true) "observedAt is invalid"
    let limit ← normalizeLimit input.limit
    executeBody executionId input limit db) db

end MarkorbitKnowledge.Retention
