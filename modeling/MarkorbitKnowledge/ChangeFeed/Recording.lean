import MarkorbitKnowledge.ChangeFeed.DiffLaws
import MarkorbitKnowledge.Execution.Store
import Mathlib.Data.List.MinMax

/-!
# The document change feed

`recordIndexedVersion` compares a newly indexed version with the nearest earlier one and stores an
event of the feed; `compareVersions` compares two stored versions.  Both say `UNCHANGED` exactly
where an earlier version is there and every heading path has the same texts in both: an edit of a
section is never reported so, a move of a section past one with another path always.
-/

namespace MarkorbitKnowledge.ChangeFeed

open Contracts Fallible

/-- What a call throws: a `RegistryError`, or the error of a violated constraint. -/
inductive ChangeFeedError where
  | registry (code message : String)
  | constraint (columns : String)
deriving DecidableEq

/-- `new RegistryValidationError(message)`. -/
def ChangeFeedError.validation (message : String) : ChangeFeedError :=
  registry "REGISTRY_VALIDATION_ERROR" message

/-- What the feed reads of a `RetrievalDocument`. -/
structure RetrievalDocument where
  documentId : String
  workspaceId : String
  sourceId : String
  stagingDocumentId : String
  logicalDocumentId : Option String
  artifactVersion : Nat
  contentSha256 : String
  indexedAt : String
  isCurrent : Bool
deriving DecidableEq

inductive DocumentChangeKind where
  | created
  | updated
  | unchanged
deriving DecidableEq

structure DocumentChangeSummary where
  addedSections : Nat
  removedSections : Nat
  modifiedSections : Nat
  changedSections : Nat
deriving DecidableEq

structure DocumentChangeEvent where
  id : String
  sequence : Nat
  workspaceId : String
  documentId : String
  logicalDocumentId : Option String
  sourceId : String
  changeKind : DocumentChangeKind
  fromVersion : Option Nat
  toVersion : Nat
  fromStagingDocumentId : Option String
  toStagingDocumentId : String
  fromContentSha256 : Option String
  toContentSha256 : String
  summary : DocumentChangeSummary
  observedAt : String
deriving DecidableEq

/-- A row of `document_change_sections`. -/
structure SectionRow where
  eventId : String
  change : DocumentSectionChange
deriving DecidableEq

/-- The tables the feed reads and writes; `lastSequence` is what `AUTOINCREMENT` remembers. -/
structure Database where
  documents : List RetrievalDocument
  chunks : List RetrievalChunk
  events : List DocumentChangeEvent
  sections : List SectionRow
  lastSequence : Nat

variable (platform : Platform)

def summary (sections : List DocumentSectionChange) : DocumentChangeSummary :=
  let addedSections := (sections.filter fun s => s.changeKind = .added).length
  let removedSections := (sections.filter fun s => s.changeKind = .removed).length
  let modifiedSections := (sections.filter fun s => s.changeKind = .modified).length
  { addedSections := addedSections
    removedSections := removedSections
    modifiedSections := modifiedSections
    changedSections := addedSections + removedSections + modifiedSections }

def classifyChange (previous : Option RetrievalDocument) (sections : List DocumentSectionChange) :
    DocumentChangeKind :=
  if previous.isNone then .created else if sections.length = 0 then .unchanged else .updated

/-- The text of an event id is hashed with a NUL between its parts. -/
def eventId (workspaceId documentId : String) (previous : Option RetrievalDocument)
    (current : RetrievalDocument) : String :=
  let parts := [workspaceId, documentId, (previous.map (·.stagingDocumentId)).getD "",
    current.stagingDocumentId, current.contentSha256]
  let digest := platform.sha256 (Text.units ("\u0000".intercalate parts).toList)
  "dce_" ++ String.ofList (digest.toList.take 32)

/-! ### Reading -/

/-- `ORDER BY artifact_version DESC LIMIT 1`. -/
def previousDocument (db : Database) (document : RetrievalDocument) : Option RetrievalDocument :=
  (db.documents.filter fun d => d.workspaceId = document.workspaceId ∧
      d.documentId = document.documentId ∧ d.artifactVersion < document.artifactVersion).argmax
    (·.artifactVersion)

def requireDocument (db : Database) (workspaceId documentId : String) (artifactVersion : Nat) :
    Except ChangeFeedError RetrievalDocument :=
  orThrow (db.documents.find? fun d => d.workspaceId = workspaceId ∧ d.documentId = documentId ∧
      d.artifactVersion = artifactVersion)
    (.registry "CHANGE_FEED_VERSION_NOT_FOUND" ("Retrieval document " ++ documentId ++ " version " ++
      toString artifactVersion ++ " was not found"))

/-- The chunks of a document of the workspace. -/
def loadChunks (db : Database) (stagingDocumentId workspaceId : String) : List RetrievalChunk :=
  sortChunks (db.chunks.filter fun c => c.stagingDocumentId = stagingDocumentId ∧
    ∃ d ∈ db.documents, d.stagingDocumentId = c.stagingDocumentId ∧ d.workspaceId = workspaceId)

/-- The chunks of the version a document is compared with, none when there is none. -/
def beforeChunks (db : Database) (previous : Option RetrievalDocument) (workspaceId : String) :
    List RetrievalChunk :=
  (previous.map fun p => loadChunks db p.stagingDocumentId workspaceId).getD []

/-! ### Recording a version -/

structure RecordIndexedVersionResult where
  event : Option DocumentChangeEvent
  replayed : Bool
deriving DecidableEq

/-- The event a version is recorded as. -/
def changeEvent (document : RetrievalDocument) (previous : Option RetrievalDocument)
    (kind : DocumentChangeKind) (changeSummary : DocumentChangeSummary) (sequence : Nat) :
    DocumentChangeEvent where
  id := eventId platform document.workspaceId document.documentId previous document
  sequence := sequence
  workspaceId := document.workspaceId
  documentId := document.documentId
  logicalDocumentId := document.logicalDocumentId
  sourceId := document.sourceId
  changeKind := kind
  fromVersion := previous.map (·.artifactVersion)
  toVersion := document.artifactVersion
  fromStagingDocumentId := previous.map (·.stagingDocumentId)
  toStagingDocumentId := document.stagingDocumentId
  fromContentSha256 := previous.map (·.contentSha256)
  toContentSha256 := document.contentSha256
  summary := changeSummary
  observedAt := document.indexedAt

def insertEvent (event : DocumentChangeEvent) (sections : List DocumentSectionChange)
    (db : Database) : Except ChangeFeedError Database := do
  require (0 < event.toVersion) (.constraint "document_change_events.to_version")
  require (∀ e ∈ db.events, e.id ≠ event.id) (.constraint "document_change_events.id")
  require (∀ e ∈ db.events, e.toStagingDocumentId ≠ event.toStagingDocumentId)
    (.constraint "document_change_events.to_staging_document_id")
  require (∀ e ∈ db.events, ¬(e.workspaceId = event.workspaceId ∧
      e.documentId = event.documentId ∧ e.toVersion = event.toVersion))
    (.constraint "document_change_events.workspace_id, document_change_events.document_id, to_version")
  return { db with
    events := db.events ++ [event]
    sections := db.sections ++ sections.map fun s => ⟨event.id, s⟩
    lastSequence := event.sequence }

def recordBody (document : RetrievalDocument) (chunks : List RetrievalChunk) (db : Database) :
    Except ChangeFeedError (RecordIndexedVersionResult × Database) := do
  let previous := previousDocument db document
  let sections :=
    sectionDiff platform (beforeChunks db previous document.workspaceId) chunks
  let kind := classifyChange previous sections
  let persistedSections := if kind = .unchanged then [] else sections
  let event := changeEvent platform document previous kind (summary persistedSections)
    (db.lastSequence + 1)
  let db' ← insertEvent event persistedSections db
  return (⟨some event, false⟩, db')

def recordIndexedVersion (document : RetrievalDocument) (chunks : List RetrievalChunk)
    (db : Database) : Except ChangeFeedError RecordIndexedVersionResult × Database :=
  if document.isCurrent = false then (.ok ⟨none, false⟩, db)
  else if ∃ chunk ∈ chunks, chunk.stagingDocumentId ≠ document.stagingDocumentId ∨
      chunk.documentId ≠ document.documentId ∨ chunk.artifactVersion ≠ document.artifactVersion then
    (.error (.registry "CHANGE_FEED_CHUNK_PROVENANCE_MISMATCH"
      "Retrieval chunks do not belong to the indexed document version"), db)
  else
    match db.events.find? fun e => e.toStagingDocumentId = document.stagingDocumentId with
    | some replay => (.ok ⟨some replay, true⟩, db)
    | none => commit (recordBody platform document chunks) db

/-! ### Comparing two versions -/

structure DocumentVersionDiff where
  workspaceId : String
  documentId : String
  logicalDocumentId : Option String
  sourceId : String
  changeKind : DocumentChangeKind
  fromVersion : Option Nat
  toVersion : Nat
  fromContentSha256 : Option String
  toContentSha256 : String
  summary : DocumentChangeSummary
  sections : List DocumentSectionChange
deriving DecidableEq

def compareVersions (db : Database) (workspaceId documentId : String) (fromVersion : Option Nat)
    (toVersion : Nat) : Except ChangeFeedError DocumentVersionDiff := do
  require (trim workspaceId ≠ "" ∧ trim documentId ≠ "")
    (.validation "workspaceId and documentId are required")
  require (0 < toVersion ∧ toVersion ≤ 9007199254740991)
    (.validation "toVersion must be a positive integer")
  require (∀ v ∈ fromVersion, 0 < v ∧ v ≤ 9007199254740991)
    (.validation "fromVersion must be null or a positive integer")
  require (∀ v ∈ fromVersion, v < toVersion) (.validation "fromVersion must be lower than toVersion")
  let current ← requireDocument db workspaceId documentId toVersion
  let previous ← fromVersion.mapM (requireDocument db workspaceId documentId)
  require (∀ p ∈ previous, p.sourceId = current.sourceId)
    (.registry "CHANGE_FEED_SOURCE_MISMATCH"
      "Compared document versions belong to different sources")
  let afterChunks := loadChunks db current.stagingDocumentId workspaceId
  let rawSections := sectionDiff platform (beforeChunks db previous workspaceId) afterChunks
  let kind := classifyChange previous rawSections
  let sections := if kind = .unchanged then [] else rawSections
  return {
    workspaceId := workspaceId
    documentId := documentId
    logicalDocumentId := current.logicalDocumentId
    sourceId := current.sourceId
    changeKind := kind
    fromVersion := fromVersion
    toVersion := toVersion
    fromContentSha256 := previous.map (·.contentSha256)
    toContentSha256 := current.contentSha256
    summary := summary sections
    sections := sections }

/-! ### What is reported as unchanged -/

/-- Every heading path has the same texts in the same order in both documents. -/
def SameTexts (before after : List RetrievalChunk) : Prop :=
  ∀ path, textsUnder platform path before = textsUnder platform path after

variable {platform}

theorem classifyChange_eq_unchanged (hsha : Function.Injective platform.sha256)
    {previous : Option RetrievalDocument} {before after : List RetrievalChunk} :
    classifyChange previous (sectionDiff platform before after) = .unchanged ↔
      previous.isSome = true ∧ SameTexts platform before after := by
  rw [SameTexts, ← sectionDiff_eq_nil_iff hsha, ← List.length_eq_zero_iff, classifyChange]
  cases previous with
  | none => simp
  | some p =>
    by_cases h : (sectionDiff platform before after).length = 0
    · simp [h]
    · simp [h]

/-- What recording a version does where it publishes a new event. -/
theorem recordIndexedVersion_eq_ok {document : RetrievalDocument} {chunks : List RetrievalChunk}
    {db : Database} {event : DocumentChangeEvent}
    (h : (recordIndexedVersion platform document chunks db).1 = .ok ⟨some event, false⟩) :
    event.changeKind = classifyChange (previousDocument db document)
        (sectionDiff platform
          (beforeChunks db (previousDocument db document) document.workspaceId) chunks) ∧
      event ∈ (recordIndexedVersion platform document chunks db).2.events := by
  unfold recordIndexedVersion at h ⊢
  split at h
  · cases h
  · rename_i hcurrent
    rw [if_neg hcurrent]
    split at h
    · cases h
    · rename_i hprovenance
      rw [if_neg hprovenance]
      split at h
      · cases h
      · obtain ⟨db', hbody⟩ := commit_fst_ok h
        rw [commit_of_ok hbody]
        simp only [recordBody, insertEvent, bind_eq_ok, require_eq_ok, pure_eq_ok, Prod.mk.injEq,
          RecordIndexedVersionResult.mk.injEq, Option.some.injEq] at hbody
        obtain ⟨_, ⟨-, -, -, -, -, -, -, -, rfl⟩, ⟨hevent, -⟩, rfl⟩ := hbody
        refine ⟨?_, ?_⟩
        · rw [← hevent]
          rfl
        · exact List.mem_append_right _ (List.mem_singleton.mpr hevent.symm)

theorem compareVersions_eq_ok {db : Database} {workspaceId documentId : String}
    {fromVersion : Option Nat} {toVersion : Nat} {diff : DocumentVersionDiff}
    (h : compareVersions platform db workspaceId documentId fromVersion toVersion = .ok diff) :
    ∃ current previous, requireDocument db workspaceId documentId toVersion = .ok current ∧
      fromVersion.mapM (requireDocument db workspaceId documentId) = .ok previous ∧
      diff.changeKind = classifyChange previous (sectionDiff platform
        (beforeChunks db previous workspaceId) (loadChunks db current.stagingDocumentId workspaceId)) := by
  simp only [compareVersions, bind_eq_ok, require_eq_ok, pure_eq_ok] at h
  obtain ⟨-, -, -, -, -, -, -, -, current, hcurrent, previous, hprevious, -, -, rfl⟩ := h
  exact ⟨current, previous, hcurrent, hprevious, rfl⟩

/-- Where digests tell texts apart, a diff is empty exactly where every heading path has the same
    texts in both documents, it turns the sections of the first into those of the second, and
    exchanging the documents exchanges the sides of its changes; and what is recorded or compared is
    UNCHANGED exactly where an earlier version has the same texts under every heading path. -/
theorem sectionDiff_compares_paths (platform : Platform)
    (hsha : Function.Injective platform.sha256) :
    (∀ before after,
      (sectionDiff platform before after = [] ↔ SameTexts platform before after) ∧
      (orderedChanges platform before after).foldl applyChange (sectionMap platform before) =
        sectionMap platform after ∧
      (sectionDiff platform before after).map (·.toSectionChange) =
        (orderedChanges platform before after).map (·.change) ∧
      ((sectionDiff platform after before).map (·.toSectionChange)).Perm
        ((sectionDiff platform before after).map (·.toSectionChange.swap))) ∧
    (∀ db document chunks event,
      (recordIndexedVersion platform document chunks db).1 = .ok ⟨some event, false⟩ →
      event ∈ (recordIndexedVersion platform document chunks db).2.events ∧
      (event.changeKind = .unchanged ↔ ∃ previous, previousDocument db document = some previous ∧
        SameTexts platform (loadChunks db previous.stagingDocumentId document.workspaceId) chunks)) ∧
    ∀ db workspaceId documentId fromVersion toVersion diff,
      compareVersions platform db workspaceId documentId fromVersion toVersion = .ok diff →
      ∃ current previous, requireDocument db workspaceId documentId toVersion = .ok current ∧
        fromVersion.mapM (requireDocument db workspaceId documentId) = .ok previous ∧
        (diff.changeKind = .unchanged ↔ ∃ p, previous = some p ∧
          SameTexts platform (loadChunks db p.stagingDocumentId workspaceId)
            (loadChunks db current.stagingDocumentId workspaceId)) := by
  -- the chunks of the previous version, where there is one
  have hprevious : ∀ (db : Database) (previous : Option RetrievalDocument) workspaceId after,
      (previous.isSome = true ∧ SameTexts platform (beforeChunks db previous workspaceId) after) ↔
        ∃ p, previous = some p ∧
          SameTexts platform (loadChunks db p.stagingDocumentId workspaceId) after := by
    intro db previous workspaceId after
    cases previous with
    | none => simp
    | some p => simp [beforeChunks]
  refine ⟨fun before after => ?_, ?_, ?_⟩
  · exact ⟨sectionDiff_eq_nil_iff hsha, apply_orderedChanges hsha, map_sectionDiff,
      sectionDiff_swap platform before after⟩
  · intro db document chunks event h
    obtain ⟨hkind, hpublished⟩ := recordIndexedVersion_eq_ok h
    refine ⟨hpublished, ?_⟩
    rw [hkind, classifyChange_eq_unchanged hsha]
    exact hprevious db _ _ _
  · intro db workspaceId documentId fromVersion toVersion diff h
    obtain ⟨current, previous, hcurrent, hfrom, hkind⟩ := compareVersions_eq_ok h
    refine ⟨current, previous, hcurrent, hfrom, ?_⟩
    rw [hkind, classifyChange_eq_unchanged hsha]
    exact hprevious db _ _ _

/-! ### Sections that change places -/

/-- Digests that spell their texts out. -/
def spelledOut : Platform where
  sha256 := fun s => String.ofList (quoted s)
  localeCompare := fun left right => if left < right then -1 else if right < left then 1 else 0

theorem spelledOut_injective : Function.Injective spelledOut.sha256 := by
  intro s t h
  have hquoted : quoted s = quoted t := String.ofList_injective h
  have hparse := parseJson_quoted s
  rw [hquoted, parseJson_quoted] at hparse
  exact (Option.some.inj hparse).symm

/-- A section of one chunk, whose heading and text are the letter. -/
def letterChunk (staging : String) (artifactVersion : Nat) (ordinal : Int) (letter : Char) :
    RetrievalChunk where
  chunkId := staging ++ ":" ++ letter.toString
  documentId := "doc_1"
  stagingDocumentId := staging
  artifactVersion := artifactVersion
  ordinal := ordinal
  headingPath := [utf16 letter]
  text := utf16 letter

def sectionsAB : List RetrievalChunk := [letterChunk "stg_1" 1 1 'A', letterChunk "stg_1" 1 2 'B']

def sectionsBA : List RetrievalChunk := [letterChunk "stg_2" 2 1 'B', letterChunk "stg_2" 2 2 'A']

def versionDocument (staging : String) (artifactVersion : Nat) (isCurrent : Bool) :
    RetrievalDocument where
  documentId := "doc_1"
  workspaceId := "wsp_1"
  sourceId := "src_1"
  stagingDocumentId := staging
  logicalDocumentId := none
  artifactVersion := artifactVersion
  contentSha256 := staging
  indexedAt := "2026-01-01T00:00:00.000Z"
  isCurrent := isCurrent

/-- Version 1 is stored, and version 2 was just indexed. -/
def secondVersion : Database where
  documents := [versionDocument "stg_1" 1 false, versionDocument "stg_2" 2 true]
  chunks := sectionsAB ++ sectionsBA
  events := []
  sections := []
  lastSequence := 0

/-- Two sections change places: what the documents say differs, their diff is empty, and the second
    version is published as UNCHANGED. -/
theorem reordered_sections_unchanged :
    Function.Injective spelledOut.sha256 ∧
      outline spelledOut sectionsAB ≠ outline spelledOut sectionsBA ∧
      sectionDiff spelledOut sectionsAB sectionsBA = [] ∧
      (recordIndexedVersion spelledOut (versionDocument "stg_2" 2 true) sectionsBA
        secondVersion).1.toOption.map (fun result => result.event.map (·.changeKind)) =
          some (some .unchanged) :=
  ⟨spelledOut_injective, by decide +kernel, by decide +kernel, by decide +kernel⟩

/-- The digests of the sample are the real ones of the texts `A` and `B`. -/
def letterDigests : Platform where
  sha256 := fun s =>
    if s = utf16 'A' then "559aead08264d5795d3909718cdd05abd49572e84fe55590eef31a88a08fdffd"
    else if s = utf16 'B' then "df7e70e5021544f4834bbee64a9e3789febc4be81470df629cad6ddb03320a5c"
    else String.ofList (quoted s)
  localeCompare := spelledOut.localeCompare

theorem sectionDiff_compares_paths_letters :
    Function.Injective letterDigests.sha256 ∧
      (sectionDiff letterDigests sectionsAB [letterChunk "stg_2" 2 1 'A'] = [] ↔
        SameTexts letterDigests sectionsAB [letterChunk "stg_2" 2 1 'A']) := by
  have hinjective : Function.Injective letterDigests.sha256 := by
    have hquote : ∀ (s : JsString) (digest : String), digest.toList.head? ≠ some '"' →
        String.ofList (quoted s) ≠ digest := by
      rintro s _ hhead rfl
      exact hhead (by simp [quoted])
    intro s t h
    simp only [letterDigests] at h
    split_ifs at h with hs ht hb hc hd
    · rw [hs, ht]
    · exact absurd h (by decide)
    · exact absurd h.symm (hquote t _ (by decide))
    · exact absurd h (by decide)
    · simp_all
    · exact absurd h.symm (hquote t _ (by decide))
    · exact absurd h (hquote s _ (by decide))
    · exact absurd h (hquote s _ (by decide))
    · exact spelledOut_injective h
  exact ⟨hinjective, ((sectionDiff_compares_paths letterDigests hinjective).1 _ _).1⟩

end MarkorbitKnowledge.ChangeFeed
