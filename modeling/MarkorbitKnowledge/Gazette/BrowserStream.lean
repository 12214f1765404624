import MarkorbitKnowledge.Gazette.SourcePage
import Mathlib.Data.List.Dedup
import Mathlib.Data.List.Sort

/-!
# The browser stream of the gazette

The second half of `cnipa-gazette-browser-stream.ts`: the state of a stream, its reader, and how the
rows of one more source page are cut into logical pages of 100 rows.
-/

namespace MarkorbitKnowledge.Gazette

open Contracts Fallible

def CNIPA_GAZETTE_PAGE_SIZE : Nat := 100

structure CnipaGazetteBrowserLogicalPage where
  pageIndex : Nat
  pageSize : Nat
  sourceTotal : Nat
  sourcePages : Nat
  announcementDate : Option String
  rows : List CnipaGazetteRuntimeRow
  sourcePageIndices : List Nat
  observedAt : String
deriving DecidableEq

structure CnipaGazetteBrowserStreamState where
  sessionId : String
  sessionFingerprintSha256 : Digest
  nextSourcePageIndex : Nat
  nextLogicalPageIndex : Nat
  rowsSeen : Nat
  tailRows : List CnipaGazetteRuntimeRow
  tailSourcePageIndices : List Nat
  previousSourceRowIds : List String
  previousSourcePageSignatureSha256 : Option Digest
  completed : Bool
deriving DecidableEq

def createCnipaGazetteBrowserStreamState (hashes : Hashes)
    (session : CnipaGazetteBrowserStreamSession) : CnipaGazetteBrowserStreamState where
  sessionId := session.sessionId
  sessionFingerprintSha256 := hashes.ofSession session
  nextSourcePageIndex := 1
  nextLogicalPageIndex := 1
  rowsSeen := 0
  tailRows := []
  tailSourcePageIndices := []
  previousSourceRowIds := []
  previousSourcePageSignatureSha256 := none
  completed := false

def logicalPageCount (sourceTotal : Nat) : Nat := max 1 (ceilDiv sourceTotal CNIPA_GAZETTE_PAGE_SIZE)

/-! ### Reading a state -/

def pageNumberJson : Option Nat → Option Json
  | none => some .null
  | some n => some (.number n)

def normalizePersistedRuntimeRow (row : CnipaGazetteRuntimeRow)
    (session : CnipaGazetteBrowserStreamSession) (label : String) :
    Except String CnipaGazetteRuntimeRow := do
  let sourceRowId ← requiredText (some (.text row.sourceRowId)) (label ++ ".sourceRowId") 256
  let sourceSearchId ← optionalText (some (.text row.sourceSearchId)) (label ++ ".sourceSearchId") 256
  require (sourceSearchId = "" ∨ sourceSearchId = sourceRowId)
    (label ++ ".sourceSearchId must match sourceRowId")
  let announcementIssue ←
    integer (some (.number row.announcementIssue)) (label ++ ".announcementIssue") 1
  require (announcementIssue = session.announcementIssue) (label ++ ".announcementIssue mismatch")
  let registrationNumber ←
    requiredText (some (.text row.registrationNumber)) (label ++ ".registrationNumber") 128
  let announcementTypeCode ←
    requiredText (some (.text row.announcementTypeCode)) (label ++ ".announcementTypeCode") 128
  let announcementTypeName ←
    optionalText (some (.text row.announcementTypeName)) (label ++ ".announcementTypeName") 512
  let detailPageNo ← positiveIntegerOrNull (pageNumberJson row.detailPageNo) (label ++ ".detailPageNo")
  let announcementPageCount ←
    positiveIntegerOrNull (pageNumberJson row.announcementPageCount) (label ++ ".announcementPageCount")
  let detailFileId ← optionalText (some (.text row.detailFileId)) (label ++ ".detailFileId") 256
  let detailAssetPath ←
    optionalText (some (.text row.detailAssetPath)) (label ++ ".detailAssetPath") 4096
  let announcementDetailUrl ←
    optionalText (some (.text row.announcementDetailUrl)) (label ++ ".announcementDetailUrl") 4096
  pure
    { sourceRowId, sourceSearchId, registrationNumber, announcementIssue, announcementTypeCode
      announcementTypeName, detailPageNo, announcementPageCount, detailFileId, detailAssetPath
      announcementDetailUrl }

/-- The counts of a state, against those of its session. -/
structure StateProgress (session : CnipaGazetteBrowserStreamSession)
    (state : CnipaGazetteBrowserStreamState) : Prop where
  sourcePages : state.nextSourcePageIndex ≤ session.sourcePages + 1
  logicalPages : state.nextLogicalPageIndex ≤ logicalPageCount session.sourceTotal + 1
  rows : state.rowsSeen ≤ session.sourceTotal
  tail : ∀ pageIndex ∈ state.tailSourcePageIndices, pageIndex < state.nextSourcePageIndex

structure CompletedState (session : CnipaGazetteBrowserStreamSession)
    (state : CnipaGazetteBrowserStreamState) : Prop where
  sourcePages : state.nextSourcePageIndex = session.sourcePages + 1
  logicalPages : state.nextLogicalPageIndex = logicalPageCount session.sourceTotal + 1
  rows : state.rowsSeen = session.sourceTotal
  tailRows : state.tailRows = []
  tailIndices : state.tailSourcePageIndices = []
  previousIds : state.previousSourceRowIds.length =
    expectedRows session.sourceTotal session.sourcePageSize session.sourcePages session.sourcePages
  signature : state.previousSourcePageSignatureSha256 ≠ none

structure IncompleteState (session : CnipaGazetteBrowserStreamSession)
    (state : CnipaGazetteBrowserStreamState) : Prop where
  sourcePages : state.nextSourcePageIndex ≤ session.sourcePages
  rows : state.rowsSeen = (state.nextSourcePageIndex - 1) * session.sourcePageSize
  tailRows : state.tailRows.length = state.rowsSeen % CNIPA_GAZETTE_PAGE_SIZE
  logicalPages : state.nextLogicalPageIndex = state.rowsSeen / CNIPA_GAZETTE_PAGE_SIZE + 1
  previousIds : state.previousSourceRowIds.length =
    if state.nextSourcePageIndex = 1 then 0 else session.sourcePageSize
  signature : state.previousSourcePageSignatureSha256 = none ↔ state.nextSourcePageIndex = 1

section Decisions

variable (session : CnipaGazetteBrowserStreamSession) (state : CnipaGazetteBrowserStreamState)

instance : Decidable (StateProgress session state) :=
  decidable_of_iff
    (state.nextSourcePageIndex ≤ session.sourcePages + 1 ∧
      state.nextLogicalPageIndex ≤ logicalPageCount session.sourceTotal + 1 ∧
      state.rowsSeen ≤ session.sourceTotal ∧
      ∀ pageIndex ∈ state.tailSourcePageIndices, pageIndex < state.nextSourcePageIndex)
    ⟨fun ⟨hs, hl, hr, ht⟩ => ⟨hs, hl, hr, ht⟩, fun ⟨hs, hl, hr, ht⟩ => ⟨hs, hl, hr, ht⟩⟩

instance : Decidable (CompletedState session state) :=
  decidable_of_iff
    (state.nextSourcePageIndex = session.sourcePages + 1 ∧
      state.nextLogicalPageIndex = logicalPageCount session.sourceTotal + 1 ∧
      state.rowsSeen = session.sourceTotal ∧ state.tailRows = [] ∧ state.tailSourcePageIndices = [] ∧
      state.previousSourceRowIds.length = expectedRows session.sourceTotal session.sourcePageSize
        session.sourcePages session.sourcePages ∧
      state.previousSourcePageSignatureSha256 ≠ none)
    ⟨fun ⟨hs, hl, hr, ht, hi, hp, hn⟩ => ⟨hs, hl, hr, ht, hi, hp, hn⟩,
      fun ⟨hs, hl, hr, ht, hi, hp, hn⟩ => ⟨hs, hl, hr, ht, hi, hp, hn⟩⟩

instance : Decidable (IncompleteState session state) :=
  decidable_of_iff
    (state.nextSourcePageIndex ≤ session.sourcePages ∧
      state.rowsSeen = (state.nextSourcePageIndex - 1) * session.sourcePageSize ∧
      state.tailRows.length = state.rowsSeen % CNIPA_GAZETTE_PAGE_SIZE ∧
      state.nextLogicalPageIndex = state.rowsSeen / CNIPA_GAZETTE_PAGE_SIZE + 1 ∧
      state.previousSourceRowIds.length =
        (if state.nextSourcePageIndex = 1 then 0 else session.sourcePageSize) ∧
      (state.previousSourcePageSignatureSha256 = none ↔ state.nextSourcePageIndex = 1))
    ⟨fun ⟨hs, hr, ht, hl, hp, hn⟩ => ⟨hs, hr, ht, hl, hp, hn⟩,
      fun ⟨hs, hr, ht, hl, hp, hn⟩ => ⟨hs, hr, ht, hl, hp, hn⟩⟩

end Decisions

def parseCnipaGazetteBrowserStreamState (hashes : Hashes) (state : CnipaGazetteBrowserStreamState)
    (session : CnipaGazetteBrowserStreamSession) : Except String CnipaGazetteBrowserStreamState := do
  require (state.sessionId = session.sessionId) "state sessionId mismatch"
  require (state.sessionFingerprintSha256 = hashes.ofSession session)
    "state session fingerprint mismatch"
  let tailRows ← state.tailRows.zipIdx.mapM fun (row, index) =>
    normalizePersistedRuntimeRow row session ("state.tailRows[" ++ toString index ++ "]")
  require (tailRows.length < CNIPA_GAZETTE_PAGE_SIZE) "state.tailRows must stay below one logical page"
  let tailSourcePageIndices ← state.tailSourcePageIndices.zipIdx.mapM fun (value, index) =>
    integer (some (.number value)) ("state.tailSourcePageIndices[" ++ toString index ++ "]") 1
  require (tailSourcePageIndices.length = tailRows.length ∧
      ∀ pageIndex ∈ tailSourcePageIndices, pageIndex ≤ session.sourcePages)
    "state tail provenance is internally inconsistent"
  let previousSourceRowIds ← state.previousSourceRowIds.zipIdx.mapM fun (value, index) =>
    requiredText (some (.text value)) ("state.previousSourceRowIds[" ++ toString index ++ "]") 256
  require (previousSourceRowIds.length ≤ session.sourcePageSize)
    "state.previousSourceRowIds exceeds source page size"
  let nextSourcePageIndex ←
    integer (some (.number state.nextSourcePageIndex)) "state.nextSourcePageIndex" 1
  let nextLogicalPageIndex ←
    integer (some (.number state.nextLogicalPageIndex)) "state.nextLogicalPageIndex" 1
  let rowsSeen ← integer (some (.number state.rowsSeen)) "state.rowsSeen" 0
  let parsed : CnipaGazetteBrowserStreamState :=
    { state with
      nextSourcePageIndex, nextLogicalPageIndex, rowsSeen, tailRows, tailSourcePageIndices
      previousSourceRowIds }
  require (StateProgress session parsed) "state progress exceeds the browser-stream session bounds"
  require (state.completed = true → CompletedState session parsed)
    "completed state is internally inconsistent"
  require (state.completed = false → IncompleteState session parsed)
    "incomplete state is internally inconsistent"
  pure parsed

/-! ### Accepting a source page -/

/-- `[...new Set(values)].sort((left, right) => left - right)`. -/
def sortedSet (values : List Nat) : List Nat := values.dedup.insertionSort (· ≤ ·)

/-- The rows that are not cut into logical pages yet, with the source pages they are from. -/
structure Carried where
  nextLogicalPageIndex : Nat
  rows : List CnipaGazetteRuntimeRow
  sourcePageIndices : List Nat

/-- What is left after one logical page. -/
def Carried.splice (carried : Carried) : Carried where
  nextLogicalPageIndex := carried.nextLogicalPageIndex + 1
  rows := carried.rows.drop CNIPA_GAZETTE_PAGE_SIZE
  sourcePageIndices := carried.sourcePageIndices.drop CNIPA_GAZETTE_PAGE_SIZE

/-- `while (combined.length >= CNIPA_GAZETTE_PAGE_SIZE)`. -/
def cutLogicalPages (make : Nat → List CnipaGazetteRuntimeRow → List Nat → CnipaGazetteBrowserLogicalPage) :
    Nat → Carried → List CnipaGazetteBrowserLogicalPage × Carried
  | 0, carried => ([], carried)
  | fuel + 1, carried =>
    if CNIPA_GAZETTE_PAGE_SIZE ≤ carried.rows.length then
      let page := make carried.nextLogicalPageIndex (carried.rows.take CNIPA_GAZETTE_PAGE_SIZE)
        (sortedSet (carried.sourcePageIndices.take CNIPA_GAZETTE_PAGE_SIZE))
      let rest := cutLogicalPages make fuel carried.splice
      (page :: rest.1, rest.2)
    else ([], carried)

/-- The last logical page, of what is carried after the last source page. -/
def cutLastPage (make : Nat → List CnipaGazetteRuntimeRow → List Nat → CnipaGazetteBrowserLogicalPage)
    (isLast : Bool) (sourceTotal : Nat) (carried : Carried) :
    List CnipaGazetteBrowserLogicalPage × Carried :=
  if isLast = true ∧ (carried.rows ≠ [] ∨ sourceTotal = 0) then
    ([make carried.nextLogicalPageIndex carried.rows (sortedSet carried.sourcePageIndices)],
      ⟨carried.nextLogicalPageIndex + 1, [], []⟩)
  else ([], carried)

structure SamePagination (session : CnipaGazetteBrowserStreamSession)
    (page : CnipaGazetteBrowserSourcePage) : Prop where
  size : page.sourcePageSize = session.sourcePageSize
  total : page.sourceTotal = session.sourceTotal
  pages : page.sourcePages = session.sourcePages
  date : page.announcementDate = session.announcementDate

instance (session : CnipaGazetteBrowserStreamSession) (page : CnipaGazetteBrowserSourcePage) :
    Decidable (SamePagination session page) :=
  decidable_of_iff
    (page.sourcePageSize = session.sourcePageSize ∧ page.sourceTotal = session.sourceTotal ∧
      page.sourcePages = session.sourcePages ∧ page.announcementDate = session.announcementDate)
    ⟨fun ⟨hs, ht, hp, hd⟩ => ⟨hs, ht, hp, hd⟩, fun ⟨hs, ht, hp, hd⟩ => ⟨hs, ht, hp, hd⟩⟩

/-- A logical page that a source page completes. -/
def makeLogicalPage (session : CnipaGazetteBrowserStreamSession) (page : CnipaGazetteBrowserSourcePage)
    (pageIndex : Nat) (rows : List CnipaGazetteRuntimeRow) (sourcePageIndices : List Nat) :
    CnipaGazetteBrowserLogicalPage where
  pageIndex := pageIndex
  pageSize := CNIPA_GAZETTE_PAGE_SIZE
  sourceTotal := session.sourceTotal
  sourcePages := logicalPageCount session.sourceTotal
  announcementDate := session.announcementDate
  rows := rows
  sourcePageIndices := sourcePageIndices
  observedAt := page.observedAt

/-- The state after a source page, with what is left of its rows. -/
def stateAfterPage (hashes : Hashes) (session : CnipaGazetteBrowserStreamSession)
    (page : CnipaGazetteBrowserSourcePage) (rowsSeen : Nat) (left : Carried) :
    CnipaGazetteBrowserStreamState where
  sessionId := session.sessionId
  sessionFingerprintSha256 := hashes.ofSession session
  nextSourcePageIndex := page.sourcePageIndex + 1
  nextLogicalPageIndex := left.nextLogicalPageIndex
  rowsSeen := rowsSeen
  tailRows := left.rows
  tailSourcePageIndices := left.sourcePageIndices
  previousSourceRowIds := page.rows.map (·.sourceRowId)
  previousSourcePageSignatureSha256 := some page.pageSignatureSha256
  completed := decide (page.sourcePageIndex = session.sourcePages)

def acceptCnipaGazetteBrowserSourcePage (hashes : Hashes) (session : CnipaGazetteBrowserStreamSession)
    (state : CnipaGazetteBrowserStreamState) (page : CnipaGazetteBrowserSourcePage) :
    Except String (CnipaGazetteBrowserStreamState × List CnipaGazetteBrowserLogicalPage) := do
  let state ← parseCnipaGazetteBrowserStreamState hashes state session
  require (state.completed = false) "browser stream is already complete"
  require (page.sessionId = session.sessionId) "source page session mismatch"
  require (page.sourcePageIndex = state.nextSourcePageIndex)
    ("source page sequence mismatch: expected " ++ toString state.nextSourcePageIndex ++ ", got " ++
      toString page.sourcePageIndex)
  require (SamePagination session page) "source page drifted from browser-stream session"
  let overlap := page.rows.find? fun row => decide (row.sourceRowId ∈ state.previousSourceRowIds)
  require (overlap = none)
    ("source page " ++ toString page.sourcePageIndex ++
      " overlaps the prior source page at official id " ++ (overlap.map (·.sourceRowId)).getD "")
  require (state.previousSourcePageSignatureSha256 ≠ some page.pageSignatureSha256)
    ("source page " ++ toString page.sourcePageIndex ++ " repeats the prior source page")
  let finalSourcePage := decide (page.sourcePageIndex = session.sourcePages)
  let totalLogicalPages := logicalPageCount session.sourceTotal
  let make := makeLogicalPage session page
  let combined := state.tailRows ++ page.rows
  let cut := cutLogicalPages make combined.length
    { nextLogicalPageIndex := state.nextLogicalPageIndex, rows := combined
      sourcePageIndices :=
        state.tailSourcePageIndices ++ page.rows.map fun _ => page.sourcePageIndex }
  let last := cutLastPage make finalSourcePage session.sourceTotal cut.2
  let rowsSeen := state.rowsSeen + page.rows.length
  require (rowsSeen ≤ session.sourceTotal) "browser stream observed more rows than sourceTotal"
  require (finalSourcePage = true → rowsSeen = session.sourceTotal)
    ("browser stream terminal count mismatch: rows=" ++ toString rowsSeen ++ ", sourceTotal=" ++
      toString session.sourceTotal)
  require (finalSourcePage = true → last.2.rows = [] ∧ last.2.sourcePageIndices = [] ∧
      last.2.nextLogicalPageIndex = totalLogicalPages + 1)
    "browser stream logical normalization did not finish exactly at sourceTotal"
  require (finalSourcePage = false → rowsSeen < session.sourceTotal)
    "browser stream reached sourceTotal before the terminal source page"
  pure (stateAfterPage hashes session page rowsSeen last.2, cut.1 ++ last.1)

end MarkorbitKnowledge.Gazette
