import MarkorbitKnowledge.Gazette.CheckpointPlan

/-!
# Checkpoints and their packages

`cnipa-gazette-checkpoint-runtime.ts` and, of the browser stream, `…-browser-stream-artifacts.ts`,
`…-data-engine-handoff.ts` and `…-fact-admission-artifacts.ts`: the checkpoint built of the logical pages
of a range, the identity of the dataset, and the package of rows handed to the data engine.  A canonical
URI is given by what it names, so the parents of an artifact, which the source sorts as texts, stay in
the order in which they are found.
-/

namespace MarkorbitKnowledge.Gazette

open Contracts Fallible

/-! ### The runtime's checkpoint -/

def positiveSafe (value : Nat) (label : String) : Except String Nat := do
  require (isSafeInteger value = true ∧ 1 ≤ value) (label ++ " must be a positive safe integer")
  pure value

/-- `text` of the runtime. -/
def runtimeText (value label : String) (maximum : Nat) : Except String String := do
  require (trim value ≠ "" ∧ jsLength (trim value) ≤ maximum)
    (label ++ " must be non-empty and at most " ++ toString maximum ++ " characters")
  pure (trim value)

def runtimeOptionalText (value label : String) (maximum : Nat) : Except String String := do
  require (jsLength (trim value) ≤ maximum)
    (label ++ " must be at most " ++ toString maximum ++ " characters")
  pure (trim value)

def assertIsoDateOrNull (platform : Platform) (value : Option String) : Except String (Option String) := do
  require (∀ date ∈ value, platform.isDate date = true) "announcementDate must be YYYY-MM-DD or null"
  pure value

def positiveOrNull (value : Option Nat) (label : String) : Except String (Option Nat) :=
  match value with
  | none => pure none
  | some n => some <$> positiveSafe n label

/-- `normalizeRow` of the runtime. -/
def normalizeRuntimeRow (row : CnipaGazetteRuntimeRow) (expectedIssue : Nat) (label : String) :
    Except String CnipaGazetteRuntimeRow := do
  let sourceRowId ← runtimeText row.sourceRowId (label ++ ".sourceRowId") 256
  let sourceSearchId ← runtimeOptionalText row.sourceSearchId (label ++ ".sourceSearchId") 256
  require (sourceSearchId = "" ∨ sourceSearchId = sourceRowId)
    (label ++ ".sourceSearchId must match sourceRowId")
  require (row.announcementIssue = expectedIssue)
    (label ++ ".announcementIssue=" ++ toString row.announcementIssue ++
      " does not match target issue " ++ toString expectedIssue)
  let registrationNumber ←
    runtimeText row.registrationNumber (label ++ ".registrationNumber") 128
  let announcementTypeCode ←
    runtimeText row.announcementTypeCode (label ++ ".announcementTypeCode") 128
  let announcementTypeName ←
    runtimeOptionalText row.announcementTypeName (label ++ ".announcementTypeName") 512
  let detailPageNo ← positiveOrNull row.detailPageNo (label ++ ".detailPageNo")
  let announcementPageCount ← positiveOrNull row.announcementPageCount (label ++ ".announcementPageCount")
  let detailFileId ← runtimeOptionalText row.detailFileId (label ++ ".detailFileId") 256
  let detailAssetPath ← runtimeOptionalText row.detailAssetPath (label ++ ".detailAssetPath") 4096
  let announcementDetailUrl ←
    runtimeOptionalText row.announcementDetailUrl (label ++ ".announcementDetailUrl") 4096
  pure
    { sourceRowId, sourceSearchId, registrationNumber, announcementIssue := expectedIssue
      announcementTypeCode, announcementTypeName, detailPageNo, announcementPageCount, detailFileId
      detailAssetPath, announcementDetailUrl }

/-- The loop over the first pages of the ranges. -/
def pageRangesFrom (sourcePages chunk : Nat) : Nat → Nat → List CnipaGazettePageRange
  | 0, _ => []
  | fuel + 1, startPage =>
    if startPage ≤ sourcePages then
      ⟨startPage, min sourcePages (startPage + chunk - 1)⟩ ::
        pageRangesFrom sourcePages chunk fuel (startPage + chunk)
    else []

def planCnipaGazettePageRanges (sourcePages pagesPerCheckpoint : Nat) :
    Except String (List CnipaGazettePageRange) := do
  let sourcePages ← positiveSafe sourcePages "sourcePages"
  let chunk ← positiveSafe pagesPerCheckpoint "pagesPerCheckpoint"
  require (chunk ≤ CNIPA_GAZETTE_MAX_PAGES_PER_CHECKPOINT) "pagesPerCheckpoint must be <= 100"
  pure (pageRangesFrom sourcePages chunk sourcePages 1)

structure CnipaGazetteCheckpoint where
  announcementIssue : Nat
  sourceTotal : Nat
  sourcePages : Nat
  announcementDate : Option String
  range : CnipaGazettePageRange
  pages : List CnipaGazetteBrowserLogicalPage
  rowCount : Nat
  uniqueOfficialRowIds : Nat
deriving DecidableEq

/-- What the loop over the pages of a checkpoint has read. -/
structure CheckpointScan where
  sourceTotal : Option Nat
  sourcePages : Option Nat
  announcementDate : Option (Option String)
  rowCount : Nat
  ids : List String

def scanRow (issue pageIndex : Nat) (scan : CheckpointScan) :
    CnipaGazetteRuntimeRow × Nat → Except String CheckpointScan
  | (row, rowIndex) => do
    let normalized ← normalizeRuntimeRow row issue
      ("page " ++ toString pageIndex ++ ".rows[" ++ toString rowIndex ++ "]")
    require (normalized.sourceRowId ∉ scan.ids)
      ("duplicate official row id within checkpoint: " ++ normalized.sourceRowId)
    pure { scan with rowCount := scan.rowCount + 1, ids := scan.ids ++ [normalized.sourceRowId] }

def scanPage (platform : Platform) (issue startPage : Nat) (scan : CheckpointScan) :
    CnipaGazetteBrowserLogicalPage × Nat → Except String CheckpointScan
  | (page, offset) => do
    require (page.pageIndex = startPage + offset)
      ("checkpoint page sequence mismatch: expected " ++ toString (startPage + offset) ++ ", got " ++
        toString page.pageIndex)
    require (page.pageSize = CNIPA_GAZETTE_PAGE_SIZE)
      ("page " ++ toString page.pageIndex ++ " must use pageSize=100")
    let total ← nonNegativeInteger page.sourceTotal
      ("page " ++ toString page.pageIndex ++ ".sourceTotal")
    let pages ← positiveSafe page.sourcePages ("page " ++ toString page.pageIndex ++ ".sourcePages")
    let sourceTotal := scan.sourceTotal.getD total
    let sourcePages := scan.sourcePages.getD pages
    require (sourceTotal = total ∧ sourcePages = pages) "source total/pages drifted within checkpoint"
    let pageAnnouncementDate ← assertIsoDateOrNull platform page.announcementDate
    require (total = 0 ∨ pageAnnouncementDate ≠ none) "non-empty Gazette page requires announcementDate"
    let announcementDate := scan.announcementDate.getD pageAnnouncementDate
    require (announcementDate = pageAnnouncementDate) "announcementDate drifted within checkpoint"
    require (page.pageIndex ≤ pages)
      ("page " ++ toString page.pageIndex ++ " exceeds sourcePages=" ++ toString pages)
    let scanned ← page.rows.zipIdx.foldlM (scanRow issue page.pageIndex)
      { scan with
        sourceTotal := some sourceTotal, sourcePages := some sourcePages
        announcementDate := some announcementDate }
    require (page.pageIndex < pages → page.rows.length = CNIPA_GAZETTE_PAGE_SIZE)
      ("non-terminal page " ++ toString page.pageIndex ++ " must contain exactly 100 rows")
    let expectedLastLength := expectedRows total CNIPA_GAZETTE_PAGE_SIZE pages pages
    require (page.pageIndex = pages → page.rows.length = expectedLastLength)
      ("terminal page length mismatch: expected " ++ toString expectedLastLength ++ ", got " ++
        toString page.rows.length)
    pure scanned

def buildCnipaGazetteCheckpoint (platform : Platform) (announcementIssue : Nat)
    (range : CnipaGazettePageRange) (pages : List CnipaGazetteBrowserLogicalPage) :
    Except String CnipaGazetteCheckpoint := do
  let issue ← positiveSafe announcementIssue "announcementIssue"
  let startPage ← positiveSafe range.startPage "range.startPage"
  let endPage ← positiveSafe range.endPage "range.endPage"
  require (startPage ≤ endPage) "range.endPage must be >= range.startPage"
  require (pages.length = endPage - startPage + 1)
    "checkpoint pages do not fully cover the requested range"
  let scan ← pages.zipIdx.foldlM (scanPage platform issue startPage) ⟨none, none, none, 0, []⟩
  match scan.sourceTotal, scan.sourcePages, scan.announcementDate with
  | some sourceTotal, some sourcePages, some announcementDate =>
    pure
      { announcementIssue := issue, sourceTotal, sourcePages, announcementDate
        range := ⟨startPage, endPage⟩, pages, rowCount := scan.rowCount
        uniqueOfficialRowIds := scan.ids.length }
  | _, _, _ => throw "checkpoint requires at least one page"

/-! ### Artifacts -/

/-- The names of the gazette's artifacts. -/
inductive CanonicalUri where
  | sourceRaw (issue pageSize page : Nat)
  | sourceProjection (issue pageSize page : Nat)
  | streamState (issue : Nat) (fingerprint : Digest)
  | logicalProjection (issue page : Nat)
  | checkpoint (issue startPage endPage : Nat)
  | dataset (issue : Nat) (sha256 : Digest)
  | chunkRequest (issue : Nat) (sha256 : Digest) (startPage endPage : Nat)
deriving DecidableEq

structure CnipaGazetteBrowserDatasetIdentity where
  announcementIssue : Nat
  announcementDate : String
  sourceRecordCount : Nat
  sourcePageCount : Nat
  pageSize : Nat
  sourceUri : String
  captureStartedAt : String
  sourceCapturePageSize : Nat
  sourceCapturePageCount : Nat
  captureRootRawSha256 : Digest
deriving DecidableEq

structure CnipaGazetteDataEngineAnnouncementRow where
  source_row_id : String
  source_search_id : String
  registration_number : String
  announcement_issue : Nat
  announcement_type_code : String
  announcement_type_name : String
  detail_page_no : Option Nat
  announcement_page_count : Option Nat
  detail_file_id : String
  detail_asset_path : String
  announcement_detail_url : String
deriving DecidableEq

structure PageRowCount where
  page_index : Nat
  row_count : Nat
deriving DecidableEq

structure CnipaGazetteDataEngineChunkPackage where
  announcement_issue : Nat
  announcement_date : String
  source_record_count : Nat
  source_page_count : Nat
  page_size : Nat
  range_start_page : Nat
  range_end_page : Nat
  page_row_counts : List PageRowCount
  chunk_row_count : Nat
  source_dataset_sha256 : Digest
  source_uri : String
  collected_at : String
  records : List CnipaGazetteDataEngineAnnouncementRow
deriving DecidableEq

/-- What an artifact holds. -/
inductive ArtifactContent where
  | sourceRaw (body : List UInt8)
  | sourceProjection (page : CnipaGazetteBrowserSourcePage)
  | streamState (observedAt : String) (session : CnipaGazetteBrowserStreamSession)
      (state : CnipaGazetteBrowserStreamState)
  | logicalProjection (page : CnipaGazetteBrowserLogicalPage)
  | checkpoint (checkpoint : CnipaGazetteCheckpoint) (plannedRanges : List CnipaGazettePageRange)
  | dataset (identity : CnipaGazetteBrowserDatasetIdentity) (sha256 : Digest)
  | chunkRequest (createdAt : String) (package : CnipaGazetteDataEngineChunkPackage)

structure AcquiredCollectionArtifact where
  canonicalUri : CanonicalUri
  parentCanonicalUris : List CanonicalUri
  content : ArtifactContent

/-! ### Evidence of pages -/

structure CnipaGazetteBrowserSourcePageEvidence where
  page : CnipaGazetteBrowserSourcePage
  rawBody : List UInt8
  rawArtifact : AcquiredCollectionArtifact
  projectionArtifact : AcquiredCollectionArtifact

/-- The request of a page, as the browser sends it. -/
structure SourcePageInput where
  requestedPageIndex : Nat
  observedAt : String
  httpStatus : Nat
  rawBody : List UInt8

/-- The program's environment: the platform, the digests, and `JSON.parse` of a body that is UTF-8. -/
structure Env where
  platform : Platform
  hashes : Hashes
  parseJson : List UInt8 → Option Json
  identitySha256 : CnipaGazetteBrowserDatasetIdentity → Digest

section Build

variable (env : Env) (session : CnipaGazetteBrowserStreamSession)

def buildCnipaGazetteBrowserSourcePageEvidence (input : SourcePageInput) :
    Except String CnipaGazetteBrowserSourcePageEvidence := do
  require (input.rawBody ≠ []) "browser source raw body must be non-empty bytes"
  let payload ← orThrow (env.parseJson input.rawBody)
    "browser source raw body must contain valid UTF-8 JSON"
  let page ← parseCnipaGazetteBrowserSourcePage env.platform env.hashes session input.requestedPageIndex
    input.observedAt input.httpStatus payload
  let raw := .sourceRaw session.announcementIssue session.sourcePageSize page.sourcePageIndex
  pure
    { page, rawBody := input.rawBody
      rawArtifact :=
        { canonicalUri := raw, parentCanonicalUris := [], content := .sourceRaw input.rawBody }
      projectionArtifact :=
        { canonicalUri :=
            .sourceProjection session.announcementIssue session.sourcePageSize page.sourcePageIndex
          parentCanonicalUris := [raw]
          content := .sourceProjection page } }

def buildCnipaGazetteBrowserStreamStateArtifact (state : CnipaGazetteBrowserStreamState)
    (observedAt : String) : Except String AcquiredCollectionArtifact := do
  let state ← parseCnipaGazetteBrowserStreamState env.hashes state session
  require (env.platform.dateParses observedAt = true) "state artifact observedAt must be ISO-8601"
  let acceptedSourcePage := state.nextSourcePageIndex - 1
  pure
    { canonicalUri := .streamState session.announcementIssue (env.hashes.ofSession session)
      parentCanonicalUris :=
        if 0 < acceptedSourcePage then
          [.sourceProjection session.announcementIssue session.sourcePageSize acceptedSourcePage]
        else []
      content := .streamState observedAt session state }

def buildCnipaGazetteBrowserLogicalPageEvidence (page : CnipaGazetteBrowserLogicalPage) :
    Except String AcquiredCollectionArtifact := do
  require (page.pageSize = CNIPA_GAZETTE_PAGE_SIZE ∧ page.sourceTotal = session.sourceTotal ∧
      page.announcementDate = session.announcementDate ∧ page.sourcePageIndices ≠ [])
    "logical page does not match the browser-stream session"
  require (page.sourcePages = logicalPageCount session.sourceTotal)
    "logical page count does not match the normalized dataset"
  require (∀ sourcePageIndex ∈ page.sourcePageIndices, isSafeInteger sourcePageIndex = true ∧
      1 ≤ sourcePageIndex ∧ sourcePageIndex ≤ session.sourcePages)
    "logical page source provenance contains an invalid source page"
  pure
    { canonicalUri := .logicalProjection session.announcementIssue page.pageIndex
      parentCanonicalUris := page.sourcePageIndices.map fun sourcePageIndex =>
        .sourceProjection session.announcementIssue session.sourcePageSize sourcePageIndex
      content := .logicalProjection page }

structure CnipaGazetteBrowserCheckpointEvidence where
  checkpoint : CnipaGazetteCheckpoint
  checkpointArtifact : AcquiredCollectionArtifact

def buildCnipaGazetteBrowserCheckpointEvidence (range : CnipaGazettePageRange)
    (logicalPages : List CnipaGazetteBrowserLogicalPage) (pagesPerCheckpoint : Nat) :
    Except String CnipaGazetteBrowserCheckpointEvidence := do
  let checkpoint ←
    buildCnipaGazetteCheckpoint env.platform session.announcementIssue range logicalPages
  require (checkpoint.sourceTotal = session.sourceTotal ∧
      checkpoint.announcementDate = session.announcementDate)
    "checkpoint does not match the browser-stream session"
  require (checkpoint.sourcePages = logicalPageCount session.sourceTotal)
    "checkpoint logical page count does not match the normalized dataset"
  let plannedRanges ← planCnipaGazettePageRanges checkpoint.sourcePages pagesPerCheckpoint
  let projections ← logicalPages.mapM (buildCnipaGazetteBrowserLogicalPageEvidence session)
  pure
    { checkpoint
      checkpointArtifact :=
        { canonicalUri := .checkpoint session.announcementIssue range.startPage range.endPage
          parentCanonicalUris := projections.map (·.canonicalUri)
          content := .checkpoint checkpoint plannedRanges } }

/-! ### The identity of the dataset -/

/-- `nonEmpty` of the handoff. -/
def nonEmpty (value label : String) (maximum : Nat) : Except String String := do
  require (trim value ≠ "" ∧ jsLength (trim value) ≤ maximum)
    (label ++ " must be non-empty and at most " ++ toString maximum ++ " characters")
  pure (trim value)

def instant (value label : String) : Except String String := do
  let normalized ← nonEmpty value label 64
  require (env.platform.dateParses normalized = true) (label ++ " must be an ISO-8601 instant")
  pure normalized

def isoDate (value : Option String) (label : String) : Except String String := do
  let date ← orThrow value (label ++ " must be YYYY-MM-DD")
  require (env.platform.isDate date = true) (label ++ " must be YYYY-MM-DD")
  pure date

structure CnipaGazetteDatasetIdentityEnvelope where
  identity : CnipaGazetteBrowserDatasetIdentity
  sourceDatasetSha256 : Digest
  artifact : AcquiredCollectionArtifact

/-- The checks of an identity of a browser stream, and that its hash is the one given. -/
def validateCnipaGazetteDatasetIdentitySnapshot (identity : CnipaGazetteBrowserDatasetIdentity)
    (sourceDatasetSha256 : Digest) : Except String CnipaGazetteBrowserDatasetIdentity := do
  require (identity.pageSize = 100) "dataset identity scope/schema is invalid"
  let announcementIssue ← positiveSafe identity.announcementIssue "dataset identity.announcementIssue"
  let announcementDate ← isoDate env (some identity.announcementDate) "dataset identity.announcementDate"
  let sourceRecordCount ←
    nonNegativeInteger identity.sourceRecordCount "dataset identity.sourceRecordCount"
  let sourcePageCount ← positiveSafe identity.sourcePageCount "dataset identity.sourcePageCount"
  let sourceUri ← nonEmpty identity.sourceUri "dataset identity.sourceUri" 4096
  let captureStartedAt ← instant env identity.captureStartedAt "dataset identity.captureStartedAt"
  let sourceCapturePageSize ←
    positiveSafe identity.sourceCapturePageSize "dataset identity.sourceCapturePageSize"
  require (sourceCapturePageSize ≤ 100) "dataset identity.sourceCapturePageSize must be <= 100"
  let sourceCapturePageCount ←
    positiveSafe identity.sourceCapturePageCount "dataset identity.sourceCapturePageCount"
  require (sourceCapturePageCount = max 1 (ceilDiv sourceRecordCount sourceCapturePageSize))
    "browser dataset identity source capture pagination is inconsistent"
  require (sourcePageCount = max 1 (ceilDiv sourceRecordCount 100))
    "browser dataset identity logical pagination is inconsistent"
  let normalized : CnipaGazetteBrowserDatasetIdentity :=
    { identity with
      announcementIssue, announcementDate, sourceRecordCount, sourcePageCount, sourceUri
      captureStartedAt, sourceCapturePageSize, sourceCapturePageCount }
  require (sourceDatasetSha256 = env.identitySha256 normalized)
    "dataset identity snapshot hash does not match canonical identity"
  pure normalized

def materializeCnipaGazetteDatasetIdentity (identity : CnipaGazetteBrowserDatasetIdentity)
    (parentCanonicalUris : List CanonicalUri) : Except String CnipaGazetteDatasetIdentityEnvelope := do
  let sourceDatasetSha256 := env.identitySha256 identity
  let identity ← validateCnipaGazetteDatasetIdentitySnapshot env identity sourceDatasetSha256
  let parents := parentCanonicalUris.dedup
  require (parents ≠ []) "dataset identity requires at least one immutable parent"
  pure
    { identity, sourceDatasetSha256
      artifact :=
        { canonicalUri := .dataset identity.announcementIssue sourceDatasetSha256
          parentCanonicalUris := parents
          content := .dataset identity sourceDatasetSha256 } }

def buildCnipaGazetteBrowserDatasetIdentity (firstCheckpoint : CnipaGazetteBrowserCheckpointEvidence)
    (firstSourcePageEvidence : CnipaGazetteBrowserSourcePageEvidence) :
    Except String CnipaGazetteDatasetIdentityEnvelope := do
  let checkpoint := firstCheckpoint.checkpoint
  let sourcePage := firstSourcePageEvidence.page
  require (checkpoint.range.startPage = 1)
    "browser dataset identity requires the first logical checkpoint"
  require (sourcePage.sourcePageIndex = 1 ∧ sourcePage.sessionId = session.sessionId ∧
      sourcePage.sourcePageSize = session.sourcePageSize ∧ sourcePage.sourceTotal = session.sourceTotal ∧
      sourcePage.sourcePages = session.sourcePages)
    "browser dataset identity requires source page 1 from the same session"
  require (checkpoint.announcementIssue = session.announcementIssue ∧
      checkpoint.announcementDate = session.announcementDate ∧
      checkpoint.sourceTotal = session.sourceTotal)
    "browser dataset identity checkpoint does not match the session"
  let announcementDate ← orThrow session.announcementDate
    "browser dataset identity requires a non-empty announcement date"
  require (firstSourcePageEvidence.rawArtifact.canonicalUri =
      .sourceRaw session.announcementIssue session.sourcePageSize 1)
    "browser dataset identity source-page raw artifact is invalid"
  materializeCnipaGazetteDatasetIdentity env
    { announcementIssue := session.announcementIssue, announcementDate
      sourceRecordCount := session.sourceTotal, sourcePageCount := checkpoint.sourcePages
      pageSize := 100, sourceUri := session.sourceUrl, captureStartedAt := sourcePage.observedAt
      sourceCapturePageSize := session.sourcePageSize, sourceCapturePageCount := session.sourcePages
      captureRootRawSha256 := env.hashes.ofBytes firstSourcePageEvidence.rawBody }
    [firstSourcePageEvidence.rawArtifact.canonicalUri, firstCheckpoint.checkpointArtifact.canonicalUri]

/-! ### The package of a checkpoint -/

def mapRow (row : CnipaGazetteRuntimeRow) : Except String CnipaGazetteDataEngineAnnouncementRow := do
  let source_row_id ← nonEmpty row.sourceRowId "sourceRowId" 256
  let registration_number ← nonEmpty row.registrationNumber "registrationNumber" 128
  let announcement_issue ← positiveSafe row.announcementIssue "announcementIssue"
  let announcement_type_code ← nonEmpty row.announcementTypeCode "announcementTypeCode" 128
  pure
    { source_row_id, source_search_id := trim row.sourceSearchId, registration_number
      announcement_issue, announcement_type_code
      announcement_type_name := trim row.announcementTypeName, detail_page_no := row.detailPageNo
      announcement_page_count := row.announcementPageCount, detail_file_id := trim row.detailFileId
      detail_asset_path := trim row.detailAssetPath
      announcement_detail_url := trim row.announcementDetailUrl }

/-- `assertCheckpointMatchesIdentity`. -/
structure CheckpointMatches (checkpoint : CnipaGazetteCheckpoint)
    (identity : CnipaGazetteBrowserDatasetIdentity) : Prop where
  issue : checkpoint.announcementIssue = identity.announcementIssue
  date : checkpoint.announcementDate = some identity.announcementDate
  total : checkpoint.sourceTotal = identity.sourceRecordCount
  pages : checkpoint.sourcePages = identity.sourcePageCount
  size : CNIPA_GAZETTE_PAGE_SIZE = identity.pageSize

instance (checkpoint : CnipaGazetteCheckpoint) (identity : CnipaGazetteBrowserDatasetIdentity) :
    Decidable (CheckpointMatches checkpoint identity) :=
  decidable_of_iff
    (checkpoint.announcementIssue = identity.announcementIssue ∧
      checkpoint.announcementDate = some identity.announcementDate ∧
      checkpoint.sourceTotal = identity.sourceRecordCount ∧
      checkpoint.sourcePages = identity.sourcePageCount ∧ CNIPA_GAZETTE_PAGE_SIZE = identity.pageSize)
    ⟨fun ⟨hi, hd, ht, hp, hs⟩ => ⟨hi, hd, ht, hp, hs⟩, fun ⟨hi, hd, ht, hp, hs⟩ => ⟨hi, hd, ht, hp, hs⟩⟩

def buildCnipaGazetteDataEngineChunkPackage (checkpoint : CnipaGazetteCheckpoint)
    (datasetIdentity : CnipaGazetteDatasetIdentityEnvelope) (collectedAt : String) :
    Except String CnipaGazetteDataEngineChunkPackage := do
  require (CheckpointMatches checkpoint datasetIdentity.identity)
    "Gazette checkpoint metadata does not match dataset identity"
  let collectedAt ← instant env collectedAt "collectedAt"
  let records ← (checkpoint.pages.flatMap (·.rows)).mapM mapRow
  require (records.length = checkpoint.rowCount)
    "checkpoint rowCount does not match materialized records"
  let announcementDate ← isoDate env checkpoint.announcementDate "announcementDate"
  pure
    { announcement_issue := checkpoint.announcementIssue, announcement_date := announcementDate
      source_record_count := checkpoint.sourceTotal, source_page_count := checkpoint.sourcePages
      page_size := 100, range_start_page := checkpoint.range.startPage
      range_end_page := checkpoint.range.endPage
      page_row_counts := checkpoint.pages.map fun page => ⟨page.pageIndex, page.rows.length⟩
      chunk_row_count := records.length
      source_dataset_sha256 := datasetIdentity.sourceDatasetSha256
      source_uri := datasetIdentity.identity.sourceUri, collected_at := collectedAt, records }

def buildCnipaGazetteChunkAdmissionRequestArtifact (package : CnipaGazetteDataEngineChunkPackage)
    (datasetIdentityCanonicalUri checkpointCanonicalUri : CanonicalUri) (createdAt : String) :
    Except String AcquiredCollectionArtifact := do
  let issue ← positiveSafe package.announcement_issue "chunk payload.announcement_issue"
  let startPage ← positiveSafe package.range_start_page "chunk payload.range_start_page"
  let endPage ← positiveSafe package.range_end_page "chunk payload.range_end_page"
  require (startPage ≤ endPage) "chunk payload range_end_page must be >= range_start_page"
  let datasetSha := package.source_dataset_sha256
  let createdAt ← instant env createdAt "createdAt"
  require (datasetIdentityCanonicalUri = .dataset issue datasetSha)
    "dataset identity canonical URI does not match chunk package"
  require (checkpointCanonicalUri = .checkpoint issue startPage endPage)
    "checkpoint canonical URI does not match chunk range"
  pure
    { canonicalUri := .chunkRequest issue datasetSha startPage endPage
      parentCanonicalUris := [datasetIdentityCanonicalUri, checkpointCanonicalUri]
      content := .chunkRequest createdAt package }

end Build

end MarkorbitKnowledge.Gazette
