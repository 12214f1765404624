import MarkorbitKnowledge.Gazette.Repaging

/-!
# The checkpoint of a range of logical pages

The runtime, the identity and the package each derive the counts of a session again.  For the logical
pages of a session they agree, and the package holds the rows of the range; what is left to check is the
length of the instant the package is stamped with.
-/

namespace MarkorbitKnowledge.Gazette

open Contracts Fallible Tiling

section Counts

variable {platform : Platform} {session : CnipaGazetteBrowserStreamSession}
  {rows : List CnipaGazetteRuntimeRow} {index : Nat} {page : CnipaGazetteBrowserLogicalPage}

theorem SessionOf.total_le (h : SessionOf platform session) :
    session.sourceTotal ≤ logicalPageCount session.sourceTotal * 100 := by
  rw [h.logicalPageCount_eq, ← ceilDiv_le_iff (by decide)]

/-- The rows of a logical page. -/
theorem LogicalPageOf.length (h : LogicalPageOf session rows index page)
    (hrows : logicalRowBound session index ≤ rows.length) :
    page.rows.length = logicalRowBound session index - logicalRowBound session (index - 1) := by
  rw [h.rows_eq, length_slice hrows]

theorem SessionOf.logicalRows_of_lt (h : SessionOf platform session) (hpos : 1 ≤ index)
    (hlt : index < logicalPageCount session.sourceTotal) :
    logicalRowBound session index - logicalRowBound session (index - 1) = 100 := by
  rw [h.logicalPageCount_eq, lt_ceilDiv_iff (by decide)] at hlt
  simp only [logicalRowBound]
  omega

theorem SessionOf.logicalRows_last (h : SessionOf platform session) :
    logicalRowBound session (logicalPageCount session.sourceTotal) -
        logicalRowBound session (logicalPageCount session.sourceTotal - 1) =
      expectedRows session.sourceTotal CNIPA_GAZETTE_PAGE_SIZE
        (logicalPageCount session.sourceTotal) (logicalPageCount session.sourceTotal) := by
  have hcount := h.logicalPageCount_eq
  have hpos := h.totalPos
  have hne : session.sourceTotal ≠ 0 := Nat.one_le_iff_ne_zero.mp hpos
  rw [ceilDiv_hundred] at hcount
  rw [expectedRows, if_neg hne, if_neg (Nat.lt_irrefl _), CNIPA_GAZETTE_PAGE_SIZE]
  simp only [logicalRowBound]
  split at hcount
  · rename_i hfull
    rw [if_pos hfull]
    omega
  · rename_i hpart
    rw [if_neg hpart]
    omega

end Counts

/-! ### The runtime's checkpoint -/

section Scans

variable {platform : Platform} {session : CnipaGazetteBrowserStreamSession}
  {rows : List CnipaGazetteRuntimeRow}

theorem scanRows_eq {issue pageIndex : Nat} {l : List CnipaGazetteRuntimeRow}
    (hrows : ∀ row ∈ l, RowOf issue row) : ∀ (start : Nat) (scan : CheckpointScan),
    (scan.ids ++ l.map (·.sourceRowId)).Nodup →
    (l.zipIdx start).foldlM (scanRow issue pageIndex) scan =
      .ok { scan with
        rowCount := scan.rowCount + l.length, ids := scan.ids ++ l.map (·.sourceRowId) } := by
  induction l with
  | nil =>
    intro start scan _
    simp [pure, Except.pure]
  | cons row l ih =>
    intro start scan hids
    have hnew : row.sourceRowId ∉ scan.ids := by
      rw [List.map_cons, List.nodup_append] at hids
      intro hmem
      exact hids.2.2 _ hmem _ List.mem_cons_self rfl
    have hstep : scanRow issue pageIndex scan (row, start) =
        .ok { scan with rowCount := scan.rowCount + 1, ids := scan.ids ++ [row.sourceRowId] } := by
      simp only [scanRow, normalizeRuntimeRow_eq (hrows row List.mem_cons_self), ok_bind, bind_eq_ok,
        require_eq_ok, pure_eq_ok]
      exact ⟨(), hnew, trivial⟩
    rw [List.zipIdx_cons, List.foldlM_cons, hstep, ok_bind,
      ih (fun other hother => hrows other (List.mem_cons_of_mem row hother)) _ _
        (by rwa [List.append_assoc, List.singleton_append])]
    simp only [List.map_cons, List.length_cons, List.append_assoc, List.singleton_append,
      Nat.add_assoc, Nat.add_comm 1]

/-- The scan has read no other counts than those of the session. -/
structure ScanOf (session : CnipaGazetteBrowserStreamSession) (scan : CheckpointScan) : Prop where
  total : scan.sourceTotal.getD session.sourceTotal = session.sourceTotal
  pages : scan.sourcePages.getD (logicalPageCount session.sourceTotal) =
    logicalPageCount session.sourceTotal
  date : scan.announcementDate.getD session.announcementDate = session.announcementDate

/-- The scan after pages with these rows. -/
def scanned (session : CnipaGazetteBrowserStreamSession) (scan : CheckpointScan)
    (l : List CnipaGazetteRuntimeRow) : CheckpointScan where
  sourceTotal := some session.sourceTotal
  sourcePages := some (logicalPageCount session.sourceTotal)
  announcementDate := some session.announcementDate
  rowCount := scan.rowCount + l.length
  ids := scan.ids ++ l.map (·.sourceRowId)

theorem scanOf_scanned (scan : CheckpointScan) (l : List CnipaGazetteRuntimeRow) :
    ScanOf session (scanned session scan l) := ⟨rfl, rfl, rfl⟩

theorem scanned_append (scan : CheckpointScan) (l r : List CnipaGazetteRuntimeRow) :
    scanned session (scanned session scan l) r = scanned session scan (l ++ r) := by
  simp only [scanned, List.length_append, List.map_append, List.append_assoc, Nat.add_assoc]

/-- One logical page of the session is scanned. -/
theorem scanPage_eq (h : SessionOf platform session) {startPage offset : Nat} {scan : CheckpointScan}
    {page : CnipaGazetteBrowserLogicalPage} (hscan : ScanOf session scan)
    (hpage : LogicalPageOf session rows (startPage + offset) page)
    (hrows : ∀ row ∈ page.rows, RowOf session.announcementIssue row)
    (hlength : logicalRowBound session (startPage + offset) ≤ rows.length)
    (hindex : 1 ≤ startPage + offset ∧ startPage + offset ≤ logicalPageCount session.sourceTotal)
    (hcount : isSafeInteger (logicalPageCount session.sourceTotal) = true)
    (hids : (scan.ids ++ page.rows.map (·.sourceRowId)).Nodup) :
    scanPage platform session.announcementIssue startPage scan (page, offset) =
      .ok (scanned session scan page.rows) := by
  obtain ⟨date, hdate, hisDate⟩ := h.date
  have hdates : assertIsoDateOrNull platform session.announcementDate = .ok session.announcementDate := by
    simp only [assertIsoDateOrNull, bind_eq_ok, require_eq_ok, pure_eq_ok]
    refine ⟨(), ?_, trivial⟩
    intro other hother
    rw [hdate] at hother
    rwa [← Option.some.inj hother]
  have hrowsLength := hpage.length hlength
  simp only [scanPage, hpage.index_eq, hpage.size, hpage.total, hpage.pages, hpage.date, hdates,
    nonNegativeInteger_eq h.totalSafe, positiveSafe_eq ⟨hcount, Nat.le_trans hindex.1 hindex.2⟩,
    hscan.total, hscan.pages, hscan.date, ok_bind, bind_eq_ok, require_eq_ok, pure_eq_ok]
  refine ⟨(), trivial, (), trivial, (), ⟨trivial, trivial⟩, (), Or.inr (by rw [hdate]; simp), (), trivial,
    (), hindex.2, scanned session scan page.rows, ?_, (), ?_, (), ?_, rfl⟩
  · exact scanRows_eq hrows 0 _ hids
  · intro hlt
    rw [hrowsLength, h.logicalRows_of_lt hindex.1 hlt, CNIPA_GAZETTE_PAGE_SIZE]
  · intro hlast
    rw [hlast] at hrowsLength
    rw [hrowsLength, h.logicalRows_last]

theorem scanPages_eq (h : SessionOf platform session) {startPage : Nat}
    {pages : List CnipaGazetteBrowserLogicalPage} (hstart : 1 ≤ startPage)
    (hcount : isSafeInteger (logicalPageCount session.sourceTotal) = true)
    (hrows : ∀ page ∈ pages, ∀ row ∈ page.rows, RowOf session.announcementIssue row) :
    ∀ (offset : Nat) (scan : CheckpointScan), ScanOf session scan → pages ≠ [] →
    Numbered (LogicalPageOf session rows) (startPage + offset) pages →
    startPage + offset + pages.length ≤ logicalPageCount session.sourceTotal + 1 →
    logicalRowBound session (startPage + offset + pages.length - 1) ≤ rows.length →
    (scan.ids ++ (pages.flatMap (·.rows)).map (·.sourceRowId)).Nodup →
    (pages.zipIdx offset).foldlM (scanPage platform session.announcementIssue startPage) scan =
      .ok (scanned session scan (pages.flatMap (·.rows))) := by
  induction pages with
  | nil => exact fun _ _ _ hne => absurd rfl hne
  | cons page pages ih =>
    intro offset scan hscan _ hnumbered hend hlength hids
    rw [List.length_cons] at hend hlength
    rw [List.flatMap_cons, List.map_append, ← List.append_assoc] at hids
    have hpageBound : logicalRowBound session (startPage + offset) ≤ rows.length :=
      Nat.le_trans (logicalRowBound_mono session (by omega)) hlength
    have hstep := scanPage_eq h hscan hnumbered.1 (hrows page List.mem_cons_self) hpageBound
      ⟨by omega, by omega⟩ hcount (hids.sublist (List.sublist_append_left _ _))
    rw [List.zipIdx_cons, List.foldlM_cons, hstep, ok_bind, List.flatMap_cons]
    by_cases hnil : pages = []
    · subst hnil
      simp [pure, Except.pure]
    · rw [ih (fun other hother => hrows other (List.mem_cons_of_mem page hother)) (offset + 1)
        (scanned session scan page.rows) (scanOf_scanned _ _) hnil
        (by rw [← Nat.add_assoc]; exact hnumbered.2) (by omega)
        (by
          have hsame : startPage + (offset + 1) + pages.length - 1 =
              startPage + offset + (pages.length + 1) - 1 := by omega
          rw [hsame]
          exact hlength)
        hids, scanned_append]

/-- The logical pages of a range of the session. -/
structure RangeOf (session : CnipaGazetteBrowserStreamSession) (rows : List CnipaGazetteRuntimeRow)
    (range : CnipaGazettePageRange) (pages : List CnipaGazetteBrowserLogicalPage) : Prop where
  start : 1 ≤ range.startPage
  le : range.startPage ≤ range.endPage
  within : range.endPage ≤ logicalPageCount session.sourceTotal
  length : pages.length = range.endPage + 1 - range.startPage
  pages : Numbered (LogicalPageOf session rows) range.startPage pages
  rows_le : logicalRowBound session range.endPage ≤ rows.length

/-- The rows of a range. -/
theorem RangeOf.rows_eq {range : CnipaGazettePageRange} {pages : List CnipaGazetteBrowserLogicalPage}
    (h : RangeOf session rows range pages) : pages.flatMap (·.rows) =
      slice rows (logicalRowBound session (range.startPage - 1))
        (logicalRowBound session range.endPage) := by
  have hmono : Monotone fun n => logicalRowBound session (n - 1) :=
    fun a b hle => logicalRowBound_mono session (Nat.sub_le_sub_right hle 1)
  have hslices : Numbered (fun n page => page.rows =
      slice rows (logicalRowBound session (n - 1)) (logicalRowBound session (n + 1 - 1)))
      range.startPage pages :=
    h.pages.mono fun n page hpage => by rw [Nat.add_sub_cancel, hpage.rows_eq]
  have hle := h.le
  have hend : range.startPage + pages.length - 1 = range.endPage := by
    rw [h.length]
    omega
  have hflat := Numbered.flatMap_slice hmono hslices
  rw [hend] at hflat
  exact hflat

def checkpointOf (session : CnipaGazetteBrowserStreamSession) (range : CnipaGazettePageRange)
    (pages : List CnipaGazetteBrowserLogicalPage) : CnipaGazetteCheckpoint where
  announcementIssue := session.announcementIssue
  sourceTotal := session.sourceTotal
  sourcePages := logicalPageCount session.sourceTotal
  announcementDate := session.announcementDate
  range := range
  pages := pages
  rowCount := (pages.flatMap (·.rows)).length
  uniqueOfficialRowIds := (pages.flatMap (·.rows)).length

theorem SessionOf.countSafe (h : SessionOf platform session) :
    isSafeInteger (logicalPageCount session.sourceTotal) = true := by
  refine isSafeInteger_mono ?_ h.totalSafe
  rw [h.logicalPageCount_eq, ceilDiv_le_iff (by decide)]
  exact Nat.le_mul_of_pos_right _ (by decide)

theorem buildCheckpoint_eq (h : SessionOf platform session)
    (hrows : ∀ row ∈ rows, RowOf session.announcementIssue row)
    (hids : (rows.map (·.sourceRowId)).Nodup) {range : CnipaGazettePageRange}
    {pages : List CnipaGazetteBrowserLogicalPage} (hrange : RangeOf session rows range pages) :
    buildCnipaGazetteCheckpoint platform session.announcementIssue range pages =
      .ok (checkpointOf session range pages) := by
  have hstartSafe : isSafeInteger range.startPage = true :=
    isSafeInteger_mono (Nat.le_trans hrange.le hrange.within) h.countSafe
  have hendSafe : isSafeInteger range.endPage = true := isSafeInteger_mono hrange.within h.countSafe
  have hle := hrange.le
  have hlength := hrange.length
  have hwithin := hrange.within
  have hne : pages ≠ [] := by
    intro hnil
    rw [hnil, List.length_nil] at hlength
    omega
  have hpageRows : ∀ page ∈ pages, ∀ row ∈ page.rows, RowOf session.announcementIssue row := by
    intro page hpage row hrow
    have hmem : row ∈ pages.flatMap (·.rows) := List.mem_flatMap.mpr ⟨page, hpage, hrow⟩
    rw [hrange.rows_eq] at hmem
    exact hrows row (mem_slice hmem)
  have hnodup : (([] : List String) ++ (pages.flatMap (·.rows)).map (·.sourceRowId)).Nodup := by
    rw [List.nil_append, hrange.rows_eq]
    refine hids.sublist (List.Sublist.map _ ?_)
    exact (List.take_sublist _ _).trans (List.drop_sublist _ _)
  have hscan := scanPages_eq h hrange.start h.countSafe hpageRows 0 ⟨none, none, none, 0, []⟩
    ⟨rfl, rfl, rfl⟩ hne hrange.pages (by omega) (by
      have hend : range.startPage + 0 + pages.length - 1 = range.endPage := by omega
      rw [hend]
      exact hrange.rows_le) hnodup
  have hpagesLength : pages.length = range.endPage - range.startPage + 1 := by omega
  simp only [buildCnipaGazetteCheckpoint, positiveSafe_eq h.issue,
    positiveSafe_eq ⟨hstartSafe, hrange.start⟩,
    positiveSafe_eq ⟨hendSafe, Nat.le_trans hrange.start hrange.le⟩, hscan, ok_bind, bind_eq_ok,
    require_eq_ok, scanned, pure_eq_ok]
  refine ⟨(), hrange.le, (), hpagesLength, ?_⟩
  simp [checkpointOf]

end Scans

/-! ### The package of a checkpoint -/

/-- An instant the handoff takes: its own readers allow fewer characters than the parser of a page. -/
def ShortInstant (text : String) : Prop := jsLength text ≤ 64

instance (text : String) : Decidable (ShortInstant text) :=
  inferInstanceAs (Decidable (jsLength text ≤ 64))

/-- What the handoff says to an instant it does not take. -/
def longInstantError : String :=
  "dataset identity.captureStartedAt must be non-empty and at most 64 characters"

/-- The evidence of source page 1. -/
structure FirstPageOf (env : Env) (session : CnipaGazetteBrowserStreamSession)
    (evidence : CnipaGazetteBrowserSourcePageEvidence) : Prop where
  page : PageOf env session 1 evidence.page
  raw : evidence.rawArtifact.canonicalUri =
    .sourceRaw session.announcementIssue session.sourcePageSize 1

/-- The identity of the dataset of a session. -/
structure IdentityOf (session : CnipaGazetteBrowserStreamSession)
    (envelope : CnipaGazetteDatasetIdentityEnvelope) : Prop where
  issue : envelope.identity.announcementIssue = session.announcementIssue
  date : session.announcementDate = some envelope.identity.announcementDate
  total : envelope.identity.sourceRecordCount = session.sourceTotal
  pages : envelope.identity.sourcePageCount = logicalPageCount session.sourceTotal
  size : envelope.identity.pageSize = 100
  uri : envelope.artifact.canonicalUri =
    .dataset session.announcementIssue envelope.sourceDatasetSha256

section Packages

variable {env : Env} {session : CnipaGazetteBrowserStreamSession} {rows : List CnipaGazetteRuntimeRow}
  {range : CnipaGazettePageRange} {pages : List CnipaGazetteBrowserLogicalPage}

theorem instant_eq {index : Nat} {page : CnipaGazetteBrowserSourcePage} (hpage : PageOf env session index page)
    (hshort : ShortInstant page.observedAt) (label : String) :
    instant env page.observedAt label = .ok page.observedAt := by
  have hread : ReadText 64 page.observedAt := ⟨hpage.observedAt.1.trimmed, hshort⟩
  simp only [instant, nonEmpty_eq hread hpage.observedAt.2, ok_bind, bind_eq_ok, require_eq_ok, pure_eq_ok]
  exact ⟨(), hpage.parses, trivial⟩

theorem short_of_instant {index : Nat} {page : CnipaGazetteBrowserSourcePage} {label read : String}
    (hpage : PageOf env session index page) (h : instant env page.observedAt label = .ok read) :
    ShortInstant page.observedAt := by
  simp only [instant, nonEmpty, bind_eq_ok, require_eq_ok, pure_eq_ok] at h
  obtain ⟨_, ⟨_, ⟨-, hle⟩, -⟩, -⟩ := h
  rwa [hpage.observedAt.1.trimmed] at hle

theorem instant_long {index : Nat} {page : CnipaGazetteBrowserSourcePage}
    (hpage : PageOf env session index page) (hlong : ¬ ShortInstant page.observedAt) (label : String) :
    instant env page.observedAt label =
      .error (label ++ " must be non-empty and at most " ++ toString 64 ++ " characters") := by
  have hbound : ¬ (trim page.observedAt ≠ "" ∧ jsLength (trim page.observedAt) ≤ 64) := by
    rw [hpage.observedAt.1.trimmed]
    exact fun h => hlong h.2
  rw [instant, nonEmpty, require_of_not hbound]
  rfl

theorem isoDate_eq {date label : String} (h : env.platform.isDate date = true) :
    isoDate env (some date) label = .ok date := by
  simp only [isoDate, bind_eq_ok, orThrow_eq_ok, require_eq_ok, pure_eq_ok]
  exact ⟨date, rfl, (), h, rfl⟩

def logicalProjectionOf (session : CnipaGazetteBrowserStreamSession)
    (page : CnipaGazetteBrowserLogicalPage) : AcquiredCollectionArtifact where
  canonicalUri := .logicalProjection session.announcementIssue page.pageIndex
  parentCanonicalUris := page.sourcePageIndices.map fun sourcePageIndex =>
    .sourceProjection session.announcementIssue session.sourcePageSize sourcePageIndex
  content := .logicalProjection page

theorem logicalEvidence_eq {index : Nat} {page : CnipaGazetteBrowserLogicalPage}
    (h : SessionOf env.platform session) (hpage : LogicalPageOf session rows index page) :
    buildCnipaGazetteBrowserLogicalPageEvidence session page =
      .ok (logicalProjectionOf session page) := by
  simp only [buildCnipaGazetteBrowserLogicalPageEvidence, bind_eq_ok, require_eq_ok, pure_eq_ok]
  refine ⟨(), ⟨hpage.size, hpage.total, hpage.date, hpage.sources.1⟩, (), hpage.pages, (), ?_, rfl⟩
  intro source hsource
  have hbounds := hpage.sources.2 source hsource
  exact ⟨isSafeInteger_mono hbounds.2 h.pagesSafe, hbounds⟩

theorem logicalEvidences_eq {first : Nat} (h : SessionOf env.platform session)
    (hpages : Numbered (LogicalPageOf session rows) first pages) :
    pages.mapM (buildCnipaGazetteBrowserLogicalPageEvidence session) =
      .ok (pages.map (logicalProjectionOf session)) := by
  apply mapM_eq_map
  intro page hpage
  obtain ⟨index, -, -, hindex⟩ := hpages.of_mem hpage
  exact logicalEvidence_eq h hindex

/-- The evidence of a checkpoint of the session. -/
def checkpointEvidenceOf (session : CnipaGazetteBrowserStreamSession) (effective : Nat)
    (range : CnipaGazettePageRange) (pages : List CnipaGazetteBrowserLogicalPage) :
    CnipaGazetteBrowserCheckpointEvidence where
  checkpoint := checkpointOf session range pages
  checkpointArtifact :=
    { canonicalUri := .checkpoint session.announcementIssue range.startPage range.endPage
      parentCanonicalUris := (pages.map (logicalProjectionOf session)).map (·.canonicalUri)
      content := .checkpoint (checkpointOf session range pages)
        (pageRangesFrom (logicalPageCount session.sourceTotal) effective
          (logicalPageCount session.sourceTotal) 1) }

theorem checkpointEvidence_eq {effective : Nat} (h : SessionOf env.platform session)
    (hrows : ∀ row ∈ rows, RowOf session.announcementIssue row)
    (hids : (rows.map (·.sourceRowId)).Nodup) (hrange : RangeOf session rows range pages)
    (haligned : Aligned session.sourcePageSize effective) :
    buildCnipaGazetteBrowserCheckpointEvidence env session range pages effective =
      .ok (checkpointEvidenceOf session effective range pages) := by
  have hcountPos : 1 ≤ logicalPageCount session.sourceTotal :=
    Nat.le_trans hrange.start (Nat.le_trans hrange.le hrange.within)
  have heffective : isSafeInteger effective = true ∧ 1 ≤ effective :=
    ⟨isSafeInteger_succ_hundred haligned.le, haligned.pos⟩
  simp only [buildCnipaGazetteBrowserCheckpointEvidence, buildCheckpoint_eq h hrows hids hrange,
    planCnipaGazettePageRanges, checkpointOf, positiveSafe_eq ⟨h.countSafe, hcountPos⟩,
    positiveSafe_eq heffective, logicalEvidences_eq h hrange.pages, ok_bind, bind_eq_ok, require_eq_ok,
    pure_eq_ok]
  exact ⟨(), ⟨trivial, trivial⟩, (), trivial, _, ⟨(), haligned.le, rfl⟩, rfl⟩

/-- The identity of the dataset of a session, as its first source page gives it. -/
def identityOf (env : Env) (session : CnipaGazetteBrowserStreamSession) (date : String)
    (first : CnipaGazetteBrowserSourcePageEvidence) : CnipaGazetteBrowserDatasetIdentity where
  announcementIssue := session.announcementIssue
  announcementDate := date
  sourceRecordCount := session.sourceTotal
  sourcePageCount := logicalPageCount session.sourceTotal
  pageSize := 100
  sourceUri := session.sourceUrl
  captureStartedAt := first.page.observedAt
  sourceCapturePageSize := session.sourcePageSize
  sourceCapturePageCount := session.sourcePages
  captureRootRawSha256 := env.hashes.ofBytes first.rawBody

theorem validateIdentity_eq {date : String} {first : CnipaGazetteBrowserSourcePageEvidence}
    (h : SessionOf env.platform session) (hdate : env.platform.isDate date = true)
    (hfirst : FirstPageOf env session first) (hshort : ShortInstant first.page.observedAt) :
    validateCnipaGazetteDatasetIdentitySnapshot env (identityOf env session date first)
        (env.identitySha256 (identityOf env session date first)) =
      .ok (identityOf env session date first) := by
  have hpages : session.sourcePages = max 1 (ceilDiv session.sourceTotal session.sourcePageSize) := by
    rw [h.pages]
    exact (Nat.max_eq_right (ceilDiv_pos h.totalPos h.sizeBounds.1)).symm
  have hcountPos : 1 ≤ logicalPageCount session.sourceTotal := Nat.le_max_left _ _
  have hsize : isSafeInteger session.sourcePageSize = true ∧ 1 ≤ session.sourcePageSize :=
    ⟨isSafeInteger_succ_hundred h.sizeBounds.2, h.sizeBounds.1⟩
  simp only [validateCnipaGazetteDatasetIdentitySnapshot, identityOf, positiveSafe_eq h.issue,
    isoDate_eq hdate, nonNegativeInteger_eq h.totalSafe, positiveSafe_eq ⟨h.countSafe, hcountPos⟩,
    nonEmpty_eq h.url h.url_ne, instant_eq hfirst.page hshort, positiveSafe_eq hsize,
    positiveSafe_eq ⟨h.pagesSafe, h.pages_pos⟩, ok_bind, bind_eq_ok, require_eq_ok, pure_eq_ok]
  exact ⟨(), trivial, (), h.sizeBounds.2, (), hpages, (), rfl, (), trivial, trivial⟩

/-- The readers of the handoff measure the instant as a field of the identity. -/
theorem validateIdentity_long {date : String} {first : CnipaGazetteBrowserSourcePageEvidence}
    {sha256 : Digest} (h : SessionOf env.platform session) (hdate : env.platform.isDate date = true)
    (hfirst : FirstPageOf env session first) (hlong : ¬ ShortInstant first.page.observedAt) :
    validateCnipaGazetteDatasetIdentitySnapshot env (identityOf env session date first) sha256 =
      .error longInstantError := by
  have hcountPos : 1 ≤ logicalPageCount session.sourceTotal := Nat.le_max_left _ _
  have hsize : require ((identityOf env session date first).pageSize = 100)
      "dataset identity scope/schema is invalid" = .ok () := require_eq_ok.mpr rfl
  rw [validateCnipaGazetteDatasetIdentitySnapshot, hsize, ok_bind]
  simp only [identityOf, positiveSafe_eq h.issue, isoDate_eq hdate, nonNegativeInteger_eq h.totalSafe,
    positiveSafe_eq ⟨h.countSafe, hcountPos⟩, nonEmpty_eq h.url h.url_ne, instant_long hfirst.page hlong,
    ok_bind, error_bind]
  rfl

/-- The identity of the first checkpoint is that of the session, with the first source page. -/
theorem datasetIdentity_materialize {effective : Nat} {date : String}
    {first : CnipaGazetteBrowserSourcePageEvidence} (hdate : session.announcementDate = some date)
    (hstart : range.startPage = 1) (hfirst : FirstPageOf env session first) :
    buildCnipaGazetteBrowserDatasetIdentity env session
        (checkpointEvidenceOf session effective range pages) first =
      materializeCnipaGazetteDatasetIdentity env (identityOf env session date first)
        [first.rawArtifact.canonicalUri,
          (checkpointEvidenceOf session effective range pages).checkpointArtifact.canonicalUri] := by
  have hpage := hfirst.page
  simp only [buildCnipaGazetteBrowserDatasetIdentity, checkpointEvidenceOf, checkpointOf, identityOf, hstart,
    hpage.index_eq, hpage.sessionId, hpage.pagination.size, hpage.pagination.total, hpage.pagination.pages,
    hfirst.raw, hdate, require, orThrow, and_self, if_true, ok_bind]

theorem datasetIdentity_eq {effective : Nat} {first : CnipaGazetteBrowserSourcePageEvidence}
    (h : SessionOf env.platform session) (hstart : range.startPage = 1)
    (hfirst : FirstPageOf env session first) (hshort : ShortInstant first.page.observedAt) :
    ∃ identity, buildCnipaGazetteBrowserDatasetIdentity env session
        (checkpointEvidenceOf session effective range pages) first = .ok identity ∧
      IdentityOf session identity := by
  obtain ⟨date, hdate, hisDate⟩ := h.date
  let parents : List CanonicalUri := [first.rawArtifact.canonicalUri,
    (checkpointEvidenceOf session effective range pages).checkpointArtifact.canonicalUri]
  have hparents : parents.dedup ≠ [] := by
    intro hnil
    have hmem : first.rawArtifact.canonicalUri ∈ parents.dedup :=
      List.mem_dedup.mpr List.mem_cons_self
    rw [hnil] at hmem
    cases hmem
  let identity := identityOf env session date first
  refine ⟨⟨identity, env.identitySha256 identity,
    { canonicalUri := .dataset identity.announcementIssue (env.identitySha256 identity)
      parentCanonicalUris := parents.dedup
      content := .dataset identity (env.identitySha256 identity) }⟩, ?_, ⟨rfl, hdate, rfl, rfl, rfl, rfl⟩⟩
  have hvalid := validateIdentity_eq h hisDate hfirst hshort
  rw [datasetIdentity_materialize hdate hstart hfirst]
  simp only [materializeCnipaGazetteDatasetIdentity, bind_eq_ok, require_eq_ok, pure_eq_ok]
  exact ⟨identity, hvalid, (), hparents, rfl⟩

/-- No identity is built of a first page with a long instant. -/
theorem datasetIdentity_long {effective : Nat} {first : CnipaGazetteBrowserSourcePageEvidence}
    (h : SessionOf env.platform session) (hstart : range.startPage = 1)
    (hfirst : FirstPageOf env session first) (hlong : ¬ ShortInstant first.page.observedAt) :
    buildCnipaGazetteBrowserDatasetIdentity env session
      (checkpointEvidenceOf session effective range pages) first = .error longInstantError := by
  obtain ⟨date, hdate, hisDate⟩ := h.date
  rw [datasetIdentity_materialize hdate hstart hfirst, materializeCnipaGazetteDatasetIdentity,
    validateIdentity_long h hisDate hfirst hlong]
  rfl

/-- The identity is built of a first page with a short instant only. -/
theorem short_of_datasetIdentity {evidence : CnipaGazetteBrowserCheckpointEvidence}
    {first : CnipaGazetteBrowserSourcePageEvidence} {identity : CnipaGazetteDatasetIdentityEnvelope}
    (hfirst : FirstPageOf env session first)
    (h : buildCnipaGazetteBrowserDatasetIdentity env session evidence first = .ok identity) :
    ShortInstant first.page.observedAt := by
  simp only [buildCnipaGazetteBrowserDatasetIdentity, materializeCnipaGazetteDatasetIdentity,
    validateCnipaGazetteDatasetIdentitySnapshot, bind_eq_ok] at h
  obtain ⟨_, -, _, -, _, -, _, -, _, -, _, ⟨_, -, _, -, _, -, _, -, _, -, _, -, _, hinstant, -⟩, -⟩ := h
  exact short_of_instant hfirst.page hinstant

/-- The package of a checkpoint of the session. -/
def packageOf (session : CnipaGazetteBrowserStreamSession)
    (identity : CnipaGazetteDatasetIdentityEnvelope) (range : CnipaGazettePageRange)
    (pages : List CnipaGazetteBrowserLogicalPage) (collectedAt : String) :
    CnipaGazetteDataEngineChunkPackage where
  announcement_issue := session.announcementIssue
  announcement_date := identity.identity.announcementDate
  source_record_count := session.sourceTotal
  source_page_count := logicalPageCount session.sourceTotal
  page_size := 100
  range_start_page := range.startPage
  range_end_page := range.endPage
  page_row_counts := pages.map fun page => ⟨page.pageIndex, page.rows.length⟩
  chunk_row_count := (pages.flatMap (·.rows)).length
  source_dataset_sha256 := identity.sourceDatasetSha256
  source_uri := identity.identity.sourceUri
  collected_at := collectedAt
  records := (pages.flatMap (·.rows)).map announcementRow

theorem package_eq (range : CnipaGazettePageRange) {identity : CnipaGazetteDatasetIdentityEnvelope}
    {collectedAt : String}
    (h : SessionOf env.platform session)
    (hrows : ∀ row ∈ pages.flatMap (·.rows), RowOf session.announcementIssue row)
    (hidentity : IdentityOf session identity)
    (hinstant : instant env collectedAt "collectedAt" = .ok collectedAt) :
    buildCnipaGazetteDataEngineChunkPackage env (checkpointOf session range pages) identity collectedAt =
      .ok (packageOf session identity range pages collectedAt) := by
  have hrecords : (pages.flatMap (·.rows)).mapM mapRow =
      .ok ((pages.flatMap (·.rows)).map announcementRow) :=
    mapM_eq_map fun row hrow => mapRow_eq (hrows row hrow)
  obtain ⟨date, hdate, hisDate⟩ := h.date
  have hsame : date = identity.identity.announcementDate :=
    Option.some.inj (hdate.symm.trans hidentity.date)
  subst hsame
  simp only [buildCnipaGazetteDataEngineChunkPackage, checkpointOf, hinstant, hrecords, hdate,
    isoDate_eq hisDate, ok_bind, bind_eq_ok, require_eq_ok, pure_eq_ok, List.length_map]
  exact ⟨(), ⟨hidentity.issue.symm, rfl, hidentity.total.symm, hidentity.pages.symm,
    hidentity.size.symm⟩, (), trivial, rfl⟩

theorem request_eq (collectedAt : String) {identity : CnipaGazetteDatasetIdentityEnvelope}
    {createdAt : String}
    (h : SessionOf env.platform session) (hrange : RangeOf session rows range pages)
    (hidentity : IdentityOf session identity)
    (hinstant : instant env createdAt "createdAt" = .ok createdAt) :
    ∃ artifact, buildCnipaGazetteChunkAdmissionRequestArtifact env
      (packageOf session identity range pages collectedAt) identity.artifact.canonicalUri
      (.checkpoint session.announcementIssue range.startPage range.endPage) createdAt = .ok artifact := by
  have hend : isSafeInteger range.endPage = true := isSafeInteger_mono hrange.within h.countSafe
  have hstart : isSafeInteger range.startPage = true := isSafeInteger_mono hrange.le hend
  have hendPos : 1 ≤ range.endPage := Nat.le_trans hrange.start hrange.le
  let artifact : AcquiredCollectionArtifact :=
    { canonicalUri := .chunkRequest session.announcementIssue identity.sourceDatasetSha256
        range.startPage range.endPage
      parentCanonicalUris := [identity.artifact.canonicalUri,
        .checkpoint session.announcementIssue range.startPage range.endPage]
      content := .chunkRequest createdAt (packageOf session identity range pages collectedAt) }
  refine ⟨artifact, ?_⟩
  simp only [buildCnipaGazetteChunkAdmissionRequestArtifact, bind_eq_ok, require_eq_ok, pure_eq_ok]
  exact ⟨_, positiveSafe_eq h.issue, _, positiveSafe_eq ⟨hstart, hrange.start⟩, _,
    positiveSafe_eq ⟨hend, hendPos⟩, (), hrange.le, createdAt, hinstant, (), hidentity.uri, (), rfl, rfl⟩

end Packages

end MarkorbitKnowledge.Gazette
