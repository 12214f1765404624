import MarkorbitKnowledge.Gazette.CheckpointStream

/-!
# Rows that are read once are read unchanged

The rows of a source page are trimmed and bounded when it is parsed.  The readers of a state, of a
checkpoint and of a package make the same checks again, each with its own code; they pass such a row
through as it is.
-/

namespace MarkorbitKnowledge.Gazette

open Contracts Fallible

/-- A text a reader has trimmed and measured. -/
structure ReadText (maximum : Nat) (text : String) : Prop where
  trimmed : trim text = text
  bounded : jsLength text ≤ maximum

/-- A row of a page of the session. -/
structure RowOf (issue : Nat) (row : CnipaGazetteRuntimeRow) : Prop where
  rowId : ReadText 256 row.sourceRowId
  rowId_ne : row.sourceRowId ≠ ""
  searchId : ReadText 256 row.sourceSearchId
  searchId_eq : row.sourceSearchId = "" ∨ row.sourceSearchId = row.sourceRowId
  issue_eq : row.announcementIssue = issue
  issuePositive : isSafeInteger issue = true ∧ 1 ≤ issue
  registration : ReadText 128 row.registrationNumber
  registration_ne : row.registrationNumber ≠ ""
  typeCode : ReadText 128 row.announcementTypeCode
  typeCode_ne : row.announcementTypeCode ≠ ""
  typeName : ReadText 512 row.announcementTypeName
  pageNo : ∀ n ∈ row.detailPageNo, isSafeInteger n = true ∧ 1 ≤ n
  pageCount : ∀ n ∈ row.announcementPageCount, isSafeInteger n = true ∧ 1 ≤ n
  fileId : ReadText 256 row.detailFileId
  assetPath : ReadText 4096 row.detailAssetPath
  detailUrl : row.announcementDetailUrl = ""

section Texts

variable {value : Option Json} {label text : String} {maximum minimum n : Nat}

theorem readText_empty (maximum : Nat) : ReadText maximum "" :=
  ⟨by decide, by simp [jsLength]⟩

/-- A text that starts and ends with no white space is read as it is. -/
theorem readText_ofList {chars : List Char} (hfirst : (chars.head?.all fun c => !isJsSpace c) = true)
    (hlast : (chars.getLast?.all fun c => !isJsSpace c) = true)
    (hlength : (chars.map fun c => if c.toNat < 0x10000 then 1 else 2).sum ≤ maximum) :
    ReadText maximum (String.ofList chars) := by
  have hchars : (String.ofList chars).toList = chars := String.toList_ofList
  have hends : ∀ {o : Option Char}, (o.all fun c => !isJsSpace c) = true →
      ∀ c ∈ o, isJsSpace c = false := by
    rintro _ hall c rfl
    simpa using hall
  refine ⟨trim_eq_self (hchars.symm ▸ hends hfirst) (hchars.symm ▸ hends hlast), ?_⟩
  rw [jsLength, hchars]
  exact hlength

theorem requiredText_spec (h : requiredText value label maximum = .ok text) :
    ReadText maximum text ∧ text ≠ "" := by
  simp only [requiredText, bind_eq_ok, orThrow_eq_ok, require_eq_ok, pure_eq_ok] at h
  obtain ⟨raw, -, _, ⟨hne, hle⟩, rfl⟩ := h
  exact ⟨⟨trim_trim raw, hle⟩, hne⟩

theorem requiredText_text (h : ReadText maximum text) (hne : text ≠ "") :
    requiredText (some (.text text)) label maximum = .ok text := by
  simp only [requiredText, printed, bind_eq_ok, orThrow_eq_ok, require_eq_ok, pure_eq_ok]
  refine ⟨text, rfl, (), ?_, h.trimmed⟩
  rw [h.trimmed]
  exact ⟨hne, h.bounded⟩

theorem optionalText_spec (h : optionalText value label maximum = .ok text) : ReadText maximum text := by
  unfold optionalText at h
  split at h
  · rw [← pure_eq_ok.mp h]
    exact readText_empty maximum
  · rw [← pure_eq_ok.mp h]
    exact readText_empty maximum
  · simp only [bind_eq_ok, orThrow_eq_ok, require_eq_ok, pure_eq_ok] at h
    obtain ⟨raw, -, _, hle, rfl⟩ := h
    exact ⟨trim_trim raw, hle⟩

theorem optionalText_text (h : ReadText maximum text) :
    optionalText (some (.text text)) label maximum = .ok text := by
  simp only [optionalText, printed, bind_eq_ok, orThrow_eq_ok, require_eq_ok, pure_eq_ok]
  exact ⟨text, rfl, (), h.trimmed.symm ▸ h.bounded, h.trimmed⟩

theorem integer_spec (h : integer value label minimum = .ok n) :
    isSafeInteger n = true ∧ minimum ≤ n := by
  simp only [integer, bind_eq_ok, orThrow_eq_ok, require_eq_ok, pure_eq_ok] at h
  obtain ⟨parsed, -, _, ⟨hle, hsafe⟩, rfl⟩ := h
  exact ⟨hsafe, by omega⟩

theorem integer_number (hsafe : isSafeInteger n = true) (hle : minimum ≤ n) :
    integer (some (.number n)) label minimum = .ok n := by
  simp only [integer, numberOf, bind_eq_ok, orThrow_eq_ok, require_eq_ok, pure_eq_ok]
  exact ⟨n, rfl, (), ⟨by omega, by simpa using hsafe⟩, by simp⟩

theorem positiveIntegerOrNull_spec {read : Option Nat}
    (h : positiveIntegerOrNull value label = .ok read) :
    ∀ n ∈ read, isSafeInteger n = true ∧ 1 ≤ n := by
  unfold positiveIntegerOrNull at h
  split at h
  · rw [← pure_eq_ok.mp h]
    simp
  · rw [← pure_eq_ok.mp h]
    simp
  · rw [← pure_eq_ok.mp h]
    simp
  · simp only [bind_eq_ok, pure_eq_ok] at h
    obtain ⟨parsed, hparsed, rfl⟩ := h
    intro n hn
    obtain ⟨hne, rfl⟩ : parsed ≠ 0 ∧ parsed = n := by simpa using hn
    exact ⟨(integer_spec hparsed).1, Nat.one_le_iff_ne_zero.mpr hne⟩

theorem positiveIntegerOrNull_number {read : Option Nat}
    (h : ∀ n ∈ read, isSafeInteger n = true ∧ 1 ≤ n) :
    positiveIntegerOrNull (pageNumberJson read) label = .ok read := by
  cases read with
  | none => rfl
  | some n =>
    obtain ⟨hsafe, hpos⟩ := h n rfl
    simp only [positiveIntegerOrNull, pageNumberJson, bind_eq_ok, pure_eq_ok]
    exact ⟨n, integer_number hsafe (Nat.zero_le n), if_neg (Nat.one_le_iff_ne_zero.mp hpos)⟩

theorem runtimeText_eq (h : ReadText maximum text) (hne : text ≠ "") :
    runtimeText text label maximum = .ok text := by
  simp only [runtimeText, bind_eq_ok, require_eq_ok, pure_eq_ok, h.trimmed]
  exact ⟨(), ⟨hne, h.bounded⟩, trivial⟩

theorem runtimeOptionalText_eq (h : ReadText maximum text) :
    runtimeOptionalText text label maximum = .ok text := by
  simp only [runtimeOptionalText, bind_eq_ok, require_eq_ok, pure_eq_ok, h.trimmed]
  exact ⟨(), h.bounded, trivial⟩

theorem nonEmpty_eq (h : ReadText maximum text) (hne : text ≠ "") :
    nonEmpty text label maximum = .ok text := by
  simp only [nonEmpty, bind_eq_ok, require_eq_ok, pure_eq_ok, h.trimmed]
  exact ⟨(), ⟨hne, h.bounded⟩, trivial⟩

theorem positiveSafe_eq (h : isSafeInteger n = true ∧ 1 ≤ n) : positiveSafe n label = .ok n := by
  simp only [positiveSafe, bind_eq_ok, require_eq_ok, pure_eq_ok]
  exact ⟨(), h, trivial⟩

theorem nonNegativeInteger_eq (h : isSafeInteger n = true) : nonNegativeInteger n label = .ok n := by
  simp only [nonNegativeInteger, bind_eq_ok, require_eq_ok, pure_eq_ok]
  exact ⟨(), h, trivial⟩

theorem positiveOrNull_eq {read : Option Nat} (h : ∀ n ∈ read, isSafeInteger n = true ∧ 1 ≤ n) :
    positiveOrNull read label = .ok read := by
  cases read with
  | none => rfl
  | some n =>
    simp only [positiveOrNull, map_eq_ok]
    exact ⟨n, positiveSafe_eq (h n rfl), rfl⟩

end Texts

/-! ### Rows -/

section Rows

variable {platform : Platform} {session : CnipaGazetteBrowserStreamSession} {issue : Nat}
  {row : CnipaGazetteRuntimeRow} {label : String}

theorem normalizeRow_spec {value : Json} {pageIndex rowIndex : Nat}
    (h : normalizeRow platform value session pageIndex rowIndex = .ok row) :
    RowOf session.announcementIssue row := by
  simp only [normalizeRow, bind_eq_ok, require_eq_ok, pure_eq_ok] at h
  obtain ⟨fields, -, rowId, hrowId, searchId, hsearchId, _, hsearch, rowIssue, hissue, _, hsame,
    date, -, _, -, registration, hregistration, typeCode, htypeCode, typeName, htypeName,
    pageNo, hpageNo, pageCount, hpageCount, fileId, hfileId, assetPath, hassetPath, rfl⟩ := h
  exact
    { rowId := (requiredText_spec hrowId).1
      rowId_ne := (requiredText_spec hrowId).2
      searchId := optionalText_spec hsearchId
      searchId_eq := hsearch
      issue_eq := hsame
      issuePositive := hsame ▸ integer_spec hissue
      registration := (requiredText_spec hregistration).1
      registration_ne := (requiredText_spec hregistration).2
      typeCode := (requiredText_spec htypeCode).1
      typeCode_ne := (requiredText_spec htypeCode).2
      typeName := optionalText_spec htypeName
      pageNo := positiveIntegerOrNull_spec hpageNo
      pageCount := positiveIntegerOrNull_spec hpageCount
      fileId := optionalText_spec hfileId
      assetPath := optionalText_spec hassetPath
      detailUrl := rfl }

theorem normalizePersistedRuntimeRow_eq (h : RowOf session.announcementIssue row) :
    normalizePersistedRuntimeRow row session label = .ok row := by
  have hurl : ReadText 4096 row.announcementDetailUrl := h.detailUrl ▸ readText_empty 4096
  have hissue : isSafeInteger row.announcementIssue = true ∧ 1 ≤ row.announcementIssue :=
    h.issue_eq ▸ h.issuePositive
  simp only [normalizePersistedRuntimeRow, requiredText_text h.rowId h.rowId_ne,
    optionalText_text h.searchId, integer_number hissue.1 hissue.2,
    requiredText_text h.registration h.registration_ne, requiredText_text h.typeCode h.typeCode_ne,
    optionalText_text h.typeName, positiveIntegerOrNull_number h.pageNo,
    positiveIntegerOrNull_number h.pageCount, optionalText_text h.fileId,
    optionalText_text h.assetPath, optionalText_text hurl, ok_bind, bind_eq_ok, require_eq_ok,
    pure_eq_ok]
  exact ⟨(), h.searchId_eq, (), h.issue_eq, trivial⟩

theorem normalizeRuntimeRow_eq (h : RowOf issue row) : normalizeRuntimeRow row issue label = .ok row := by
  have hurl : ReadText 4096 row.announcementDetailUrl := h.detailUrl ▸ readText_empty 4096
  simp only [normalizeRuntimeRow, runtimeText_eq h.rowId h.rowId_ne, runtimeOptionalText_eq h.searchId,
    runtimeText_eq h.registration h.registration_ne, runtimeText_eq h.typeCode h.typeCode_ne,
    runtimeOptionalText_eq h.typeName, positiveOrNull_eq h.pageNo, positiveOrNull_eq h.pageCount,
    runtimeOptionalText_eq h.fileId, runtimeOptionalText_eq h.assetPath, runtimeOptionalText_eq hurl,
    ok_bind, bind_eq_ok, require_eq_ok, pure_eq_ok]
  refine ⟨(), h.searchId_eq, (), h.issue_eq, ?_⟩
  rw [← h.issue_eq]

/-- A row under the names of the data engine. -/
def announcementRow (row : CnipaGazetteRuntimeRow) : CnipaGazetteDataEngineAnnouncementRow where
  source_row_id := row.sourceRowId
  source_search_id := row.sourceSearchId
  registration_number := row.registrationNumber
  announcement_issue := row.announcementIssue
  announcement_type_code := row.announcementTypeCode
  announcement_type_name := row.announcementTypeName
  detail_page_no := row.detailPageNo
  announcement_page_count := row.announcementPageCount
  detail_file_id := row.detailFileId
  detail_asset_path := row.detailAssetPath
  announcement_detail_url := row.announcementDetailUrl

theorem mapRow_eq (h : RowOf issue row) : mapRow row = .ok (announcementRow row) := by
  have hurl : ReadText 4096 row.announcementDetailUrl := h.detailUrl ▸ readText_empty 4096
  have hissue : isSafeInteger row.announcementIssue = true ∧ 1 ≤ row.announcementIssue :=
    h.issue_eq ▸ h.issuePositive
  simp only [mapRow, nonEmpty_eq h.rowId h.rowId_ne, nonEmpty_eq h.registration h.registration_ne,
    positiveSafe_eq hissue, nonEmpty_eq h.typeCode h.typeCode_ne, ok_bind, pure_eq_ok,
    h.searchId.trimmed, h.typeName.trimmed, h.fileId.trimmed, h.assetPath.trimmed, hurl.trimmed,
    announcementRow]

theorem mapM_eq_map {α β : Type} {f : α → Except String β} {g : α → β} {l : List α}
    (h : ∀ a ∈ l, f a = .ok (g a)) : l.mapM f = .ok (l.map g) := by
  induction l with
  | nil => rfl
  | cons a l ih =>
    simp only [List.mapM_cons, h a List.mem_cons_self, ih fun b hb => h b (List.mem_cons_of_mem a hb),
      ok_bind, List.map_cons]
    rfl

/-- `list.map((item, index) => read(item, index))`, where every item is read unchanged. -/
theorem mapM_zipIdx_eq {α : Type} {read : α × Nat → Except String α} {l : List α}
    (h : ∀ a ∈ l, ∀ index, read (a, index) = .ok a) : l.zipIdx.mapM read = .ok l := by
  have hread : ∀ item ∈ l.zipIdx, read item = .ok item.1 := by
    rintro ⟨a, index⟩ hmem
    exact h a (List.fst_mem_of_mem_zipIdx hmem) index
  rw [mapM_eq_map hread, List.zipIdx_map_fst]

end Rows

/-! ### Sessions and source pages -/

/-- What is known of a session with rows. -/
structure SessionOf (platform : Platform) (session : CnipaGazetteBrowserStreamSession) : Prop where
  totalPos : 1 ≤ session.sourceTotal
  totalSafe : isSafeInteger session.sourceTotal = true
  sizeBounds : 1 ≤ session.sourcePageSize ∧ session.sourcePageSize ≤ 100
  pages : session.sourcePages = ceilDiv session.sourceTotal session.sourcePageSize
  pagesSafe : isSafeInteger session.sourcePages = true
  issue : isSafeInteger session.announcementIssue = true ∧ 1 ≤ session.announcementIssue
  date : ∃ date, session.announcementDate = some date ∧ platform.isDate date = true
  url : ReadText 4096 session.sourceUrl
  url_ne : session.sourceUrl ≠ ""

section Sessions

variable {platform : Platform} {session : CnipaGazetteBrowserStreamSession}

theorem isoDateOrNull_spec {value : Option Json} {label : String} {read : Option String}
    (h : isoDateOrNull value label platform = .ok read) :
    ∀ date ∈ read, platform.isDate date = true := by
  unfold isoDateOrNull at h
  split at h
  · rw [← pure_eq_ok.mp h]
    simp
  · simp only [bind_eq_ok, require_eq_ok, pure_eq_ok] at h
    obtain ⟨normalized, -, _, hdate, rfl⟩ := h
    intro date hmem
    rwa [← Option.some.inj hmem]

theorem createSession_spec {input : BrowserStreamSessionInput}
    (h : createCnipaGazetteBrowserStreamSession platform input = .ok session)
    (htotal : 1 ≤ session.sourceTotal) (hsize : session.sourcePageSize ≤ 100) :
    SessionOf platform session := by
  simp only [createCnipaGazetteBrowserStreamSession, bind_eq_ok, require_eq_ok, pure_eq_ok] at h
  obtain ⟨sessionId, -, _, -, issue, hissue, query, -, size, hpageSize, total, htotalSafe, pages, hpages,
    _, hcount, date, hdate, _, hdated, url, hurl, _, -, startedAt, -, rfl⟩ := h
  have hpos : 1 ≤ size := (integer_spec hpageSize).2
  have hceil : 0 < ceilDiv total size := ceilDiv_pos htotal hpos
  have hsome : date ≠ none := by
    rcases hdated with hzero | hsome
    · exact absurd hzero (Nat.one_le_iff_ne_zero.mp htotal)
    · exact hsome
  obtain ⟨text, rfl⟩ := Option.ne_none_iff_exists'.mp hsome
  exact
    { totalPos := htotal
      totalSafe := (integer_spec htotalSafe).1
      sizeBounds := ⟨hpos, hsize⟩
      pages := by
        rw [hcount]
        exact Nat.max_eq_right hceil
      pagesSafe := (integer_spec hpages).1
      issue := integer_spec hissue
      date := ⟨text, rfl, isoDateOrNull_spec hdate text rfl⟩
      url := (requiredText_spec hurl).1
      url_ne := (requiredText_spec hurl).2 }

/-- A page of the session, as it is parsed. -/
structure PageOf (env : Env) (session : CnipaGazetteBrowserStreamSession) (index : Nat)
    (page : CnipaGazetteBrowserSourcePage) : Prop where
  sessionId : page.sessionId = session.sessionId
  index_eq : page.sourcePageIndex = index
  index_le : 1 ≤ index ∧ index ≤ session.sourcePages
  pagination : SamePagination session page
  rows : ∀ row ∈ page.rows, RowOf session.announcementIssue row
  length : page.rows.length =
    expectedRows session.sourceTotal session.sourcePageSize session.sourcePages index
  signature : page.pageSignatureSha256 = env.hashes.ofIds (page.rows.map (·.sourceRowId))
  observedAt : ReadText 128 page.observedAt ∧ page.observedAt ≠ ""
  parses : env.platform.dateParses page.observedAt = true

theorem mem_of_mapM {α β : Type} {f : α → Except String β} {l : List α} {read : List β}
    (h : l.mapM f = .ok read) : ∀ b ∈ read, ∃ a ∈ l, f a = .ok b := by
  induction l generalizing read with
  | nil =>
    simp only [List.mapM_nil, pure_eq_ok] at h
    subst h
    simp
  | cons a l ih =>
    simp only [List.mapM_cons, bind_eq_ok, pure_eq_ok] at h
    obtain ⟨b, hb, rest, hrest, rfl⟩ := h
    intro c hc
    rcases List.mem_cons.mp hc with rfl | hc
    · exact ⟨a, List.mem_cons_self, hb⟩
    · obtain ⟨a', ha', hf⟩ := ih hrest c hc
      exact ⟨a', List.mem_cons_of_mem a ha', hf⟩

theorem length_mapM {α β : Type} {f : α → Except String β} {l : List α} {read : List β}
    (h : l.mapM f = .ok read) : read.length = l.length := by
  induction l generalizing read with
  | nil =>
    simp only [List.mapM_nil, pure_eq_ok] at h
    rw [← h]
    rfl
  | cons a l ih =>
    simp only [List.mapM_cons, bind_eq_ok, pure_eq_ok] at h
    obtain ⟨b, -, rest, hrest, rfl⟩ := h
    rw [List.length_cons, List.length_cons, ih hrest]

theorem parseSourcePage_spec {env : Env} {requestedPageIndex httpStatus : Nat} {observedAt : String}
    {payload : Json} {page : CnipaGazetteBrowserSourcePage}
    (h : parseCnipaGazetteBrowserSourcePage env.platform env.hashes session requestedPageIndex observedAt
      httpStatus payload = .ok page) :
    PageOf env session requestedPageIndex page ∧ page.observedAt = trim observedAt := by
  simp only [parseCnipaGazetteBrowserSourcePage, bind_eq_ok, require_eq_ok, orThrow_eq_ok, pure_eq_ok]
    at h
  obtain ⟨requested, hrequested, _, hle, _, -, envelope, -, code, -, _, -, _, -, data, -, list, -,
    index, hindex, size, -, total, -, pages, -, _, hsame, _, hsize, _, ⟨htotal, hpages⟩, _, hlength,
    rows, hrows, _, -, observed, hobserved, rfl⟩ := h
  have hrequestedEq : requested = requestedPageIndex := by
    have hsafe := integer_spec hrequested
    simp only [integer, numberOf, bind_eq_ok, orThrow_eq_ok, require_eq_ok, pure_eq_ok] at hrequested
    obtain ⟨parsed, hparsed, _, -, rfl⟩ := hrequested
    obtain rfl := Option.some.inj hparsed
    rfl
  subst hsame hrequestedEq hsize htotal hpages
  simp only [isoInstant, bind_eq_ok, require_eq_ok, pure_eq_ok] at hobserved
  obtain ⟨normalized, hnormalized, _, hparses, rfl⟩ := hobserved
  have htrim : normalized = trim observedAt := by
    simp only [requiredText, printed, bind_eq_ok, orThrow_eq_ok, require_eq_ok, pure_eq_ok]
      at hnormalized
    obtain ⟨raw, hraw, _, -, rfl⟩ := hnormalized
    rw [Option.some.inj hraw]
  refine ⟨?_, htrim⟩
  exact
    { sessionId := rfl
      index_eq := rfl
      index_le := ⟨(integer_spec hrequested).2, hle⟩
      pagination := ⟨rfl, rfl, rfl, rfl⟩
      rows := by
        intro row hrow
        obtain ⟨⟨value, rowIndex⟩, -, hvalue⟩ := mem_of_mapM hrows row hrow
        exact normalizeRow_spec hvalue
      length := by
        rw [length_mapM hrows, List.length_zipIdx, hlength]
      signature := rfl
      observedAt := requiredText_spec hnormalized
      parses := hparses }

end Sessions

end MarkorbitKnowledge.Gazette
