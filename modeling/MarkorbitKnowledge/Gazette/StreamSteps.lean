import MarkorbitKnowledge.Gazette.CheckpointRows

/-!
# One page of the checkpoint stream

What a stream keeps after the first source pages of a session, and what the next page does to it.  The
page is refused in two cases only: an instant is too long for the package of the checkpoint that ends
with it, or the number of the page after it is no safe integer.
-/

namespace MarkorbitKnowledge.Gazette

open Contracts Fallible Tiling

/-! ### The ends of checkpoints -/

section Ends

variable {platform : Platform} {session : CnipaGazetteBrowserStreamSession} {effective index : Nat}

theorem SessionOf.paging (h : SessionOf platform session)
    (haligned : Aligned session.sourcePageSize effective) :
    Paging session.sourceTotal session.sourcePageSize effective :=
  ⟨h.totalPos, h.sizeBounds, haligned⟩

theorem SessionOf.sourceBound_lt_iff (h : SessionOf platform session)
    (haligned : Aligned session.sourcePageSize effective) :
    sourceBound session.sourceTotal session.sourcePageSize effective index < session.sourcePages ↔
      index < checkpointCount session.sourceTotal effective := by
  have hpaging := h.paging haligned
  constructor
  · intro hlt
    by_contra hge
    rw [(hpaging.bounds_of_ge (Nat.not_lt.mp hge)).2, ← h.pages] at hlt
    exact Nat.lt_irrefl _ hlt
  · intro hlt
    rw [(hpaging.bounds_of_lt hlt).2, h.lt_pages_iff, hpaging.rows_eq]
    exact hpaging.lt_count_iff.mp hlt

/-- The logical pages of the first checkpoints are those that their source pages complete. -/
theorem SessionOf.logicalDone_sourceBound (h : SessionOf platform session)
    (haligned : Aligned session.sourcePageSize effective) (index : Nat) :
    logicalDone session (sourceBound session.sourceTotal session.sourcePageSize effective index) =
      logicalBound session.sourceTotal effective index := by
  have hpaging := h.paging haligned
  by_cases hindex : index < checkpointCount session.sourceTotal effective
  · rw [logicalDone, if_pos ((h.sourceBound_lt_iff haligned).mpr hindex),
      (hpaging.bounds_of_lt hindex).1, (hpaging.bounds_of_lt hindex).2, hpaging.rows_eq,
      Nat.mul_div_cancel _ (by decide)]
  · obtain ⟨hlogical, hsource⟩ := hpaging.bounds_of_ge (Nat.not_lt.mp hindex)
    rw [hlogical, hsource, ← h.pages, logicalDone_of_ge (Nat.le_refl _)]

/-- A checkpoint leaves no row behind. -/
theorem SessionOf.rowBound_sourceBound (h : SessionOf platform session)
    (haligned : Aligned session.sourcePageSize effective) :
    rowBound session (sourceBound session.sourceTotal session.sourcePageSize effective index) =
      logicalRowBound session (logicalBound session.sourceTotal effective index) := by
  have hpaging := h.paging haligned
  by_cases hindex : index < checkpointCount session.sourceTotal effective
  · rw [rowBound, logicalRowBound, (hpaging.bounds_of_lt hindex).1, (hpaging.bounds_of_lt hindex).2,
      hpaging.rows_eq]
  · obtain ⟨hlogical, hsource⟩ := hpaging.bounds_of_ge (Nat.not_lt.mp hindex)
    rw [hlogical, hsource, ← h.pages, h.rowBound_of_ge (Nat.le_refl _), logicalRowBound,
      Nat.min_eq_left h.total_le]

theorem sourceBound_mono (total size effective : Nat) : Monotone (sourceBound total size effective) := by
  intro a b hle
  have hmul : a * sourcePagesPerCheckpoint size effective ≤ b * sourcePagesPerCheckpoint size effective :=
    Nat.mul_le_mul_right _ hle
  simp only [sourceBound]
  omega

theorem logicalBound_mono (total effective : Nat) : Monotone (logicalBound total effective) := by
  intro a b hle
  have hmul : a * effective ≤ b * effective := Nat.mul_le_mul_right _ hle
  simp only [logicalBound]
  omega

/-- Every checkpoint has a logical page and a source page. -/
theorem Paging.bounds_lt_succ {total size effective index : Nat} (h : Paging total size effective)
    (hindex : index < checkpointCount total effective) :
    logicalBound total effective index < logicalBound total effective (index + 1) ∧
      sourceBound total size effective index < sourceBound total size effective (index + 1) := by
  obtain ⟨hlogical, hsource⟩ := h.bounds_of_lt hindex
  have hrows := h.lt_count_iff.mp hindex
  have hcount : index * effective < logicalPageCount total := by
    rw [h.logicalPageCount_eq, lt_ceilDiv_iff (by decide)]
    exact hrows
  have hpages : index * sourcePagesPerCheckpoint size effective < ceilDiv total size := by
    rw [lt_ceilDiv_iff h.sizeBounds.1, h.rows_eq]
    exact hrows
  have hpos := h.aligned.pos
  have hsourcePos := h.sourcePages_pos
  rw [hlogical, hsource]
  simp only [logicalBound, sourceBound, Nat.succ_mul]
  omega

end Ends

/-! ### The checkpoint that ends with a page -/

/-- The package of a checkpoint holds the rows of its range. -/
structure CommitOf (session : CnipaGazetteBrowserStreamSession) (rows : List CnipaGazetteRuntimeRow)
    (effective index : Nat) (commit : CheckpointCommit) : Prop where
  plan : commit.rangePlan = rangeAt session.sourceTotal session.sourcePageSize effective index
  records : commit.package.records =
    (slice rows (logicalRowBound session (logicalBound session.sourceTotal effective index))
      (logicalRowBound session (logicalBound session.sourceTotal effective (index + 1)))).map announcementRow

/-- Where a checkpoint takes the identity of its dataset from. -/
def IdentityGiven (env : Env) (session : CnipaGazetteBrowserStreamSession) (index : Nat)
    (firstSourcePageEvidence : Option CnipaGazetteBrowserSourcePageEvidence)
    (datasetIdentity : Option CnipaGazetteDatasetIdentityEnvelope) : Prop :=
  (∃ identity, datasetIdentity = some identity ∧ IdentityOf session identity) ∨
    datasetIdentity = none ∧ index = 0 ∧ ∃ first, firstSourcePageEvidence = some first ∧
      FirstPageOf env session first ∧ ShortInstant first.page.observedAt

section Commits

variable {env : Env} {config : StreamConfig} {rows : List CnipaGazetteRuntimeRow}
  {pages : List CnipaGazetteBrowserLogicalPage} {effective index pageIndex : Nat}
  {accepted : AcceptedPage}
  {firstSourcePageEvidence : Option CnipaGazetteBrowserSourcePageEvidence}
  {datasetIdentity : Option CnipaGazetteDatasetIdentityEnvelope}

/-- The logical pages between the bounds of a checkpoint are those of its range. -/
theorem rangeOf_pages (h : SessionOf env.platform config.session)
    (haligned : Aligned config.session.sourcePageSize effective)
    (hindex : index < checkpointCount config.session.sourceTotal effective)
    (hrows : logicalRowBound config.session
      (logicalBound config.session.sourceTotal effective (index + 1)) ≤ rows.length)
    (hpages : Numbered (LogicalPageOf config.session rows)
      (logicalBound config.session.sourceTotal effective index + 1) pages)
    (hlength : pages.length = logicalBound config.session.sourceTotal effective (index + 1) -
      logicalBound config.session.sourceTotal effective index) :
    RangeOf config.session rows
      (rangeAt config.session.sourceTotal config.session.sourcePageSize effective index).logicalRange
      pages := by
  have hlt := ((h.paging haligned).bounds_lt_succ hindex).1
  exact
    { start := Nat.le_add_left 1 _
      le := hlt
      within := Nat.min_le_left _ _
      length := by
        rw [hlength]
        simp only [rangeAt]
        omega
      pages := hpages
      rows_le := hrows }

/-- The first and the last page of a range. -/
theorem RangeOf.ends {session : CnipaGazetteBrowserStreamSession} {range : CnipaGazettePageRange}
    (h : RangeOf session rows range pages) :
    pages.head?.map (·.pageIndex) = some range.startPage ∧
      pages.getLast?.map (·.pageIndex) = some range.endPage := by
  have hlength := h.length
  have hle := h.le
  have hne : pages ≠ [] := by
    intro hnil
    rw [hnil, List.length_nil] at hlength
    omega
  constructor
  · obtain ⟨page, hpage⟩ := Option.isSome_iff_exists.mp (List.isSome_head?.mpr hne)
    rw [hpage, Option.map_some, (h.pages.head hpage).index_eq]
  · have hpage := List.getLast?_eq_some_getLast hne
    rw [hpage, Option.map_some, (h.pages.last hpage).index_eq]
    congr 1
    omega

theorem buildCheckpointCommit_eq (h : SessionOf env.platform config.session)
    (hrows : ∀ row ∈ rows, RowOf config.session.announcementIssue row)
    (hids : (rows.map (·.sourceRowId)).Nodup)
    (haligned : Aligned config.session.sourcePageSize config.effectiveLogicalPagesPerCheckpoint)
    (hplan : accepted.received.range = rangeAt config.session.sourceTotal config.session.sourcePageSize
      config.effectiveLogicalPagesPerCheckpoint index)
    (hrange : RangeOf config.session rows accepted.received.range.logicalRange pages)
    (htail : accepted.state.tailRows = [])
    (hpage : PageOf env config.session pageIndex accepted.received.evidence.page)
    (hshort : ShortInstant accepted.received.evidence.page.observedAt)
    (hgiven : IdentityGiven env config.session index firstSourcePageEvidence datasetIdentity) :
    ∃ identity commit, buildCheckpointCommit env config accepted pages firstSourcePageEvidence
        datasetIdentity = .ok (identity, commit) ∧
      IdentityOf config.session identity ∧
      CommitOf config.session rows config.effectiveLogicalPagesPerCheckpoint index commit := by
  have hevidence := checkpointEvidence_eq h hrows hids hrange haligned
  have hpackageRows : ∀ row ∈ pages.flatMap (·.rows), RowOf config.session.announcementIssue row := by
    intro row hrow
    rw [hrange.rows_eq] at hrow
    exact hrows row (mem_slice hrow)
  -- the identity is the one the stream has, or it is built of source page 1
  obtain ⟨identity, hidentity, hidentityOf⟩ : ∃ identity, checkpointIdentity env config
      (checkpointEvidenceOf config.session config.effectiveLogicalPagesPerCheckpoint
        accepted.received.range.logicalRange pages) firstSourcePageEvidence datasetIdentity =
        .ok identity ∧ IdentityOf config.session identity := by
    rcases hgiven with ⟨identity, rfl, hidentity⟩ | ⟨rfl, rfl, first, rfl, hfirst, hfirstShort⟩
    · exact ⟨identity, rfl, hidentity⟩
    · have hstart : accepted.received.range.logicalRange.startPage = 1 := by
        rw [hplan]
        simp [rangeAt, logicalBound]
      exact datasetIdentity_eq h hstart hfirst hfirstShort
  have hpackage := package_eq accepted.received.range.logicalRange h hpackageRows hidentityOf
    (instant_eq hpage hshort _)
  obtain ⟨request, hrequest⟩ := request_eq accepted.received.evidence.page.observedAt h hrange
    hidentityOf (instant_eq hpage hshort _)
  let commit : CheckpointCommit :=
    { rangePlan := accepted.received.range
      checkpoint := checkpointOf config.session accepted.received.range.logicalRange pages
      package := packageOf config.session identity accepted.received.range.logicalRange pages
        accepted.received.evidence.page.observedAt
      artifacts := [(checkpointEvidenceOf config.session config.effectiveLogicalPagesPerCheckpoint
        accepted.received.range.logicalRange pages).checkpointArtifact, identity.artifact, request] }
  refine ⟨identity, commit, ?_, hidentityOf, hplan, ?_⟩
  · simp only [buildCheckpointCommit, bind_eq_ok, require_eq_ok, pure_eq_ok]
    exact ⟨(), ⟨hrange.length, hrange.ends⟩, (), Or.inr htail, _, hevidence, identity, hidentity, _,
      hpackage, request, hrequest, rfl⟩
  · show (pages.flatMap (·.rows)).map announcementRow = _
    rw [hrange.rows_eq, hplan]
    rfl

/-- The first checkpoint takes the identity of its dataset from source page 1. -/
theorem buildCheckpointCommit_long {first : CnipaGazetteBrowserSourcePageEvidence}
    (h : SessionOf env.platform config.session)
    (hrows : ∀ row ∈ rows, RowOf config.session.announcementIssue row)
    (hids : (rows.map (·.sourceRowId)).Nodup)
    (haligned : Aligned config.session.sourcePageSize config.effectiveLogicalPagesPerCheckpoint)
    (hplan : accepted.received.range = rangeAt config.session.sourceTotal config.session.sourcePageSize
      config.effectiveLogicalPagesPerCheckpoint 0)
    (hrange : RangeOf config.session rows accepted.received.range.logicalRange pages)
    (htail : accepted.state.tailRows = []) (hfirst : FirstPageOf env config.session first)
    (hlong : ¬ ShortInstant first.page.observedAt) :
    buildCheckpointCommit env config accepted pages (some first) none = .error longInstantError := by
  have hstart : accepted.received.range.logicalRange.startPage = 1 := by
    rw [hplan]
    simp [rangeAt, logicalBound]
  have hevidence := checkpointEvidence_eq h hrows hids hrange haligned
  rw [buildCheckpointCommit]
  refine bind_eq_error.mpr (Or.inr ⟨(), require_eq_ok.mpr ⟨hrange.length, hrange.ends⟩, ?_⟩)
  refine bind_eq_error.mpr (Or.inr ⟨(), require_eq_ok.mpr (Or.inr htail), ?_⟩)
  refine bind_eq_error.mpr (Or.inr ⟨_, hevidence, bind_eq_error.mpr (Or.inl ?_)⟩)
  exact datasetIdentity_long h hstart hfirst hlong

/-- A checkpoint that is built has short instants. -/
theorem short_of_commit {built : CnipaGazetteDatasetIdentityEnvelope × CheckpointCommit}
    (hpage : PageOf env config.session pageIndex accepted.received.evidence.page)
    (h : buildCheckpointCommit env config accepted pages firstSourcePageEvidence datasetIdentity =
      .ok built) :
    ShortInstant accepted.received.evidence.page.observedAt ∧
      (datasetIdentity = none → ∀ first ∈ firstSourcePageEvidence,
        FirstPageOf env config.session first → ShortInstant first.page.observedAt) := by
  simp only [buildCheckpointCommit, bind_eq_ok] at h
  obtain ⟨_, -, _, -, evidence, -, identity, hidentity, package, hpackage, -⟩ := h
  constructor
  · simp only [buildCnipaGazetteDataEngineChunkPackage, bind_eq_ok] at hpackage
    obtain ⟨_, -, _, hinstant, -⟩ := hpackage
    exact short_of_instant hpage hinstant
  · intro hnone first hmem hfirst
    subst hnone
    rw [Option.mem_def] at hmem
    subst hmem
    simp only [checkpointIdentity, bind_eq_ok, orThrow_eq_ok] at hidentity
    obtain ⟨_, hsame, hbuilt⟩ := hidentity
    rw [← Option.some.inj hsame] at hbuilt
    exact short_of_datasetIdentity hfirst hbuilt

end Commits

/-! ### What a stream keeps -/

/-- The rows of the first checkpoints. -/
def checkpointRowBound (config : StreamConfig) (index : Nat) : Nat :=
  logicalRowBound config.session
    (logicalBound config.session.sourceTotal config.effectiveLogicalPagesPerCheckpoint index)

/-- The source pages of the first checkpoints. -/
def checkpointSourceBound (config : StreamConfig) (index : Nat) : Nat :=
  sourceBound config.session.sourceTotal config.session.sourcePageSize
    config.effectiveLogicalPagesPerCheckpoint index

/-- A stream of a session, with its plan. -/
structure StreamOf (env : Env) (config : StreamConfig) : Prop where
  session : SessionOf env.platform config.session
  aligned : Aligned config.session.sourcePageSize config.effectiveLogicalPagesPerCheckpoint
  ranges : config.ranges =
    (List.range (checkpointCount config.session.sourceTotal
      config.effectiveLogicalPagesPerCheckpoint)).map
      (rangeAt config.session.sourceTotal config.session.sourcePageSize
        config.effectiveLogicalPagesPerCheckpoint)

/-- The stream after the first source pages. -/
structure MemoryAfter (env : Env) (config : StreamConfig) (rows : List CnipaGazetteRuntimeRow)
    (first : CnipaGazetteBrowserSourcePageEvidence) (pages : Nat) (memory : StreamMemory) : Prop where
  state : StateAfter env config.session rows pages memory.state
  start : checkpointSourceBound config memory.checkpointIndex ≤ pages
  within : pages < config.session.sourcePages →
    pages < checkpointSourceBound config (memory.checkpointIndex + 1)
  finished : config.session.sourcePages ≤ pages → memory.checkpointIndex =
    checkpointCount config.session.sourceTotal config.effectiveLogicalPagesPerCheckpoint
  logical : Numbered (LogicalPageOf config.session rows)
    (logicalBound config.session.sourceTotal config.effectiveLogicalPagesPerCheckpoint
      memory.checkpointIndex + 1) memory.logicalPages
  count : memory.logicalPages.length = logicalDone config.session pages -
    logicalBound config.session.sourceTotal config.effectiveLogicalPagesPerCheckpoint
      memory.checkpointIndex
  identity : (memory.checkpointIndex = 0 ∧ memory.datasetIdentity = none ∧
      memory.firstSourcePageEvidence = if pages = 0 then none else some first) ∨
    0 < memory.checkpointIndex ∧ ShortInstant first.page.observedAt ∧
      ∃ identity, memory.datasetIdentity = some identity ∧ IdentityOf config.session identity

/-- A page as it is requested and as it is parsed. -/
structure PageAt (env : Env) (config : StreamConfig) (rows : List CnipaGazetteRuntimeRow)
    (first : CnipaGazetteBrowserSourcePageEvidence) (index : Nat)
    (page : SourcePageInput × CnipaGazetteBrowserSourcePageEvidence) : Prop where
  requested : page.1.requestedPageIndex = index
  built : buildCnipaGazetteBrowserSourcePageEvidence env config.session page.1 = .ok page.2
  pageOf : PageOf env config.session index page.2.page
  rows_eq : page.2.page.rows =
    slice rows (rowBound config.session (index - 1)) (rowBound config.session index)
  fresh : 2 ≤ index → env.hashes.ofIds ((slice rows (rowBound config.session (index - 1 - 1))
    (rowBound config.session (index - 1))).map (·.sourceRowId)) ≠ page.2.page.pageSignatureSha256
  isFirst : index = 1 → page.2 = first

/-- What a page must fit for the stream to take it. -/
def PageFits (config : StreamConfig) (first : CnipaGazetteBrowserSourcePageEvidence) (index : Nat)
    (page : CnipaGazetteBrowserSourcePageEvidence) : Prop :=
  isSafeInteger (index + 1) = true ∧
    ∀ checkpoint < checkpointCount config.session.sourceTotal config.effectiveLogicalPagesPerCheckpoint,
      checkpointSourceBound config (checkpoint + 1) = index →
        ShortInstant first.page.observedAt ∧ ShortInstant page.page.observedAt

/-- A page that was taken. -/
structure ClosedOf (env : Env) (config : StreamConfig) (rows : List CnipaGazetteRuntimeRow)
    (index : Nat) (closed : ClosedPage) : Prop where
  state : StateAfter env config.session rows index closed.accepted.state
  logical : Numbered (LogicalPageOf config.session rows)
    (logicalDone config.session (index - 1) + 1) closed.accepted.logicalPages
  count : closed.accepted.logicalPages.length =
    logicalDone config.session index - logicalDone config.session (index - 1)
  commit : ∀ commit ∈ closed.checkpoint, ∃ checkpoint,
    checkpointSourceBound config (checkpoint + 1) = index ∧
      CommitOf config.session rows config.effectiveLogicalPagesPerCheckpoint checkpoint commit

/-- The ranges of the checkpoints, in order. -/
def committedRanges (closed : List ClosedPage) : List CnipaGazetteBrowserCheckpointRangePlan :=
  (closed.filterMap (·.checkpoint)).map (·.rangePlan)

/-- The records of the packages, in order. -/
def packageRecords (closed : List ClosedPage) : List CnipaGazetteDataEngineAnnouncementRow :=
  (closed.filterMap (·.checkpoint)).flatMap (·.package.records)

theorem packageRecords_some {closed : ClosedPage} {commit : CheckpointCommit}
    (h : closed.checkpoint = some commit) : packageRecords [closed] = commit.package.records := by
  simp [packageRecords, h]

theorem committedRanges_some {closed : ClosedPage} {commit : CheckpointCommit}
    (h : closed.checkpoint = some commit) : committedRanges [closed] = [commit.rangePlan] := by
  simp [committedRanges, h]

theorem committedRanges_cons (closed : ClosedPage) (rest : List ClosedPage) :
    committedRanges (closed :: rest) = committedRanges [closed] ++ committedRanges rest := by
  rw [committedRanges, committedRanges, committedRanges, ← List.map_append, ← List.filterMap_append]
  rfl

theorem packageRecords_cons (closed : ClosedPage) (rest : List ClosedPage) :
    packageRecords (closed :: rest) = packageRecords [closed] ++ packageRecords rest := by
  rw [packageRecords, packageRecords, packageRecords, ← List.flatMap_append, ← List.filterMap_append]
  rfl

theorem safe_of_parseState {hashes : Hashes} {state read : CnipaGazetteBrowserStreamState}
    {session : CnipaGazetteBrowserStreamSession}
    (h : parseCnipaGazetteBrowserStreamState hashes state session = .ok read) :
    read.nextSourcePageIndex = state.nextSourcePageIndex ∧
      isSafeInteger state.nextSourcePageIndex = true := by
  simp only [parseCnipaGazetteBrowserStreamState, bind_eq_ok, pure_eq_ok] at h
  obtain ⟨_, -, _, -, _, -, _, -, _, -, _, -, _, -, _, -, next, hnext, _, -, _, -, _, -, _, -, _, -,
    rfl⟩ := h
  have hsafe := (integer_spec hnext).1
  simp only [integer, numberOf, bind_eq_ok, orThrow_eq_ok, require_eq_ok, pure_eq_ok] at hnext
  obtain ⟨number, hnumber, _, -, rfl⟩ := hnext
  rw [← Option.some.inj hnumber] at hsafe ⊢
  exact ⟨rfl, hsafe⟩

section Steps

variable {env : Env} {config : StreamConfig} {rows : List CnipaGazetteRuntimeRow}
  {first : CnipaGazetteBrowserSourcePageEvidence} {pages : Nat} {memory : StreamMemory}
  {page : SourcePageInput × CnipaGazetteBrowserSourcePageEvidence}

/-- The next page is in the range that is open. -/
theorem MemoryAfter.index_lt (hstream : StreamOf env config)
    (hmemory : MemoryAfter env config rows first pages memory) (hlt : pages < config.session.sourcePages) :
    memory.checkpointIndex <
      checkpointCount config.session.sourceTotal config.effectiveLogicalPagesPerCheckpoint :=
  (hstream.session.sourceBound_lt_iff hstream.aligned).mp (Nat.lt_of_le_of_lt hmemory.start hlt)

theorem MemoryAfter.range_open (hstream : StreamOf env config)
    (hmemory : MemoryAfter env config rows first pages memory) (hlt : pages < config.session.sourcePages) :
    config.ranges[memory.checkpointIndex]? = some (rangeAt config.session.sourceTotal
      config.session.sourcePageSize config.effectiveLogicalPagesPerCheckpoint memory.checkpointIndex) := by
  rw [hstream.ranges, List.getElem?_map, List.getElem?_range (hmemory.index_lt hstream hlt),
    Option.map_some]

theorem receivePage_eq (hstream : StreamOf env config)
    (hmemory : MemoryAfter env config rows first pages memory) (hlt : pages < config.session.sourcePages)
    (hpage : PageAt env config rows first (pages + 1) page) :
    receivePage env config memory page.1 = .ok
      { range := rangeAt config.session.sourceTotal config.session.sourcePageSize
          config.effectiveLogicalPagesPerCheckpoint memory.checkpointIndex
        evidence := page.2 } := by
  have hrange := hmemory.range_open hstream hlt
  simp only [receivePage, bind_eq_ok, require_eq_ok, orThrow_eq_ok, pure_eq_ok, hpage.requested,
    hmemory.state.next]
  exact ⟨(), ⟨isSafeInteger_mono hlt hstream.session.pagesSafe, trivial⟩, _, hrange, (),
    ⟨Nat.succ_le_succ hmemory.start, hmemory.within hlt⟩, page.2, hpage.built, rfl⟩

/-- The page is accepted, if and only if the number of the page after it is a safe integer. -/
theorem acceptPage_spec (hstream : StreamOf env config) (hrows : RowsOf config.session rows (pages + 1))
    (hids : (rows.map (·.sourceRowId)).Nodup)
    (hmemory : MemoryAfter env config rows first pages memory) (hlt : pages < config.session.sourcePages)
    (hpage : PageAt env config rows first (pages + 1) page) (received : ReceivedPage)
    (hreceived : received.evidence = page.2) :
    (isSafeInteger (pages + 1 + 1) = true →
      ∃ accepted, acceptPage env config memory received = .ok accepted) ∧
    ∀ accepted, acceptPage env config memory received = .ok accepted →
      isSafeInteger (pages + 1 + 1) = true ∧ accepted.received = received ∧
      StateAfter env config.session rows (pages + 1) accepted.state ∧
      accepted.logicalPages.length =
        logicalDone config.session (pages + 1) - logicalDone config.session pages ∧
      Numbered (LogicalPageOf config.session rows) (logicalDone config.session pages + 1)
        accepted.logicalPages := by
  have hfresh : memory.state.previousSourcePageSignatureSha256 ≠
      some page.2.page.pageSignatureSha256 := by
    intro hsame
    rw [hmemory.state.signature] at hsame
    split at hsame
    · cases hsame
    · rename_i hpos
      refine hpage.fresh (by omega) ?_
      rw [Nat.add_sub_cancel, ← hmemory.state.previous]
      exact Option.some.inj hsame
  obtain ⟨state, logical, haccept, hstate, hcount, hlogical⟩ := accept_spec hstream.session hrows hids hlt
    hmemory.state hpage.pageOf hpage.rows_eq hfresh
  have hartifacts := logicalEvidences_eq hstream.session hlogical
  constructor
  · intro hsafe
    have hparse := parse_stateAfter hstream.session hrows hlt hsafe hstate
    simp only [acceptPage, hreceived, haccept, hartifacts, buildCnipaGazetteBrowserStreamStateArtifact,
      hparse, ok_bind, bind_eq_ok, require_eq_ok, pure_eq_ok]
    exact ⟨_, _, ⟨(), hpage.pageOf.parses, rfl⟩, rfl⟩
  · intro accepted h
    simp only [acceptPage, hreceived, haccept, hartifacts, buildCnipaGazetteBrowserStreamStateArtifact,
      ok_bind, bind_eq_ok, require_eq_ok, pure_eq_ok] at h
    obtain ⟨_, ⟨read, hread, -⟩, rfl⟩ := h
    have hsafe := (safe_of_parseState hread).2
    rw [hstate.next] at hsafe
    exact ⟨hsafe, rfl, hstate, hcount, hlogical⟩

/-- A page ends no other checkpoint than the open one. -/
theorem MemoryAfter.ends_iff (hmemory : MemoryAfter env config rows first pages memory)
    (hlt : pages < config.session.sourcePages) {checkpoint : Nat}
    (hends : checkpointSourceBound config (checkpoint + 1) = pages + 1) :
    checkpointSourceBound config (memory.checkpointIndex + 1) = pages + 1 := by
  have hmono := sourceBound_mono config.session.sourceTotal config.session.sourcePageSize
    config.effectiveLogicalPagesPerCheckpoint
  have hwithin := hmemory.within hlt
  have hstart := hmemory.start
  rcases Nat.lt_or_ge checkpoint memory.checkpointIndex with hbefore | hafter
  · have hle : checkpointSourceBound config (checkpoint + 1) ≤
        checkpointSourceBound config memory.checkpointIndex := hmono hbefore
    omega
  · have hle : checkpointSourceBound config (memory.checkpointIndex + 1) ≤
        checkpointSourceBound config (checkpoint + 1) := hmono (Nat.succ_le_succ hafter)
    omega

/-- The logical pages of the open checkpoint, with those of the next page. -/
theorem MemoryAfter.nextLogicalPages (hstream : StreamOf env config)
    (hmemory : MemoryAfter env config rows first pages memory)
    {logical : List CnipaGazetteBrowserLogicalPage}
    (hcount : logical.length = logicalDone config.session (pages + 1) - logicalDone config.session pages)
    (hlogical : Numbered (LogicalPageOf config.session rows) (logicalDone config.session pages + 1)
      logical) :
    Numbered (LogicalPageOf config.session rows)
        (logicalBound config.session.sourceTotal config.effectiveLogicalPagesPerCheckpoint
          memory.checkpointIndex + 1) (memory.logicalPages ++ logical) ∧
      (memory.logicalPages ++ logical).length = logicalDone config.session (pages + 1) -
        logicalBound config.session.sourceTotal config.effectiveLogicalPagesPerCheckpoint
          memory.checkpointIndex := by
  have hdone : logicalBound config.session.sourceTotal config.effectiveLogicalPagesPerCheckpoint
      memory.checkpointIndex ≤ logicalDone config.session pages := by
    rw [← hstream.session.logicalDone_sourceBound hstream.aligned]
    exact hstream.session.logicalDone_mono hmemory.start
  have hnext := hstream.session.logicalDone_mono (Nat.le_succ pages)
  have hlength := hmemory.count
  constructor
  · rw [numbered_append]
    refine ⟨hmemory.logical, ?_⟩
    have hfirst : logicalBound config.session.sourceTotal config.effectiveLogicalPagesPerCheckpoint
        memory.checkpointIndex + 1 + memory.logicalPages.length =
        logicalDone config.session pages + 1 := by omega
    rw [hfirst]
    exact hlogical
  · rw [List.length_append, hcount]
    simp only [Nat.succ_eq_add_one] at hnext
    omega

/-- Source page 1 is kept until the first checkpoint has an identity. -/
theorem MemoryAfter.firstEvidence (hmemory : MemoryAfter env config rows first pages memory)
    (hpage : PageAt env config rows first (pages + 1) page) (hindex : memory.checkpointIndex = 0) :
    memory.firstSourcePageEvidence.or
      (if page.2.page.sourcePageIndex = 1 then some page.2 else none) = some first := by
  rcases hmemory.identity with ⟨-, -, hfirst⟩ | ⟨hpos, -⟩
  · rw [hfirst, hpage.pageOf.index_eq]
    by_cases hzero : pages = 0
    · subst hzero
      rw [if_pos rfl, if_pos rfl, hpage.isFirst rfl]
      rfl
    · rw [if_neg hzero]
      rfl
  · omega

/-- A checkpoint that ends with a page leaves no tail. -/
theorem StateAfter.tail_of_ends (hstream : StreamOf env config) {index checkpoint : Nat}
    {state : CnipaGazetteBrowserStreamState} (hstate : StateAfter env config.session rows index state)
    (hends : checkpointSourceBound config checkpoint = index) : state.tailRows = [] := by
  subst hends
  rw [hstate.tail, checkpointSourceBound, hstream.session.logicalDone_sourceBound hstream.aligned,
    hstream.session.rowBound_sourceBound hstream.aligned, slice_self]

/-- What is left to do with an accepted page. -/
structure AcceptedOf (env : Env) (config : StreamConfig) (rows : List CnipaGazetteRuntimeRow)
    (memory : StreamMemory) (pages : Nat) (evidence : CnipaGazetteBrowserSourcePageEvidence)
    (accepted : AcceptedPage) : Prop where
  range : accepted.received.range = rangeAt config.session.sourceTotal config.session.sourcePageSize
    config.effectiveLogicalPagesPerCheckpoint memory.checkpointIndex
  evidence_eq : accepted.received.evidence = evidence
  state : StateAfter env config.session rows (pages + 1) accepted.state
  count : accepted.logicalPages.length =
    logicalDone config.session (pages + 1) - logicalDone config.session pages
  logical : Numbered (LogicalPageOf config.session rows) (logicalDone config.session pages + 1)
    accepted.logicalPages

section Closing

variable {accepted : AcceptedPage}

/-- The range and the tail of the checkpoint that ends with a page. -/
theorem rangeOf_ended (hstream : StreamOf env config) (hrows : RowsOf config.session rows (pages + 1))
    (hmemory : MemoryAfter env config rows first pages memory) (hlt : pages < config.session.sourcePages)
    (haccepted : AcceptedOf env config rows memory pages page.2 accepted)
    (hends : checkpointSourceBound config (memory.checkpointIndex + 1) = pages + 1) :
    RangeOf config.session rows accepted.received.range.logicalRange
        (memory.logicalPages ++ accepted.logicalPages) ∧
      accepted.state.tailRows = [] := by
  have hdone : logicalDone config.session (pages + 1) = logicalBound config.session.sourceTotal
      config.effectiveLogicalPagesPerCheckpoint (memory.checkpointIndex + 1) := by
    rw [← hstream.session.logicalDone_sourceBound hstream.aligned]
    congr 1
    exact hends.symm
  have hbound : rowBound config.session (pages + 1) = logicalRowBound config.session (logicalBound
      config.session.sourceTotal config.effectiveLogicalPagesPerCheckpoint
      (memory.checkpointIndex + 1)) := by
    rw [← hstream.session.rowBound_sourceBound hstream.aligned]
    congr 1
    exact hends.symm
  obtain ⟨hnumbered, hlength⟩ := hmemory.nextLogicalPages hstream haccepted.count haccepted.logical
  constructor
  · rw [haccepted.range]
    refine rangeOf_pages hstream.session hstream.aligned (hmemory.index_lt hstream hlt) ?_ hnumbered ?_
    · rw [← hbound]
      exact hrows.length
    · rw [hlength, hdone]
  · exact haccepted.state.tail_of_ends hstream hends

/-- The stream after the page that ends a checkpoint. -/
theorem memoryAfter_checkpoint (hstream : StreamOf env config)
    (hmemory : MemoryAfter env config rows first pages memory) (hlt : pages < config.session.sourcePages)
    (hends : checkpointSourceBound config (memory.checkpointIndex + 1) = pages + 1)
    {identity : CnipaGazetteDatasetIdentityEnvelope} {closed : ClosedPage} {commit : CheckpointCommit}
    (hstate : StateAfter env config.session rows (pages + 1) closed.accepted.state)
    (hcheckpoint : closed.checkpoint = some commit) (hidentity : closed.datasetIdentity = some identity)
    (hidentityOf : IdentityOf config.session identity) (hshort : ShortInstant first.page.observedAt) :
    MemoryAfter env config rows first (pages + 1) (commitPage memory closed) := by
  have hlast := hmemory.index_lt hstream hlt
  have hmemoryEq : commitPage memory closed = ⟨closed.accepted.state, memory.checkpointIndex + 1, [],
      none, some identity⟩ := by
    simp only [commitPage, hcheckpoint, hidentity, Option.isSome_some, if_true]
  have hopen : pages + 1 < config.session.sourcePages ↔ memory.checkpointIndex + 1 <
      checkpointCount config.session.sourceTotal config.effectiveLogicalPagesPerCheckpoint := by
    rw [← hends]
    exact hstream.session.sourceBound_lt_iff hstream.aligned
  rw [hmemoryEq]
  exact
    { state := hstate
      start := Nat.le_of_eq hends
      within := by
        intro hnext
        show pages + 1 < _
        rw [← hends]
        exact ((hstream.session.paging hstream.aligned).bounds_lt_succ (hopen.mp hnext)).2
      finished := by
        intro hge
        have hge' := mt hopen.mpr (Nat.not_lt.mpr hge)
        show memory.checkpointIndex + 1 = _
        omega
      logical := trivial
      count := by
        have hdone := hstream.session.logicalDone_sourceBound hstream.aligned
          (memory.checkpointIndex + 1)
        rw [← hdone, ← hends]
        exact (Nat.sub_self _).symm
      identity := Or.inr ⟨Nat.succ_pos _, hshort, identity, rfl, hidentityOf⟩ }

/-- The stream after a page within a checkpoint. -/
theorem memoryAfter_page (hstream : StreamOf env config)
    (hmemory : MemoryAfter env config rows first pages memory) (hlt : pages < config.session.sourcePages)
    (hpage : PageAt env config rows first (pages + 1) page)
    (haccepted : AcceptedOf env config rows memory pages page.2 accepted)
    (hends : checkpointSourceBound config (memory.checkpointIndex + 1) ≠ pages + 1) :
    MemoryAfter env config rows first (pages + 1)
      { state := accepted.state, checkpointIndex := memory.checkpointIndex
        logicalPages := memory.logicalPages ++ accepted.logicalPages
        firstSourcePageEvidence := memory.firstSourcePageEvidence.or
          (if page.2.page.sourcePageIndex = 1 then some page.2 else none)
        datasetIdentity := memory.datasetIdentity } := by
  obtain ⟨hnumbered, hlength⟩ := hmemory.nextLogicalPages hstream haccepted.count haccepted.logical
  have hwithin : pages + 1 < checkpointSourceBound config (memory.checkpointIndex + 1) :=
    Nat.lt_of_le_of_ne (hmemory.within hlt) hends.symm
  have hall : checkpointSourceBound config (memory.checkpointIndex + 1) ≤ config.session.sourcePages := by
    rw [hstream.session.pages]
    exact Nat.min_le_left _ _
  exact
    { state := haccepted.state
      start := Nat.le_succ_of_le hmemory.start
      within := fun _ => hwithin
      finished := fun hge => absurd (Nat.lt_of_lt_of_le hwithin hall) (Nat.not_lt.mpr hge)
      logical := hnumbered
      count := hlength
      identity := by
        rcases hmemory.identity with ⟨hindex, hnone, -⟩ | hsome
        · refine Or.inl ⟨hindex, hnone, ?_⟩
          rw [if_neg (Nat.succ_ne_zero pages)]
          exact hmemory.firstEvidence hpage hindex
        · exact Or.inr hsome }

/-- The page is closed, if and only if the checkpoint it ends, if any, has short instants. -/
theorem closePage_spec (hstream : StreamOf env config) (hrows : RowsOf config.session rows (pages + 1))
    (hids : (rows.map (·.sourceRowId)).Nodup) (hfirst : FirstPageOf env config.session first)
    (hmemory : MemoryAfter env config rows first pages memory) (hlt : pages < config.session.sourcePages)
    (hpage : PageAt env config rows first (pages + 1) page)
    (haccepted : AcceptedOf env config rows memory pages page.2 accepted) :
    ((checkpointSourceBound config (memory.checkpointIndex + 1) = pages + 1 →
        ShortInstant first.page.observedAt ∧ ShortInstant page.2.page.observedAt) →
      ∃ closed, closePage env config memory accepted = .ok closed) ∧
    ∀ closed, closePage env config memory accepted = .ok closed →
      (checkpointSourceBound config (memory.checkpointIndex + 1) = pages + 1 →
        ShortInstant first.page.observedAt ∧ ShortInstant page.2.page.observedAt) ∧
      MemoryAfter env config rows first (pages + 1) (commitPage memory closed) ∧
      ClosedOf env config rows (pages + 1) closed ∧
      memory.checkpointIndex ≤ (commitPage memory closed).checkpointIndex ∧
      committedRanges [closed] =
        slice config.ranges memory.checkpointIndex (commitPage memory closed).checkpointIndex ∧
      packageRecords [closed] = (slice rows (checkpointRowBound config memory.checkpointIndex)
        (checkpointRowBound config (commitPage memory closed).checkpointIndex)).map announcementRow := by
  have hcond : accepted.received.evidence.page.sourcePageIndex =
      accepted.received.range.sourceRange.endPage ↔
        checkpointSourceBound config (memory.checkpointIndex + 1) = pages + 1 := by
    rw [haccepted.evidence_eq, hpage.pageOf.index_eq, haccepted.range]
    exact eq_comm
  have hclosedOf : ∀ closed, closed.accepted = accepted → (∀ commit ∈ closed.checkpoint,
      checkpointSourceBound config (memory.checkpointIndex + 1) = pages + 1 ∧ CommitOf config.session
        rows config.effectiveLogicalPagesPerCheckpoint memory.checkpointIndex commit) →
      ClosedOf env config rows (pages + 1) closed := by
    rintro closed rfl hcommit
    exact ⟨haccepted.state, haccepted.logical, haccepted.count,
      fun commit hmem => ⟨memory.checkpointIndex, hcommit commit hmem⟩⟩
  by_cases hends : checkpointSourceBound config (memory.checkpointIndex + 1) = pages + 1
  · obtain ⟨hrange, htail⟩ := rangeOf_ended hstream hrows hmemory hlt haccepted hends
    have hpageOf : PageOf env config.session (pages + 1) accepted.received.evidence.page := by
      rw [haccepted.evidence_eq]
      exact hpage.pageOf
    -- with short instants the checkpoint is built
    have hcommit : ShortInstant first.page.observedAt → ShortInstant page.2.page.observedAt →
        ∃ identity commit, buildCheckpointCommit env config accepted
            (memory.logicalPages ++ accepted.logicalPages)
            (memory.firstSourcePageEvidence.or
              (if accepted.received.evidence.page.sourcePageIndex = 1 then
                some accepted.received.evidence else none)) memory.datasetIdentity =
            .ok (identity, commit) ∧
          IdentityOf config.session identity ∧ CommitOf config.session rows
            config.effectiveLogicalPagesPerCheckpoint memory.checkpointIndex commit := by
      intro hfirstShort hpageShort
      refine buildCheckpointCommit_eq hstream.session hrows.row hids hstream.aligned haccepted.range hrange
        htail hpageOf (by rwa [haccepted.evidence_eq]) ?_
      rcases hmemory.identity with ⟨hindex, hnone, -⟩ | ⟨-, -, hsome⟩
      · refine Or.inr ⟨hnone, hindex, first, ?_, hfirst, hfirstShort⟩
        rw [haccepted.evidence_eq]
        exact hmemory.firstEvidence hpage hindex
      · exact Or.inl hsome
    simp only [closePage, if_pos (hcond.mpr hends), bind_eq_ok, pure_eq_ok]
    constructor
    · intro hshort
      obtain ⟨hfirstShort, hpageShort⟩ := hshort hends
      obtain ⟨identity, commit, hbuilt, -⟩ := hcommit hfirstShort hpageShort
      exact ⟨_, (identity, commit), hbuilt, rfl⟩
    · rintro _ ⟨⟨identity, commit⟩, hbuilt, rfl⟩
      obtain ⟨hpageShort, hgiven⟩ := short_of_commit hpageOf hbuilt
      rw [haccepted.evidence_eq] at hpageShort hgiven
      have hfirstShort : ShortInstant first.page.observedAt := by
        rcases hmemory.identity with ⟨hindex, hnone, -⟩ | ⟨-, hshort, -⟩
        · exact hgiven hnone first (hmemory.firstEvidence hpage hindex) hfirst
        · exact hshort
      obtain ⟨identity', commit', hbuilt', hidentity, hcommitOf⟩ := hcommit hfirstShort hpageShort
      obtain ⟨rfl, rfl⟩ := Prod.mk.inj (Except.ok.inj (hbuilt'.symm.trans hbuilt))
      refine ⟨fun _ => ⟨hfirstShort, hpageShort⟩, memoryAfter_checkpoint hstream hmemory hlt hends
        haccepted.state rfl rfl hidentity hfirstShort, hclosedOf _ rfl ?_, Nat.le_succ _, ?_, ?_⟩
      · intro other hmem
        rw [← Option.some.inj hmem]
        exact ⟨hends, hcommitOf⟩
      · rw [committedRanges_some rfl, hcommitOf.plan]
        exact (slice_succ (hmemory.range_open hstream hlt)).symm
      · rw [packageRecords_some rfl]
        exact hcommitOf.records
  · simp only [closePage, if_neg (mt hcond.mp hends), pure_eq_ok]
    refine ⟨fun _ => ⟨_, rfl⟩, ?_⟩
    rintro _ rfl
    refine ⟨fun h => absurd h hends, ?_, hclosedOf _ rfl (by simp), Nat.le_refl _, ?_, ?_⟩
    · simp only [commitPage, haccepted.evidence_eq]
      exact memoryAfter_page hstream hmemory hlt hpage haccepted hends
    · simp [committedRanges, commitPage, slice_self]
    · simp [packageRecords, commitPage, slice_self]

/-- A page that ends the first checkpoint is refused, if source page 1 has a long instant. -/
theorem closePage_long (hstream : StreamOf env config) (hrows : RowsOf config.session rows (pages + 1))
    (hids : (rows.map (·.sourceRowId)).Nodup) (hfirst : FirstPageOf env config.session first)
    (hmemory : MemoryAfter env config rows first pages memory) (hlt : pages < config.session.sourcePages)
    (hpage : PageAt env config rows first (pages + 1) page)
    (haccepted : AcceptedOf env config rows memory pages page.2 accepted)
    (hindex : memory.checkpointIndex = 0) (hends : checkpointSourceBound config 1 = pages + 1)
    (hlong : ¬ ShortInstant first.page.observedAt) :
    closePage env config memory accepted = .error longInstantError := by
  have hopen : checkpointSourceBound config (memory.checkpointIndex + 1) = pages + 1 := by
    rw [hindex]
    exact hends
  obtain ⟨hrange, htail⟩ := rangeOf_ended hstream hrows hmemory hlt haccepted hopen
  have hplan := haccepted.range
  have hlast : accepted.received.evidence.page.sourcePageIndex =
      accepted.received.range.sourceRange.endPage := by
    rw [haccepted.evidence_eq, hpage.pageOf.index_eq, hplan]
    exact hopen.symm
  obtain ⟨-, hnone, -⟩ | ⟨hpos, -⟩ := hmemory.identity
  · have hgiven := hmemory.firstEvidence hpage hindex
    rw [hindex] at hplan
    rw [closePage, if_pos hlast, haccepted.evidence_eq, hgiven, hnone]
    exact bind_eq_error.mpr (Or.inl (buildCheckpointCommit_long hstream.session hrows.row hids
      hstream.aligned hplan hrange htail hfirst hlong))
  · omega

end Closing

/-- What the stream keeps after the next page, and what it has written. -/
structure StepOf (env : Env) (config : StreamConfig) (rows : List CnipaGazetteRuntimeRow)
    (first : CnipaGazetteBrowserSourcePageEvidence) (pages : Nat) (memory : StreamMemory)
    (out : ClosedPage × StreamMemory) : Prop where
  memoryOf : MemoryAfter env config rows first (pages + 1) out.2
  closedOf : ClosedOf env config rows (pages + 1) out.1
  index_le : memory.checkpointIndex ≤ out.2.checkpointIndex
  ranges : committedRanges [out.1] =
    slice config.ranges memory.checkpointIndex out.2.checkpointIndex
  records : packageRecords [out.1] = (slice rows (checkpointRowBound config memory.checkpointIndex)
    (checkpointRowBound config out.2.checkpointIndex)).map announcementRow

/-- The received page is accepted with the range that is open, if the number after it is safe. -/
theorem acceptPage_acceptedOf (hstream : StreamOf env config)
    (hrows : RowsOf config.session rows (pages + 1)) (hids : (rows.map (·.sourceRowId)).Nodup)
    (hmemory : MemoryAfter env config rows first pages memory) (hlt : pages < config.session.sourcePages)
    (hpage : PageAt env config rows first (pages + 1) page) {received : ReceivedPage}
    (hreceive : receivePage env config memory page.1 = .ok received) :
    (isSafeInteger (pages + 1 + 1) = true →
      ∃ accepted, acceptPage env config memory received = .ok accepted) ∧
    ∀ accepted, acceptPage env config memory received = .ok accepted →
      isSafeInteger (pages + 1 + 1) = true ∧ AcceptedOf env config rows memory pages page.2 accepted := by
  have heq := Except.ok.inj ((receivePage_eq hstream hmemory hlt hpage).symm.trans hreceive)
  obtain ⟨haccept, hspec⟩ := acceptPage_spec hstream hrows hids hmemory hlt hpage received (by rw [← heq])
  refine ⟨haccept, ?_⟩
  intro accepted haccepted
  obtain ⟨hsafe, hreceived, hstate, hcount, hlogical⟩ := hspec accepted haccepted
  exact ⟨hsafe, by rw [hreceived, ← heq], by rw [hreceived, ← heq], hstate, hcount, hlogical⟩

/-- The stream takes the next page, if and only if the page fits. -/
theorem acceptSourcePage_spec (hstream : StreamOf env config)
    (hrows : RowsOf config.session rows (pages + 1)) (hids : (rows.map (·.sourceRowId)).Nodup)
    (hfirst : FirstPageOf env config.session first)
    (hmemory : MemoryAfter env config rows first pages memory) (hlt : pages < config.session.sourcePages)
    (hpage : PageAt env config rows first (pages + 1) page) :
    (PageFits config first (pages + 1) page.2 →
      ∃ out, acceptSourcePage env config memory page.1 = .ok out) ∧
    ∀ out, acceptSourcePage env config memory page.1 = .ok out →
      PageFits config first (pages + 1) page.2 ∧ StepOf env config rows first pages memory out := by
  have hreceive := receivePage_eq hstream hmemory hlt hpage
  obtain ⟨haccept, hacceptedOf⟩ := acceptPage_acceptedOf hstream hrows hids hmemory hlt hpage hreceive
  simp only [acceptSourcePage, hreceive, ok_bind, bind_eq_ok, pure_eq_ok]
  constructor
  · rintro ⟨hsafe, hshort⟩
    obtain ⟨accepted, haccepted⟩ := haccept hsafe
    obtain ⟨hclose, -⟩ := closePage_spec hstream hrows hids hfirst hmemory hlt hpage
      (hacceptedOf accepted haccepted).2
    obtain ⟨closed, hclosed⟩ := hclose fun hends => hshort _ (hmemory.index_lt hstream hlt) hends
    exact ⟨_, accepted, haccepted, closed, hclosed, rfl⟩
  · rintro _ ⟨accepted, haccepted, closed, hclosed, rfl⟩
    obtain ⟨hsafe, haccepted⟩ := hacceptedOf accepted haccepted
    obtain ⟨-, hclose⟩ := closePage_spec hstream hrows hids hfirst hmemory hlt hpage haccepted
    obtain ⟨hshort, hnext, hclosedOf, hle, hranges, hrecords⟩ := hclose closed hclosed
    exact ⟨⟨hsafe, fun checkpoint _ hends => hshort (hmemory.ends_iff hlt hends)⟩, hnext, hclosedOf, hle,
      hranges, hrecords⟩

/-- The page that ends the first checkpoint, if source page 1 has a long instant. -/
theorem acceptSourcePage_long (hstream : StreamOf env config)
    (hrows : RowsOf config.session rows (pages + 1)) (hids : (rows.map (·.sourceRowId)).Nodup)
    (hfirst : FirstPageOf env config.session first)
    (hmemory : MemoryAfter env config rows first pages memory) (hlt : pages < config.session.sourcePages)
    (hpage : PageAt env config rows first (pages + 1) page) (hsafe : isSafeInteger (pages + 1 + 1) = true)
    (hindex : memory.checkpointIndex = 0) (hends : checkpointSourceBound config 1 = pages + 1)
    (hlong : ¬ ShortInstant first.page.observedAt) :
    acceptSourcePage env config memory page.1 = .error longInstantError := by
  have hreceive := receivePage_eq hstream hmemory hlt hpage
  obtain ⟨haccept, hacceptedOf⟩ := acceptPage_acceptedOf hstream hrows hids hmemory hlt hpage hreceive
  obtain ⟨accepted, haccepted⟩ := haccept hsafe
  have hclose := closePage_long hstream hrows hids hfirst hmemory hlt hpage
    (hacceptedOf accepted haccepted).2 hindex hends hlong
  rw [acceptSourcePage, hreceive, ok_bind, haccepted, ok_bind, hclose]
  rfl

end Steps

end MarkorbitKnowledge.Gazette
