import MarkorbitKnowledge.Gazette.StreamSteps
import Mathlib.Logic.Equiv.List

/-!
# A run of the checkpoint stream loses no row

The pages of a session, accepted in order: each range of the plan becomes one package, and the packages
hold the rows of the pages.  The packages refuse an instant that the parser of a page takes, so a run
comes to its end only if the pages that give a package its instants have short ones.
-/

namespace MarkorbitKnowledge.Gazette

open Contracts Fallible Tiling

/-! ### Runs -/

section Runs

variable {env : Env} {config : StreamConfig} {rows : List CnipaGazetteRuntimeRow}
  {first : CnipaGazetteBrowserSourcePageEvidence}

theorem checkpointRowBound_mono (config : StreamConfig) : Monotone (checkpointRowBound config) :=
  (logicalRowBound_mono config.session).comp (logicalBound_mono _ _)

/-- What the stream keeps after some pages, and what it has written. -/
structure RunOf (env : Env) (config : StreamConfig) (rows : List CnipaGazetteRuntimeRow)
    (first : CnipaGazetteBrowserSourcePageEvidence) (pages count : Nat) (memory : StreamMemory)
    (out : List ClosedPage × StreamMemory) : Prop where
  memoryOf : MemoryAfter env config rows first (pages + count) out.2
  closedOf : Numbered (ClosedOf env config rows) (pages + 1) out.1
  length : out.1.length = count
  index_le : memory.checkpointIndex ≤ out.2.checkpointIndex
  ranges : committedRanges out.1 =
    slice config.ranges memory.checkpointIndex out.2.checkpointIndex
  records : packageRecords out.1 = (slice rows (checkpointRowBound config memory.checkpointIndex)
    (checkpointRowBound config out.2.checkpointIndex)).map announcementRow

theorem runOf_nil {pages : Nat} {memory : StreamMemory}
    (hmemory : MemoryAfter env config rows first pages memory) :
    RunOf env config rows first pages 0 memory ([], memory) where
  memoryOf := hmemory
  closedOf := trivial
  length := rfl
  index_le := Nat.le_refl _
  ranges := by rw [slice_self]; rfl
  records := by rw [slice_self]; rfl

theorem StepOf.cons {pages count : Nat} {memory next last : StreamMemory} {closed : ClosedPage}
    {rest : List ClosedPage} (hstep : StepOf env config rows first pages memory (closed, next))
    (hrun : RunOf env config rows first (pages + 1) count next (rest, last)) :
    RunOf env config rows first pages (count + 1) memory (closed :: rest, last) where
  memoryOf := by
    have hmemory := hrun.memoryOf
    rwa [Nat.add_assoc, Nat.add_comm 1 count] at hmemory
  closedOf := ⟨hstep.closedOf, hrun.closedOf⟩
  length := by rw [List.length_cons, hrun.length]
  index_le := Nat.le_trans hstep.index_le hrun.index_le
  ranges := by
    rw [committedRanges_cons, hstep.ranges, hrun.ranges, slice_append_slice hstep.index_le hrun.index_le]
  records := by
    rw [packageRecords_cons, hstep.records, hrun.records, ← List.map_append,
      slice_append_slice (checkpointRowBound_mono config hstep.index_le)
        (checkpointRowBound_mono config hrun.index_le)]

/-- The stream takes the pages, if and only if each of them fits. -/
theorem acceptSourcePages_spec (hstream : StreamOf env config) (hids : (rows.map (·.sourceRowId)).Nodup)
    (hrow : ∀ row ∈ rows, RowOf config.session.announcementIssue row)
    (hfirst : FirstPageOf env config.session first)
    {list : List (SourcePageInput × CnipaGazetteBrowserSourcePageEvidence)} :
    ∀ {pages : Nat} {memory : StreamMemory}, MemoryAfter env config rows first pages memory →
    Numbered (PageAt env config rows first) (pages + 1) list →
    pages + list.length ≤ config.session.sourcePages →
    rowBound config.session (pages + list.length) ≤ rows.length →
    (Numbered (fun index page => PageFits config first index page.2) (pages + 1) list →
      ∃ out, acceptSourcePages env config memory (list.map Prod.fst) = .ok out) ∧
    ∀ out, acceptSourcePages env config memory (list.map Prod.fst) = .ok out →
      Numbered (fun index page => PageFits config first index page.2) (pages + 1) list ∧
      RunOf env config rows first pages list.length memory out := by
  induction list with
  | nil =>
    intro pages memory hmemory _ _ _
    refine ⟨fun _ => ⟨_, rfl⟩, ?_⟩
    rintro _ hout
    obtain rfl := Except.ok.inj hout
    exact ⟨trivial, runOf_nil hmemory⟩
  | cons page list ih =>
    intro pages memory hmemory hpages hle hlength
    rw [List.length_cons] at hle hlength
    have hnext : pages + (list.length + 1) = pages + 1 + list.length := by omega
    rw [hnext] at hle hlength
    have hrows : RowsOf config.session rows (pages + 1) :=
      ⟨Nat.le_trans (rowBound_mono config.session (Nat.le_add_right _ _)) hlength, hrow⟩
    obtain ⟨hfwd, hbwd⟩ := acceptSourcePage_spec hstream hrows hids hfirst hmemory (by omega) hpages.1
    simp only [List.map_cons, acceptSourcePages, bind_eq_ok, pure_eq_ok]
    constructor
    · rintro ⟨hfits, hrest⟩
      obtain ⟨⟨closed, next⟩, hstep⟩ := hfwd hfits
      have hmemoryNext := (hbwd _ hstep).2.memoryOf
      obtain ⟨⟨rest, last⟩, hrun⟩ := (ih hmemoryNext hpages.2 hle hlength).1 hrest
      exact ⟨_, (closed, next), hstep, (rest, last), hrun, rfl⟩
    · rintro _ ⟨⟨closed, next⟩, hstep, ⟨rest, last⟩, hrun, rfl⟩
      obtain ⟨hfits, hstepOf⟩ := hbwd _ hstep
      obtain ⟨hrest, hrunOf⟩ := (ih hstepOf.memoryOf hpages.2 hle hlength).2 _ hrun
      exact ⟨⟨hfits, hrest⟩, hstepOf.cons hrunOf⟩

end Runs

/-! ### The pages of a session -/

theorem getElem?_mapM {α β : Type} {f : α → Except String β} {l : List α} {read : List β}
    (h : l.mapM f = .ok read) : ∀ (i : Nat) (b : β), read[i]? = some b → ∃ a, l[i]? = some a ∧ f a = .ok b := by
  induction l generalizing read with
  | nil =>
    simp only [List.mapM_nil, pure_eq_ok] at h
    subst h
    simp
  | cons a l ih =>
    simp only [List.mapM_cons, bind_eq_ok, pure_eq_ok] at h
    obtain ⟨b, hb, rest, hrest, rfl⟩ := h
    intro i c hc
    cases i with
    | zero =>
      rw [List.getElem?_cons_zero] at hc ⊢
      rw [← Option.some.inj hc]
      exact ⟨a, rfl, hb⟩
    | succ i =>
      rw [List.getElem?_cons_succ] at hc ⊢
      exact ih hrest i c hc

/-- A page that the stream can build the evidence of. -/
theorem evidence_spec {env : Env} {session : CnipaGazetteBrowserStreamSession} {input : SourcePageInput}
    {evidence : CnipaGazetteBrowserSourcePageEvidence}
    (h : buildCnipaGazetteBrowserSourcePageEvidence env session input = .ok evidence) :
    PageOf env session input.requestedPageIndex evidence.page ∧
      evidence.page.observedAt = trim input.observedAt ∧
      evidence.rawArtifact.canonicalUri =
        .sourceRaw session.announcementIssue session.sourcePageSize input.requestedPageIndex := by
  simp only [buildCnipaGazetteBrowserSourcePageEvidence, bind_eq_ok, pure_eq_ok] at h
  obtain ⟨_, -, payload, -, page, hpage, rfl⟩ := h
  obtain ⟨hpageOf, hobserved⟩ := parseSourcePage_spec hpage
  refine ⟨hpageOf, hobserved, ?_⟩
  show CanonicalUri.sourceRaw _ _ page.sourcePageIndex = _
  rw [hpageOf.index_eq]

/-- Consecutive source pages of a session: each is parsed, no row id comes twice, and the signatures of
    pages with different rows differ. -/
structure PagesOf (env : Env) (session : CnipaGazetteBrowserStreamSession) (inputs : List SourcePageInput)
    (evidences : List CnipaGazetteBrowserSourcePageEvidence) : Prop where
  built : inputs.mapM (buildCnipaGazetteBrowserSourcePageEvidence env session) = .ok evidences
  order : inputs.map (·.requestedPageIndex) = between 1 inputs.length
  ids : ((evidences.flatMap (·.page.rows)).map (·.sourceRowId)).Nodup
  collision : ∀ a ∈ evidences, ∀ b ∈ evidences,
    env.hashes.ofIds (a.page.rows.map (·.sourceRowId)) =
        env.hashes.ofIds (b.page.rows.map (·.sourceRowId)) →
      a.page.rows.map (·.sourceRowId) = b.page.rows.map (·.sourceRowId)

section Pages

variable {env : Env} {session : CnipaGazetteBrowserStreamSession} {inputs : List SourcePageInput}
  {evidences : List CnipaGazetteBrowserSourcePageEvidence}

theorem PagesOf.length (h : PagesOf env session inputs evidences) : evidences.length = inputs.length :=
  length_mapM h.built

theorem PagesOf.getElem (h : PagesOf env session inputs evidences) {i : Nat}
    {evidence : CnipaGazetteBrowserSourcePageEvidence} (hi : evidences[i]? = some evidence) :
    ∃ input, inputs[i]? = some input ∧ input.requestedPageIndex = i + 1 ∧
      buildCnipaGazetteBrowserSourcePageEvidence env session input = .ok evidence := by
  obtain ⟨input, hinput, hbuilt⟩ := getElem?_mapM h.built i evidence hi
  refine ⟨input, hinput, ?_, hbuilt⟩
  have horder : (inputs.map (·.requestedPageIndex))[i]? = some input.requestedPageIndex := by
    rw [List.getElem?_map, hinput, Option.map_some]
  have hlt : i < inputs.length := (List.getElem?_eq_some_iff.mp hinput).1
  rw [h.order, between, List.getElem?_range' (by omega)] at horder
  have hsame := Option.some.inj horder
  omega

theorem PagesOf.pageOf (h : PagesOf env session inputs evidences) {i : Nat}
    {evidence : CnipaGazetteBrowserSourcePageEvidence} (hi : evidences[i]? = some evidence) :
    PageOf env session (i + 1) evidence.page := by
  obtain ⟨input, -, hrequested, hbuilt⟩ := h.getElem hi
  have hpage := (evidence_spec hbuilt).1
  rwa [hrequested] at hpage

/-- Each page holds its slice of all rows. -/
theorem PagesOf.slices (h : PagesOf env session inputs evidences)
    (hsession : SessionOf env.platform session) :
    Numbered (fun index evidence => evidence.page.rows = slice (evidences.flatMap (·.page.rows))
        (rowBound session (index - 1)) (rowBound session index)) 1 evidences ∧
      (evidences.flatMap (·.page.rows)).length = rowBound session inputs.length := by
  have hlengths : Numbered (fun index (evidence : CnipaGazetteBrowserSourcePageEvidence) =>
      evidence.page.rows.length = rowBound session (index + 1 - 1) - rowBound session (index - 1)) 1
      evidences := by
    rw [numbered_iff]
    intro i evidence hi
    have hpage := h.pageOf hi
    have hlt : i < session.sourcePages := hpage.index_le.2
    rw [hpage.length, hsession.expectedRows_eq hlt, Nat.add_comm 1 i]
    rfl
  have hfront : ([] : List CnipaGazetteRuntimeRow).length = rowBound session (1 - 1) := by
    simp [rowBound]
  obtain ⟨hslices, hlength⟩ := Numbered.slices (fun index => rowBound session (index - 1)) hfront
    (fun n => rowBound_mono session (by omega)) hlengths
  rw [List.nil_append] at hslices hlength
  refine ⟨hslices, ?_⟩
  rw [hlength, h.length]
  congr 1
  omega

theorem PagesOf.rowOf (h : PagesOf env session inputs evidences) :
    ∀ row ∈ evidences.flatMap (·.page.rows), RowOf session.announcementIssue row := by
  intro row hrow
  obtain ⟨evidence, hmem, hrow⟩ := List.mem_flatMap.mp hrow
  obtain ⟨i, hi⟩ := List.getElem?_of_mem hmem
  exact (h.pageOf hi).rows row hrow

/-- The signature of a page is not that of the page before. -/
theorem PagesOf.fresh (h : PagesOf env session inputs evidences)
    (hsession : SessionOf env.platform session) {i : Nat}
    {evidence : CnipaGazetteBrowserSourcePageEvidence} (hi : evidences[i + 1]? = some evidence) :
    env.hashes.ofIds ((slice (evidences.flatMap (·.page.rows)) (rowBound session i)
      (rowBound session (i + 1))).map (·.sourceRowId)) ≠ evidence.page.pageSignatureSha256 := by
  have hlt : i + 1 < evidences.length := (List.getElem?_eq_some_iff.mp hi).1
  have hbefore : evidences[i]? = some evidences[i] := List.getElem?_eq_getElem (by omega)
  obtain ⟨hslices, hlength⟩ := h.slices hsession
  rw [numbered_iff] at hslices
  have hrowsBefore := hslices i _ hbefore
  have hrows := hslices (i + 1) _ hi
  rw [Nat.add_comm 1 i, Nat.add_sub_cancel] at hrowsBefore
  rw [Nat.add_comm 1, Nat.add_sub_cancel] at hrows
  intro hsame
  rw [← hrowsBefore, (h.pageOf hi).signature] at hsame
  have hids := h.collision _ (List.getElem_mem _) _ (List.mem_of_getElem? hi) hsame
  -- the page before has a row, and its id is not one of this page
  have hpages : i < session.sourcePages := (h.pageOf hbefore).index_le.2
  have hpos : rowBound session i < rowBound session (i + 1) := by
    have htotal := hsession.lt_pages_iff.mp hpages
    have hsize := hsession.sizeBounds.1
    simp only [rowBound, Nat.succ_mul]
    omega
  have hne : evidences[i].page.rows ≠ [] := by
    intro hnil
    have hcount := (h.pageOf hbefore).length
    rw [hnil, hsession.expectedRows_eq hpages, List.length_nil] at hcount
    omega
  obtain ⟨row, hrow⟩ := List.exists_mem_of_ne_nil _ hne
  have hmem : row.sourceRowId ∈ evidence.page.rows.map (·.sourceRowId) := by
    rw [← hids]
    exact List.mem_map_of_mem hrow
  obtain ⟨other, hother, hsameId⟩ := List.mem_map.mp hmem
  rw [hrows] at hother
  refine ids_disjoint (Nat.le_of_lt hpos) (rowBound_mono session (Nat.le_succ _)) h.ids other hother ?_
  rw [hsameId, ← hrowsBefore]
  exact List.mem_map_of_mem hrow

end Pages

/-- The pages of a session are pages the stream can be given. -/
theorem PagesOf.pageAt {env : Env} {config : StreamConfig} {inputs : List SourcePageInput}
    {evidences : List CnipaGazetteBrowserSourcePageEvidence}
    {first : CnipaGazetteBrowserSourcePageEvidence} (h : PagesOf env config.session inputs evidences)
    (hsession : SessionOf env.platform config.session) (hfirst : evidences[0]? = some first) :
    Numbered (PageAt env config (evidences.flatMap (·.page.rows)) first) 1 (inputs.zip evidences) := by
  rw [numbered_iff]
  rintro i ⟨input, evidence⟩ hi
  obtain ⟨hinput, hevidence⟩ := List.getElem?_zip_eq_some.mp hi
  obtain ⟨other, hother, hrequested, hbuilt⟩ := h.getElem hevidence
  obtain rfl : input = other := Option.some.inj (hinput.symm.trans hother)
  have hslice := (numbered_iff.mp (h.slices hsession).1) i _ hevidence
  rw [Nat.add_comm 1 i] at hslice ⊢
  exact
    { requested := hrequested
      built := hbuilt
      pageOf := h.pageOf hevidence
      rows_eq := hslice
      fresh := by
        intro hle
        obtain ⟨j, rfl⟩ := Nat.exists_eq_succ_of_ne_zero (by omega : i ≠ 0)
        exact h.fresh hsession hevidence
      isFirst := by
        intro hone
        obtain rfl : i = 0 := by omega
        exact Option.some.inj (hevidence.symm.trans hfirst) }

/-! ### The pages that end a checkpoint -/

/-- The source pages from one end of a checkpoint to the next, for a target of logical pages. -/
def checkpointStride (sourcePageSize target : Nat) : Nat :=
  let alignment := sourcePageSize / Nat.gcd sourcePageSize 100
  max alignment (target / alignment * alignment) * 100 / sourcePageSize

section Stride

variable {env : Env} {config : StreamConfig} {memory : StreamMemory} {target : Option Nat}
  {session : CnipaGazetteBrowserStreamSession}

theorem effective_eq {sourcePageSize effective : Nat}
    (h : cnipaGazetteBrowserEffectiveCheckpointPages sourcePageSize target = .ok effective) :
    sourcePagesPerCheckpoint sourcePageSize effective =
      checkpointStride sourcePageSize (target.getD 25) := by
  simp only [cnipaGazetteBrowserEffectiveCheckpointPages, cnipaGazetteBrowserCheckpointAlignment,
    boundedPositive, bind_eq_ok, require_eq_ok, pure_eq_ok, gcd_eq] at h
  obtain ⟨alignment, ⟨size, ⟨_, ⟨-, hpos, -⟩, rfl⟩, rfl⟩, requested, ⟨_, -, rfl⟩, rfl⟩ := h
  have halignment : 0 < sourcePageSize / Nat.gcd sourcePageSize 100 :=
    Nat.div_pos (Nat.le_of_dvd hpos (Nat.gcd_dvd_left _ _)) (Nat.gcd_pos_of_pos_left 100 hpos)
  simp only [sourcePagesPerCheckpoint, checkpointStride]
  congr 2
  split
  · rename_i hlt
    rw [Nat.div_eq_of_lt hlt, Nat.zero_mul, Nat.max_eq_left (Nat.zero_le _)]
  · rename_i hge
    refine (Nat.max_eq_right ?_).symm
    exact Nat.le_mul_of_pos_left _ (Nat.div_pos (Nat.not_lt.mp hge) halignment)

/-- The stream of a session is created, with its plan. -/
theorem createStream_spec (hsession : SessionOf env.platform session)
    (htarget : 1 ≤ target.getD 25 ∧ target.getD 25 ≤ 100) :
    ∃ config memory, createStream env session target = .ok (config, memory) ∧
      config.session = session ∧ StreamOf env config ∧
      memory.state = createCnipaGazetteBrowserStreamState env.hashes session ∧
      memory.checkpointIndex = 0 ∧ (∀ rows first, MemoryAfter env config rows first 0 memory) ∧
      sourcePagesPerCheckpoint session.sourcePageSize config.effectiveLogicalPagesPerCheckpoint =
        checkpointStride session.sourcePageSize (target.getD 25) := by
  obtain ⟨effective, heffective, haligned⟩ := effective_spec hsession.sizeBounds htarget
  have hpaging := hsession.paging haligned
  have hplan := plan_eq hpaging hsession.totalSafe
  let config : StreamConfig :=
    { session
      ranges := (List.range (checkpointCount session.sourceTotal effective)).map
        (rangeAt session.sourceTotal session.sourcePageSize effective)
      effectiveLogicalPagesPerCheckpoint := effective }
  have hstream : StreamOf env config := ⟨hsession, haligned, rfl⟩
  let memory : StreamMemory :=
    { state := createCnipaGazetteBrowserStreamState env.hashes session, checkpointIndex := 0
      logicalPages := [], firstSourcePageEvidence := none, datasetIdentity := none }
  have hzero : checkpointSourceBound config 0 = 0 := by simp [checkpointSourceBound, sourceBound]
  have hopen : 0 < checkpointCount session.sourceTotal effective := by
    rw [hpaging.lt_count_iff]
    have hpos := hsession.totalPos
    omega
  refine ⟨config, memory, ?_, rfl, hstream, rfl, rfl, fun rows first => ?_, effective_eq heffective⟩
  · simp only [createStream, heffective, hplan, ok_bind, pure_eq_ok]
    rfl
  · exact
      { state := stateAfter_initial hsession
        start := Nat.le_of_eq hzero
        within := by
          intro _
          have hlt := (hpaging.bounds_lt_succ hopen).2
          show 0 < checkpointSourceBound config 1
          exact Nat.lt_of_le_of_lt (Nat.zero_le _) hlt
        finished := fun hle => absurd hsession.pages_pos (Nat.not_lt.mpr hle)
        logical := trivial
        count := by
          have hdone := hsession.logicalDone_sourceBound haligned 0
          show 0 = logicalDone session 0 - logicalBound session.sourceTotal effective 0
          rw [← hdone]
          show 0 = logicalDone session 0 - logicalDone session (checkpointSourceBound config 0)
          rw [hzero, Nat.sub_self]
        identity := Or.inl ⟨rfl, rfl, rfl⟩ }

/-- The source pages that end a checkpoint. -/
theorem StreamOf.ends_iff (hstream : StreamOf env config) (index : Nat)
    (hindex : 1 ≤ index ∧ index ≤ config.session.sourcePages) :
    (∃ checkpoint < checkpointCount config.session.sourceTotal config.effectiveLogicalPagesPerCheckpoint,
      checkpointSourceBound config (checkpoint + 1) = index) ↔
      index = config.session.sourcePages ∨ sourcePagesPerCheckpoint config.session.sourcePageSize
        config.effectiveLogicalPagesPerCheckpoint ∣ index := by
  have hpaging := hstream.session.paging hstream.aligned
  have hpages := hstream.session.pages
  constructor
  · rintro ⟨checkpoint, -, rfl⟩
    rcases Nat.le_total config.session.sourcePages ((checkpoint + 1) * sourcePagesPerCheckpoint
      config.session.sourcePageSize config.effectiveLogicalPagesPerCheckpoint) with hle | hle
    · left
      rw [checkpointSourceBound, sourceBound, ← hpages, Nat.min_eq_left hle]
    · right
      rw [checkpointSourceBound, sourceBound, ← hpages, Nat.min_eq_right hle]
      exact Nat.dvd_mul_left _ _
  · rintro (rfl | ⟨checkpoint, rfl⟩)
    · have hcount : 0 < checkpointCount config.session.sourceTotal
          config.effectiveLogicalPagesPerCheckpoint := by
        rw [hpaging.lt_count_iff]
        have hpos := hstream.session.totalPos
        omega
      refine ⟨_, Nat.sub_one_lt hcount.ne', ?_⟩
      rw [Nat.sub_add_cancel hcount, checkpointSourceBound,
        (hpaging.bounds_of_ge (Nat.le_refl _)).2, hpages]
    · have hpos : checkpoint ≠ 0 := by
        rintro rfl
        simp at hindex
      obtain ⟨before, rfl⟩ := Nat.exists_eq_succ_of_ne_zero hpos
      rw [Nat.mul_comm] at hindex ⊢
      have hstride := hpaging.sourcePages_pos
      refine ⟨before, ?_, ?_⟩
      · rw [hpaging.lt_count_iff, ← hpaging.rows_eq, ← hstream.session.lt_pages_iff]
        have hsucc := Nat.succ_mul before (sourcePagesPerCheckpoint config.session.sourcePageSize
          config.effectiveLogicalPagesPerCheckpoint)
        omega
      · rw [checkpointSourceBound, sourceBound, ← hpages, Nat.min_eq_right hindex.2]

end Stride

/-! ### Nothing is lost -/

/-- The ranges of a plan tile the logical pages and the source pages, and each that is not the last ends
    on a source-page boundary. -/
structure PlanTiles (config : StreamConfig) : Prop where
  logical : (config.ranges.flatMap fun range =>
    between range.logicalRange.startPage range.logicalRange.endPage) =
      between 1 (ceilDiv config.session.sourceTotal 100)
  source : (config.ranges.flatMap fun range =>
    between range.sourceRange.startPage range.sourceRange.endPage) =
      between 1 config.session.sourcePages
  boundary : ∀ range ∈ config.ranges, range.terminal = false →
    range.logicalRange.endPage * 100 = range.sourceRange.endPage * config.session.sourcePageSize

/-- A run of the stream over pages with these rows.  While pages are missing, the packages hold the
    first rows; after the last page, all of them. -/
structure RepagedRun (env : Env) (config : StreamConfig) (memory : StreamMemory)
    (inputs : List SourcePageInput) (rows : List CnipaGazetteRuntimeRow) (closed : List ClosedPage)
    (last : StreamMemory) : Prop where
  accepted : acceptSourcePages env config memory inputs = .ok (closed, last)
  states : parseCnipaGazetteBrowserStreamState env.hashes memory.state config.session =
      .ok memory.state ∧
    ∀ page ∈ closed, parseCnipaGazetteBrowserStreamState env.hashes page.accepted.state config.session =
      .ok page.accepted.state
  numbered : Numbered (fun index page => page.pageIndex = index) 1
    (closed.flatMap (·.accepted.logicalPages))
  full : ∀ page ∈ closed.flatMap (·.accepted.logicalPages),
    page.pageIndex < ceilDiv config.session.sourceTotal 100 → page.rows.length = 100
  tails : ∀ page ∈ closed, ∀ commit ∈ page.checkpoint, commit.rangePlan.terminal = false →
    page.accepted.state.tailRows = []
  ranges : committedRanges closed <+: config.ranges
  records : packageRecords closed <+: rows.map announcementRow
  complete : inputs.length = config.session.sourcePages →
    committedRanges closed = config.ranges ∧ packageRecords closed = rows.map announcementRow

/-- The instants that the handoff takes: of source page 1 and of each page that ends a checkpoint.  The
    state after a page is written with the number of the page after it. -/
structure HandoffFits (session : CnipaGazetteBrowserStreamSession) (target : Nat)
    (inputs : List SourcePageInput) : Prop where
  safe : isSafeInteger (inputs.length + 1) = true
  instants : ∀ index input, 1 ≤ index → inputs[index - 1]? = some input →
    index = session.sourcePages ∨ checkpointStride session.sourcePageSize target ∣ index →
    ShortInstant (trim input.observedAt) ∧
      ∀ first ∈ inputs[0]?, ShortInstant (trim first.observedAt)

section Lossless

variable {env : Env} {config : StreamConfig} {memory : StreamMemory}
  {inputs : List SourcePageInput} {evidences : List CnipaGazetteBrowserSourcePageEvidence}
  {first : CnipaGazetteBrowserSourcePageEvidence}

theorem StreamOf.planTiles (hstream : StreamOf env config) : PlanTiles config := by
  have hpaging := hstream.session.paging hstream.aligned
  obtain ⟨hlogical, hsource⟩ := ranges_tile hpaging
  rw [← hstream.ranges] at hlogical hsource
  refine ⟨hlogical, ?_, ?_⟩
  · rw [hstream.session.pages]
    exact hsource
  · intro range hmem hterminal
    rw [hstream.ranges] at hmem
    obtain ⟨index, hindex, rfl⟩ := List.mem_map.mp hmem
    have hlt := List.mem_range.mp hindex
    have hne := of_decide_eq_false hterminal
    exact hpaging.boundary (by omega)

/-- Every page of a run fits, if and only if the handoff fits. -/
theorem handoffFits_iff (hstream : StreamOf env config)
    (hpages : PagesOf env config.session inputs evidences) (hfirst : evidences[0]? = some first)
    (hle : inputs.length ≤ config.session.sourcePages) :
    Numbered (fun index (page : SourcePageInput × CnipaGazetteBrowserSourcePageEvidence) =>
        PageFits config first index page.2) 1 (inputs.zip evidences) ↔
      isSafeInteger (inputs.length + 1) = true ∧
        ∀ index input, 1 ≤ index → inputs[index - 1]? = some input →
          index = config.session.sourcePages ∨ sourcePagesPerCheckpoint config.session.sourcePageSize
            config.effectiveLogicalPagesPerCheckpoint ∣ index →
          ShortInstant (trim input.observedAt) ∧
            ∀ first ∈ inputs[0]?, ShortInstant (trim first.observedAt) := by
  obtain ⟨firstInput, hfirstInput, -, hfirstBuilt⟩ := hpages.getElem hfirst
  have hfirstObserved := (evidence_spec hfirstBuilt).2.1
  have hlength := hpages.length
  rw [numbered_iff]
  constructor
  · intro hfits
    have hpos : 0 < inputs.length := (List.getElem?_eq_some_iff.mp hfirstInput).1
    constructor
    · have hlast : (inputs.zip evidences)[inputs.length - 1]? =
          some (inputs[inputs.length - 1], evidences[inputs.length - 1]) := by
        rw [List.getElem?_zip_eq_some]
        exact ⟨List.getElem?_eq_getElem _, List.getElem?_eq_getElem _⟩
      have hsafe := (hfits _ _ hlast).1
      rwa [Nat.add_sub_cancel' hpos] at hsafe
    · intro index input hindex hinput hends
      have hlt : index - 1 < inputs.length := (List.getElem?_eq_some_iff.mp hinput).1
      have hevidence : evidences[index - 1]? = some evidences[index - 1] := List.getElem?_eq_getElem (by omega)
      have hboth : (inputs.zip evidences)[index - 1]? = some (input, evidences[index - 1]) :=
        List.getElem?_zip_eq_some.mpr ⟨hinput, hevidence⟩
      obtain ⟨checkpoint, hcheckpoint, hbound⟩ :=
        (hstream.ends_iff index ⟨hindex, by omega⟩).mpr hends
      obtain ⟨hfirstShort, hshort⟩ := (hfits _ _ hboth).2 checkpoint hcheckpoint (by rw [hbound]; omega)
      obtain ⟨other, hother, -, hbuilt⟩ := hpages.getElem hevidence
      obtain rfl : input = other := Option.some.inj (hinput.symm.trans hother)
      rw [(evidence_spec hbuilt).2.1] at hshort
      rw [hfirstObserved] at hfirstShort
      refine ⟨hshort, fun given hgiven => ?_⟩
      rw [Option.mem_def, hfirstInput] at hgiven
      obtain rfl := Option.some.inj hgiven
      exact hfirstShort
  · rintro ⟨hsafe, hinstants⟩ i ⟨input, evidence⟩ hi
    obtain ⟨hinput, hevidence⟩ := List.getElem?_zip_eq_some.mp hi
    have hlt : i < inputs.length := (List.getElem?_eq_some_iff.mp hinput).1
    refine ⟨isSafeInteger_mono (by omega) hsafe, fun checkpoint hcheckpoint hbound => ?_⟩
    have hends := (hstream.ends_iff (1 + i) ⟨by omega, by omega⟩).mp
      ⟨checkpoint, hcheckpoint, hbound⟩
    obtain ⟨hshort, hfirstShort⟩ := hinstants (1 + i) input (by omega)
      (by rwa [Nat.add_sub_cancel_left]) hends
    obtain ⟨other, hother, -, hbuilt⟩ := hpages.getElem hevidence
    obtain rfl : input = other := Option.some.inj (hinput.symm.trans hother)
    rw [(evidence_spec hbuilt).2.1, hfirstObserved]
    exact ⟨hfirstShort firstInput hfirstInput, hshort⟩

theorem logicalDone_zero {platform : Platform} {session : CnipaGazetteBrowserStreamSession}
    (h : SessionOf platform session) : logicalDone session 0 = 0 := by
  simp [logicalDone, h.pages_pos]

/-- What a run of the stream has written, given that every page fits. -/
theorem repagedRun_of {rows : List CnipaGazetteRuntimeRow} {closed : List ClosedPage}
    {last : StreamMemory} (hstream : StreamOf env config) (hmemory : MemoryAfter env config rows first 0 memory)
    (hstart : memory.checkpointIndex = 0)
    (hrow : ∀ row ∈ rows, RowOf config.session.announcementIssue row)
    (hlength : rows.length = rowBound config.session inputs.length)
    (hle : inputs.length ≤ config.session.sourcePages) (hsafe : isSafeInteger (inputs.length + 1) = true)
    (haccepted : acceptSourcePages env config memory inputs = .ok (closed, last))
    (hrun : RunOf env config rows first 0 inputs.length memory (closed, last)) :
    RepagedRun env config memory inputs rows closed last := by
  have hclosed := hrun.closedOf
  rw [numbered_iff] at hclosed
  have hcount : closed.length = inputs.length := hrun.length
  have hrowsOf : ∀ index ≤ inputs.length, RowsOf config.session rows index := by
    intro index hindex
    refine ⟨?_, hrow⟩
    rw [hlength]
    exact rowBound_mono config.session hindex
  have hclosedOf : ∀ page ∈ closed, ∃ index, 1 ≤ index ∧ index ≤ inputs.length ∧
      ClosedOf env config rows index page := by
    intro page hmem
    obtain ⟨index, hfirst, hlast, hpage⟩ := hrun.closedOf.of_mem hmem
    rw [hrun.length] at hlast
    exact ⟨index, by omega, by omega, hpage⟩
  have hnumbered : Numbered (LogicalPageOf config.session rows) 1
      (closed.flatMap (·.accepted.logicalPages)) := by
    have hparts := Numbered.flatMap (fun index => logicalDone config.session (index - 1))
      (fun n => hstream.session.logicalDone_mono (by omega)) (hrun.closedOf.mono fun index page hpage =>
        ⟨hpage.count, hpage.logical⟩)
    simp only [Nat.zero_add, Nat.sub_self, logicalDone_zero hstream.session] at hparts
    exact hparts
  have hbound : checkpointRowBound config 0 = 0 := by
    simp [checkpointRowBound, logicalRowBound, logicalBound]
  have hranges := hrun.ranges
  have hrecords := hrun.records
  rw [hstart, slice_zero] at hranges
  rw [hstart, hbound, slice_zero] at hrecords
  refine ⟨haccepted, ⟨?_, ?_⟩, hnumbered.mono fun _ _ hpage => hpage.index_eq, ?_, ?_, ?_, ?_, ?_⟩
  · exact parse_stateAfter hstream.session (hrowsOf 0 (Nat.zero_le _)) (Nat.zero_le _) (by decide)
      hmemory.state
  · intro page hmem
    obtain ⟨index, -, hindex, hpage⟩ := hclosedOf page hmem
    exact parse_stateAfter hstream.session (hrowsOf index hindex) (Nat.le_trans hindex hle)
      (isSafeInteger_mono (by omega) hsafe) hpage.state
  · intro logical hmem hlt
    obtain ⟨page, hpage, hlogical⟩ := List.mem_flatMap.mp hmem
    obtain ⟨index, -, hindex, hclosedPage⟩ := hclosedOf page hpage
    obtain ⟨number, hfirst, hlast, hnumber⟩ := hclosedPage.logical.of_mem hlogical
    have hdone : number ≤ logicalDone config.session index := by
      have hcountPage := hclosedPage.count
      have hmono := hstream.session.logicalDone_mono (Nat.sub_le index 1)
      omega
    rw [hnumber.index_eq] at hlt
    rw [hnumber.length, hstream.session.logicalRows_of_lt (by omega)]
    · rw [hstream.session.logicalPageCount_eq]
      exact hlt
    · calc logicalRowBound config.session number
          ≤ logicalRowBound config.session (logicalDone config.session index) :=
            logicalRowBound_mono config.session hdone
        _ ≤ rowBound config.session index := hstream.session.logicalRowBound_le index
        _ ≤ rows.length := (hrowsOf index hindex).length
  · intro page hmem commit hcommit _
    obtain ⟨index, -, -, hpage⟩ := hclosedOf page hmem
    obtain ⟨checkpoint, hends, -⟩ := hpage.commit commit hcommit
    exact hpage.state.tail_of_ends hstream hends
  · rw [hranges]
    exact List.take_prefix _ _
  · rw [hrecords]
    exact (List.take_prefix _ _).map _
  · intro hall
    have hfinished := hrun.memoryOf.finished (by omega)
    simp only at hfinished
    have hpaging := hstream.session.paging hstream.aligned
    constructor
    · rw [hranges, hfinished]
      apply List.take_of_length_le
      rw [hstream.ranges, List.length_map, List.length_range]
    · rw [hrecords, hfinished]
      congr 1
      apply List.take_of_length_le
      rw [hlength, hall, hstream.session.rowBound_of_ge (Nat.le_refl _), checkpointRowBound,
        (hpaging.bounds_of_ge (Nat.le_refl _)).1, logicalRowBound,
        Nat.min_eq_left hstream.session.total_le]

/-- Before the first page. -/
theorem repagedRun_nil (hstream : StreamOf env config)
    (hstate : memory.state = createCnipaGazetteBrowserStreamState env.hashes config.session) :
    RepagedRun env config memory [] [] [] memory where
  accepted := rfl
  states := by
    have hrows : RowsOf config.session [] 0 := ⟨by simp [rowBound], by simp⟩
    refine ⟨?_, by simp⟩
    rw [hstate]
    exact parse_stateAfter hstream.session hrows (Nat.zero_le _) (by decide)
      (stateAfter_initial hstream.session)
  numbered := trivial
  full := by simp
  tails := by simp
  ranges := List.nil_prefix
  records := List.nil_prefix
  complete := fun hall => absurd hstream.session.pages_pos (by rw [← hall]; exact Nat.lt_irrefl 0)

end Lossless

/-- Repaging loses nothing, exactly when the handoff takes the instants of the pages. -/
theorem repaging_loses_nothing_iff (env : Env) {input : BrowserStreamSessionInput}
    {session : CnipaGazetteBrowserStreamSession}
    (hsession : createCnipaGazetteBrowserStreamSession env.platform input = .ok session)
    (htotal : 1 ≤ session.sourceTotal) (hsize : session.sourcePageSize ≤ 100) {target : Option Nat}
    (htarget : 1 ≤ target.getD 25 ∧ target.getD 25 ≤ 100) {inputs : List SourcePageInput}
    {evidences : List CnipaGazetteBrowserSourcePageEvidence}
    (hpages : PagesOf env session inputs evidences) :
    ∃ config memory, createStream env session target = .ok (config, memory) ∧
      (PlanTiles config ∧ (∃ closed last, RepagedRun env config memory inputs
          (evidences.flatMap (·.page.rows)) closed last) ↔
        HandoffFits session (target.getD 25) inputs) := by
  have hsessionOf := createSession_spec hsession htotal hsize
  obtain ⟨config, memory, hcreate, rfl, hstream, hstate, hstart, hmemory, hstride⟩ :=
    createStream_spec hsessionOf htarget
  refine ⟨config, memory, hcreate, ?_⟩
  cases hevidences : evidences with
  | nil =>
    have hinputs : inputs = [] := by
      rw [← List.length_eq_zero_iff, ← hpages.length, hevidences, List.length_nil]
    subst hinputs
    constructor
    · intro _
      exact ⟨by decide, by simp⟩
    · intro _
      exact ⟨hstream.planTiles, [], memory, repagedRun_nil hstream hstate⟩
  | cons first rest =>
    rw [← hevidences]
    have hfirst : evidences[0]? = some first := by rw [hevidences, List.getElem?_cons_zero]
    have hlength := hpages.length
    have hzip : (inputs.zip evidences).length = inputs.length := by
      rw [List.length_zip, hlength, Nat.min_self]
    have hinputs : (inputs.zip evidences).map Prod.fst = inputs := List.map_fst_zip (Nat.le_of_eq hlength.symm)
    -- there are no more pages than the session has
    have hle : inputs.length ≤ config.session.sourcePages := by
      have hpos : 0 < evidences.length := (List.getElem?_eq_some_iff.mp hfirst).1
      have hlast := (hpages.pageOf (List.getElem?_eq_getElem (Nat.sub_one_lt hpos.ne'))).index_le.2
      omega
    obtain ⟨-, hrowsLength⟩ := hpages.slices hsessionOf
    obtain ⟨firstInput, hfirstInput, hfirstRequested, hfirstBuilt⟩ := hpages.getElem hfirst
    have hfirstOf : FirstPageOf env config.session first := by
      refine ⟨hpages.pageOf hfirst, ?_⟩
      rw [(evidence_spec hfirstBuilt).2.2, hfirstRequested]
    have hrun := acceptSourcePages_spec hstream hpages.ids hpages.rowOf hfirstOf (hmemory _ first)
      (hpages.pageAt hsessionOf hfirst) (by rw [hzip, Nat.zero_add]; exact hle)
      (by rw [hzip, Nat.zero_add, hrowsLength])
    rw [hinputs, hzip] at hrun
    have hfits := handoffFits_iff hstream hpages hfirst hle
    rw [hstride] at hfits
    constructor
    · rintro ⟨-, closed, last, hrepaged⟩
      obtain ⟨hall, -⟩ := hrun.2 _ hrepaged.accepted
      obtain ⟨hsafe, hinstants⟩ := hfits.mp hall
      exact ⟨hsafe, hinstants⟩
    · rintro ⟨hsafe, hinstants⟩
      obtain ⟨⟨closed, last⟩, haccepted⟩ := hrun.1 (hfits.mpr ⟨hsafe, hinstants⟩)
      obtain ⟨-, hrunOf⟩ := hrun.2 _ haccepted
      exact ⟨hstream.planTiles, closed, last, repagedRun_of hstream (hmemory _ first) hstart
        hpages.rowOf hrowsLength hle hsafe haccepted hrunOf⟩

/-- A session of one page that was observed at a long instant. -/
theorem acceptSourcePages_long {env : Env} {session : CnipaGazetteBrowserStreamSession}
    (hsession : SessionOf env.platform session) (hone : session.sourcePages = 1) {target : Option Nat}
    (htarget : 1 ≤ target.getD 25 ∧ target.getD 25 ≤ 100) {input : SourcePageInput}
    {evidence : CnipaGazetteBrowserSourcePageEvidence} (hpages : PagesOf env session [input] [evidence])
    (hlong : ¬ ShortInstant evidence.page.observedAt) :
    ∃ config memory, createStream env session target = .ok (config, memory) ∧
      acceptSourcePages env config memory [input] = .error longInstantError := by
  obtain ⟨config, memory, hcreate, rfl, hstream, -, hstart, hmemory, -⟩ :=
    createStream_spec hsession htarget
  refine ⟨config, memory, hcreate, ?_⟩
  obtain ⟨firstInput, hfirstInput, hrequested, hbuilt⟩ := hpages.getElem (i := 0) rfl
  have hfirst : FirstPageOf env config.session evidence := by
    refine ⟨hpages.pageOf (i := 0) rfl, ?_⟩
    rw [(evidence_spec hbuilt).2.2, hrequested]
  have hrows : RowsOf config.session ([evidence].flatMap (·.page.rows)) 1 :=
    ⟨Nat.le_of_eq (hpages.slices hsession).2.symm, hpages.rowOf⟩
  have hends : checkpointSourceBound config 1 = 1 := by
    have hpos := (hsession.paging hstream.aligned).sourcePages_pos
    rw [checkpointSourceBound, sourceBound, ← hsession.pages, hone, Nat.one_mul]
    exact Nat.min_eq_left hpos
  have hopen : 0 < config.session.sourcePages := hone ▸ Nat.one_pos
  have haccept := acceptSourcePage_long hstream hrows hpages.ids hfirst (hmemory _ evidence) hopen
    (hpages.pageAt hsession rfl).1 (by decide) hstart hends hlong
  rw [acceptSourcePages, haccept]
  rfl

/-! ### Pages as the list endpoint sends them -/

section Sent

variable {env : Env} {session : CnipaGazetteBrowserStreamSession} {row : CnipaGazetteRuntimeRow}
  {date : String}

/-- A row as the list endpoint sends it. -/
def rowJson (date : String) (row : CnipaGazetteRuntimeRow) : Json :=
  .object [("id", .text row.sourceRowId), ("searchId", .text row.sourceSearchId),
    ("anncIssue", .number row.announcementIssue), ("anncDate", .text date),
    ("regNo", .text row.registrationNumber), ("anncType", .text row.announcementTypeCode),
    ("anncTypeName", .text row.announcementTypeName),
    ("pageNo", (pageNumberJson row.detailPageNo).getD .null),
    ("anncPageNum", (pageNumberJson row.announcementPageCount).getD .null),
    ("fileId", .text row.detailFileId), ("imgDir", .text row.detailAssetPath)]

/-- The response of the list endpoint for one page. -/
def sourcePageJson (session : CnipaGazetteBrowserStreamSession) (date : String) (index : Nat)
    (rows : List CnipaGazetteRuntimeRow) : Json :=
  .object [("code", .number 0), ("data", .object [("pageIndex", .number index),
    ("pageSize", .number session.sourcePageSize), ("total", .number session.sourceTotal),
    ("pages", .number session.sourcePages), ("list", .array (rows.map (rowJson date)))])]

theorem some_pageNumberJson (read : Option Nat) :
    some ((pageNumberJson read).getD .null) = pageNumberJson read := by
  cases read <;> rfl

theorem isoDateOrNull_date {platform : Platform} {label : String} (hdate : ReadText 32 date)
    (hparses : platform.isDate date = true) :
    isoDateOrNull (some (.text date)) label platform = .ok (some date) := by
  have hne : date ≠ "" := by
    rintro rfl
    exact absurd hparses (by simp [Platform.isDate, isDateText])
  simp only [isoDateOrNull, requiredText_text hdate hne, ok_bind, bind_eq_ok, require_eq_ok, pure_eq_ok]
  exact ⟨(), hparses, trivial⟩

theorem isoInstant_text {platform : Platform} {label instant : String} (hread : ReadText 128 instant)
    (hne : instant ≠ "") (hparses : platform.dateParses instant = true) :
    isoInstant (some (.text instant)) label platform = .ok instant := by
  simp only [isoInstant, requiredText_text hread hne, ok_bind, bind_eq_ok, require_eq_ok, pure_eq_ok]
  exact ⟨(), hparses, trivial⟩

theorem normalizeRow_rowJson {pageIndex rowIndex : Nat} (hrow : RowOf session.announcementIssue row)
    (hdated : session.announcementDate = some date) (hdate : ReadText 32 date)
    (hparses : env.platform.isDate date = true) :
    normalizeRow env.platform (rowJson date row) session pageIndex rowIndex = .ok row := by
  have hissue : isSafeInteger row.announcementIssue = true ∧ 1 ≤ row.announcementIssue :=
    hrow.issue_eq ▸ hrow.issuePositive
  simp only [normalizeRow, bind_eq_ok, require_eq_ok, pure_eq_ok]
  exact ⟨_, rfl, _, requiredText_text hrow.rowId hrow.rowId_ne, _, optionalText_text hrow.searchId, (),
    hrow.searchId_eq, _, integer_number hissue.1 hissue.2, (), hrow.issue_eq, _,
    isoDateOrNull_date hdate hparses, (), hdated.symm, _,
    requiredText_text hrow.registration hrow.registration_ne, _,
    requiredText_text hrow.typeCode hrow.typeCode_ne, _, optionalText_text hrow.typeName, _,
    some_pageNumberJson row.detailPageNo ▸ positiveIntegerOrNull_number hrow.pageNo, _,
    some_pageNumberJson row.announcementPageCount ▸ positiveIntegerOrNull_number hrow.pageCount, _,
    optionalText_text hrow.fileId, _, optionalText_text hrow.assetPath, by rw [← hrow.detailUrl]⟩

/-- A page of the session, sent by the list endpoint, is read as it is. -/
theorem parseSourcePage_sourcePageJson {rows : List CnipaGazetteRuntimeRow} {index : Nat}
    {observedAt : String} (hsession : SessionOf env.platform session)
    (hdated : session.announcementDate = some date) (hdate : ReadText 32 date)
    (hindex : 1 ≤ index ∧ index ≤ session.sourcePages)
    (hrows : ∀ row ∈ rows, RowOf session.announcementIssue row)
    (hlength : rows.length =
      expectedRows session.sourceTotal session.sourcePageSize session.sourcePages index)
    (hids : (rows.map (·.sourceRowId)).Nodup) (hobserved : ReadText 128 observedAt)
    (hparses : env.platform.dateParses observedAt = true) (hne : observedAt ≠ "") :
    parseCnipaGazetteBrowserSourcePage env.platform env.hashes session index observedAt 200
        (sourcePageJson session date index rows) =
      .ok
        { sessionId := session.sessionId, sourcePageIndex := index
          sourcePageSize := session.sourcePageSize, sourceTotal := session.sourceTotal
          sourcePages := session.sourcePages, announcementDate := session.announcementDate
          observedAt, pageSignatureSha256 := env.hashes.ofIds (rows.map (·.sourceRowId)), rows } := by
  obtain ⟨other, hother, hisDate⟩ := hsession.date
  obtain rfl : date = other := Option.some.inj (hdated.symm.trans hother)
  have hsafe : isSafeInteger index = true := isSafeInteger_mono hindex.2 hsession.pagesSafe
  have hsize : isSafeInteger session.sourcePageSize = true :=
    isSafeInteger_mono hsession.sizeBounds.2 (by decide)
  have hread : ((rows.map (rowJson date)).zipIdx.mapM fun indexed =>
      normalizeRow env.platform indexed.1 session index indexed.2) = .ok rows := by
    rw [List.zipIdx_map, List.mapM_map]
    exact mapM_zipIdx_eq (l := rows) fun row hrow _ =>
      normalizeRow_rowJson (hrows row hrow) hdated hdate hisDate
  simp only [parseCnipaGazetteBrowserSourcePage, bind_eq_ok, require_eq_ok, orThrow_eq_ok, pure_eq_ok]
  exact ⟨_, integer_number hsafe hindex.1, (), hindex.2, (), by decide, _, rfl, 0, rfl, (), by decide, (),
    rfl, _, rfl, _, rfl, _, integer_number hsafe hindex.1, _, integer_number hsize hsession.sizeBounds.1, _,
    integer_number hsession.totalSafe (Nat.zero_le _), _,
    integer_number hsession.pagesSafe hsession.pages_pos, (), rfl, (), rfl, (), ⟨rfl, rfl⟩, (),
    by rw [List.length_map, hlength], _, hread, (), hids, _,
    isoInstant_text hobserved hne hparses, rfl⟩

end Sent

/-! ### A session of one page -/

/-- `Date.parse` reads any number of digits of a second. -/
def longInstant : String :=
  "2026-07-30T01:02:03.00000000000000000000000000000000000000000000000000Z"

def shortInstant : String := "2026-07-30T01:02:03Z"

def listEndpoint : String :=
  "https://pub.sbj.cnipa.gov.cn/toas-pub-prod/pub-prod-api/public/web/anncInfo/searchEsTmgg"

def onePageBody : List UInt8 :=
  ("\x7b\"code\":0,\"data\":\x7b\"pageIndex\":1,\"pageSize\":1,\"total\":1,\"pages\":1,\"list\":[" ++
    "\x7b\"id\":\"a\",\"anncIssue\":1900,\"anncDate\":\"2026-07-27\",\"regNo\":\"1\"," ++
    "\"anncType\":\"TMZCSQ\"\x7d]\x7d\x7d").toUTF8.toList

def onePageJson : Json :=
  .object [("code", .number 0), ("data", .object [("pageIndex", .number 1), ("pageSize", .number 1),
    ("total", .number 1), ("pages", .number 1), ("list", .array [.object [("id", .text "a"),
      ("anncIssue", .number 1900), ("anncDate", .text "2026-07-27"), ("regNo", .text "1"),
      ("anncType", .text "TMZCSQ")]])])]

def onePageEnv : Env where
  platform :=
    { dateParses := fun text =>
        decide (text ∈ [longInstant, shortInstant, "2026-07-27T00:00:00Z"])
      isListEndpoint := fun text => decide (text = listEndpoint) }
  hashes := { ofSession := fun _ => 1, ofIds := List.length, ofBytes := List.length }
  parseJson := fun body => if body = onePageBody then some onePageJson else none
  identitySha256 := fun identity => identity.announcementIssue

def onePageQuery : JsonRecord :=
  [("anncIssue", .number 1900), ("anncType", .text ""), ("pageIndex", .number 1), ("pageSize", .number 1)]

def onePageSessionInput : BrowserStreamSessionInput where
  sessionId := "capture"
  announcementIssue := 1900
  sourceUrl := listEndpoint
  capturedQuery := .object onePageQuery
  sourceTotal := 1
  sourcePages := 1
  announcementDate := some "2026-07-27"
  startedAt := shortInstant

def onePageSession : CnipaGazetteBrowserStreamSession where
  sessionId := "capture"
  announcementIssue := 1900
  sourceUrl := listEndpoint
  sourcePageSize := 1
  sourceTotal := 1
  sourcePages := 1
  announcementDate := some "2026-07-27"
  capturedQuery := onePageQuery
  startedAt := shortInstant

def onePage (observedAt : String) : SourcePageInput := ⟨1, observedAt, 200, onePageBody⟩

def onePageRow : CnipaGazetteRuntimeRow := ⟨"a", "", "1", 1900, "TMZCSQ", "", none, none, "", "", ""⟩

def onePageSource (observedAt : String) : CnipaGazetteBrowserSourcePage :=
  ⟨"capture", 1, 1, 1, 1, some "2026-07-27", observedAt, 1, [onePageRow]⟩

def onePageEvidence (observedAt : String) : CnipaGazetteBrowserSourcePageEvidence where
  page := onePageSource observedAt
  rawBody := onePageBody
  rawArtifact := ⟨.sourceRaw 1900 1 1, [], .sourceRaw onePageBody⟩
  projectionArtifact :=
    ⟨.sourceProjection 1900 1 1, [.sourceRaw 1900 1 1], .sourceProjection (onePageSource observedAt)⟩

theorem readText_capture : ReadText 128 "capture" := readText_ofList (by decide) (by decide) (by decide)

theorem readText_date : ReadText 32 "2026-07-27" := readText_ofList (by decide) (by decide) (by decide)

theorem readText_shortInstant : ReadText 128 shortInstant :=
  readText_ofList (by decide) (by decide) (by decide)

theorem shortInstant_short : ShortInstant shortInstant :=
  (readText_ofList (by decide) (by decide) (by decide) : ReadText 64 shortInstant).bounded

theorem readText_listEndpoint : ReadText 4096 listEndpoint :=
  readText_ofList (by decide) (by decide) (by decide)

theorem isDate_sample : onePageEnv.platform.isDate "2026-07-27" = true := by
  simp [Platform.isDate, isDateText, onePageEnv]

theorem dateParses_shortInstant : onePageEnv.platform.dateParses shortInstant = true := by
  simp [onePageEnv]

theorem isListEndpoint_listEndpoint : onePageEnv.platform.isListEndpoint listEndpoint = true := by
  simp [onePageEnv]

/-- A sample session is created from its query and its counts. -/
theorem sampleSession_created {query : JsonRecord} {size total pages : Nat}
    (hquery : capturedQuery (some (.object query)) 1900 = .ok query)
    (hsize : integer (query.lookup "pageSize") "capturedQuery.pageSize" 1 = .ok size)
    (htotal : isSafeInteger total = true) (hpages : isSafeInteger pages = true ∧ 1 ≤ pages)
    (hcount : pages = max 1 (ceilDiv total size)) :
    createCnipaGazetteBrowserStreamSession onePageEnv.platform
        { onePageSessionInput with
          capturedQuery := .object query, sourceTotal := total, sourcePages := pages } =
      .ok
        { onePageSession with
          sourcePageSize := size, sourceTotal := total, sourcePages := pages, capturedQuery := query } := by
  simp only [createCnipaGazetteBrowserStreamSession, bind_eq_ok, require_eq_ok, pure_eq_ok]
  exact ⟨"capture", requiredText_text readText_capture (by decide), (), by decide, 1900, rfl, query, hquery,
    size, hsize, total, integer_number htotal (Nat.zero_le total), pages,
    integer_number hpages.1 hpages.2, (), hcount, some "2026-07-27",
    isoDateOrNull_date readText_date isDate_sample, (), Or.inr (Option.some_ne_none _), listEndpoint,
    requiredText_text readText_listEndpoint (by decide), (), isListEndpoint_listEndpoint, shortInstant,
    isoInstant_text readText_shortInstant (by decide) dateParses_shortInstant, rfl⟩

theorem onePageSession_created :
    createCnipaGazetteBrowserStreamSession onePageEnv.platform onePageSessionInput = .ok onePageSession :=
  sampleSession_created rfl rfl (by decide) (by decide) (by decide)

theorem onePage_built {observedAt : String}
    (hread : parseCnipaGazetteBrowserSourcePage onePageEnv.platform onePageEnv.hashes onePageSession 1
      observedAt 200 onePageJson = .ok (onePageSource observedAt)) :
    buildCnipaGazetteBrowserSourcePageEvidence onePageEnv onePageSession (onePage observedAt) =
      .ok (onePageEvidence observedAt) := by
  have hparse : onePageEnv.parseJson onePageBody = some onePageJson := if_pos rfl
  have hbody : onePageBody ≠ [] := by decide +kernel
  simp only [buildCnipaGazetteBrowserSourcePageEvidence, bind_eq_ok, require_eq_ok, orThrow_eq_ok,
    pure_eq_ok]
  exact ⟨(), hbody, onePageJson, hparse, onePageSource observedAt, hread, rfl⟩

theorem onePage_pagesOf {observedAt : String}
    (hread : parseCnipaGazetteBrowserSourcePage onePageEnv.platform onePageEnv.hashes onePageSession 1
      observedAt 200 onePageJson = .ok (onePageSource observedAt)) :
    PagesOf onePageEnv onePageSession [onePage observedAt] [onePageEvidence observedAt] where
  built := by
    simp only [List.mapM_cons, List.mapM_nil, onePage_built hread, ok_bind]
    rfl
  order := rfl
  ids := List.nodup_singleton "a"
  collision := by
    intro a ha b hb _
    rw [List.mem_singleton.mp ha, List.mem_singleton.mp hb]

/-- The parser takes the instant of the page; the identity of the dataset does not. -/
theorem long_instant_refused :
    createCnipaGazetteBrowserStreamSession onePageEnv.platform onePageSessionInput =
        .ok onePageSession ∧
      PagesOf onePageEnv onePageSession [onePage longInstant] [onePageEvidence longInstant] ∧
      (do
        let (config, memory) ← createStream onePageEnv onePageSession none
        let _ ← acceptSourcePages onePageEnv config memory [onePage longInstant]
        pure ()) =
        .error "dataset identity.captureStartedAt must be non-empty and at most 64 characters" := by
  have hpages := @onePage_pagesOf longInstant rfl
  have hsession := createSession_spec onePageSession_created (by decide) (by decide)
  have hlong : ¬ ShortInstant longInstant := by decide +kernel
  obtain ⟨config, memory, hcreate, haccept⟩ :=
    acceptSourcePages_long hsession rfl (by decide : 1 ≤ (none : Option Nat).getD 25 ∧ _) hpages hlong
  refine ⟨onePageSession_created, hpages, ?_⟩
  rw [hcreate, ok_bind]
  simp only [haccept, error_bind, longInstantError]

/-! ### A session of six pages -/

/-- Texts apart from each other have digests apart from each other. -/
def sampleHashes : Hashes where
  ofSession session := Encodable.encode (session.sessionId.toList.map Char.toNat)
  ofIds ids := Encodable.encode (ids.map fun id => id.toList.map Char.toNat)
  ofBytes body := Encodable.encode (body.map UInt8.toNat)

/-- The numbers of the rows on a source page. -/
def sixPagesNumbers (index : Nat) : List Nat :=
  List.range' ((index - 1) * 40 + 1) (if index = 6 then 10 else 40)

def sixPagesRow (n : Nat) : CnipaGazetteRuntimeRow where
  sourceRowId := toString n
  sourceSearchId := ""
  registrationNumber := toString n
  announcementIssue := 1900
  announcementTypeCode := "TMZCSQ"
  announcementTypeName := ""
  detailPageNo := some n
  announcementPageCount := none
  detailFileId := ""
  detailAssetPath := ""
  announcementDetailUrl := ""

def sixPagesRows (index : Nat) : List CnipaGazetteRuntimeRow := (sixPagesNumbers index).map sixPagesRow

def sixPagesRowText (n : Nat) : String :=
  "\x7b\"id\":\"" ++ toString n ++ "\",\"searchId\":\"\",\"anncIssue\":1900," ++
    "\"anncDate\":\"2026-07-27\",\"regNo\":\"" ++ toString n ++ "\",\"anncType\":\"TMZCSQ\"," ++
    "\"anncTypeName\":\"\",\"pageNo\":" ++ toString n ++ ",\"anncPageNum\":null,\"fileId\":\"\"," ++
    "\"imgDir\":\"\"\x7d"

def sixPagesBody (index : Nat) : List UInt8 :=
  ("\x7b\"code\":0,\"data\":\x7b\"pageIndex\":" ++ (toString index ++
    (",\"pageSize\":40,\"total\":210,\"pages\":6,\"list\":[" ++
      ",".intercalate ((sixPagesNumbers index).map sixPagesRowText) ++ "]\x7d\x7d"))).toUTF8.data.toList

def sixPagesQuery : JsonRecord :=
  [("anncIssue", .number 1900), ("anncType", .text ""), ("pageIndex", .number 1), ("pageSize", .number 40)]

def sixPagesSessionInput : BrowserStreamSessionInput where
  sessionId := "capture"
  announcementIssue := 1900
  sourceUrl := listEndpoint
  capturedQuery := .object sixPagesQuery
  sourceTotal := 210
  sourcePages := 6
  announcementDate := some "2026-07-27"
  startedAt := shortInstant

def sixPagesSession : CnipaGazetteBrowserStreamSession where
  sessionId := "capture"
  announcementIssue := 1900
  sourceUrl := listEndpoint
  sourcePageSize := 40
  sourceTotal := 210
  sourcePages := 6
  announcementDate := some "2026-07-27"
  capturedQuery := sixPagesQuery
  startedAt := shortInstant

def sixPagesEnv : Env where
  platform := onePageEnv.platform
  hashes := sampleHashes
  parseJson := fun body =>
    ((List.range' 1 6).find? fun index => decide (sixPagesBody index = body)).map fun index =>
      sourcePageJson sixPagesSession "2026-07-27" index (sixPagesRows index)
  identitySha256 := fun identity => identity.announcementIssue

def sixPage (index : Nat) : SourcePageInput := ⟨index, shortInstant, 200, sixPagesBody index⟩

def sixPagesSource (index : Nat) : CnipaGazetteBrowserSourcePage where
  sessionId := "capture"
  sourcePageIndex := index
  sourcePageSize := 40
  sourceTotal := 210
  sourcePages := 6
  announcementDate := some "2026-07-27"
  observedAt := shortInstant
  pageSignatureSha256 := sampleHashes.ofIds ((sixPagesRows index).map (·.sourceRowId))
  rows := sixPagesRows index

def sixPagesEvidence (index : Nat) : CnipaGazetteBrowserSourcePageEvidence where
  page := sixPagesSource index
  rawBody := sixPagesBody index
  rawArtifact := ⟨.sourceRaw 1900 40 index, [], .sourceRaw (sixPagesBody index)⟩
  projectionArtifact :=
    ⟨.sourceProjection 1900 40 index, [.sourceRaw 1900 40 index], .sourceProjection (sixPagesSource index)⟩

theorem sixPagesSession_created :
    createCnipaGazetteBrowserStreamSession sixPagesEnv.platform sixPagesSessionInput =
      .ok sixPagesSession :=
  sampleSession_created rfl rfl (by decide) (by decide) (by decide)

theorem toString_injective {n m : Nat} (h : toString n = toString m) : n = m := by
  have hlist := congrArg String.toList h
  rw [Nat.toString_eq_repr, Nat.toString_eq_repr, Nat.toList_repr, Nat.toList_repr] at hlist
  exact toDigits_injective hlist

theorem readText_toString {n maximum : Nat} (hlt : n < 1000) (hmaximum : 3 ≤ maximum) :
    ReadText maximum (toString n) := by
  have hdigits : ∀ c ∈ (toString n).toList, c.isDigit = true := by
    intro c hc
    rw [Nat.toString_eq_repr, Nat.toList_repr] at hc
    exact Nat.isDigit_of_mem_toDigits (by decide) (by decide) hc
  have hspace : ∀ c ∈ (toString n).toList, isJsSpace c = false := by
    intro c hc
    refine isJsSpace_of_isAlnum ?_
    simp [isAlnum, isLowerAlnum, hdigits c hc]
  refine ⟨trim_eq_self (fun c hc => hspace c (List.mem_of_mem_head? hc))
    (fun c hc => hspace c (List.mem_of_mem_getLast? hc)), ?_⟩
  have hunits : ∀ c ∈ (toString n).toList, (if c.toNat < 0x10000 then 1 else 2) = 1 := by
    intro c hc
    have hdigit := hdigits c hc
    simp only [Char.isDigit, Bool.and_eq_true, decide_eq_true_eq] at hdigit
    have hle : c.toNat ≤ 57 := hdigit.2
    exact if_pos (by omega)
  have hlength : (toString n).toList.length ≤ 3 := by
    rw [Nat.toString_eq_repr, Nat.toList_repr]
    exact (Nat.length_toDigits_le_iff (by decide) (by decide)).mpr hlt
  rw [jsLength, List.map_congr_left hunits, List.map_const', List.sum_replicate_nat, Nat.mul_one]
  exact Nat.le_trans hlength hmaximum

theorem sixPagesRow_rowOf {n : Nat} (hpos : 1 ≤ n) (hlt : n < 1000) :
    RowOf 1900 (sixPagesRow n) where
  rowId := readText_toString hlt (by decide)
  rowId_ne := by simp [sixPagesRow]
  searchId := readText_empty 256
  searchId_eq := Or.inl rfl
  issue_eq := rfl
  issuePositive := by decide
  registration := readText_toString hlt (by decide)
  registration_ne := by simp [sixPagesRow]
  typeCode := by
    have hread : ReadText 128 "TMZCSQ" := readText_ofList (by decide) (by decide) (by decide)
    exact hread
  typeCode_ne := by simp [sixPagesRow]
  typeName := readText_empty 512
  pageNo := by
    intro m hm
    obtain rfl : n = m := by simpa [sixPagesRow] using hm
    exact ⟨isSafeInteger_mono (Nat.le_of_lt hlt) (by decide), hpos⟩
  pageCount := by simp [sixPagesRow]
  fileId := readText_empty 256
  assetPath := readText_empty 4096
  detailUrl := rfl

/-- The bodies of two pages differ in the number of the page. -/
theorem sixPagesBody_inj {i j : Nat} (hi : i < 10) (hj : j < 10) (h : sixPagesBody i = sixPagesBody j) :
    i = j := by
  have htext := String.toByteArray_inj.mp (ByteArray.ext (Array.toList_inj.mp h))
  have hchars := congrArg String.toList htext
  simp only [String.toList_append, List.append_cancel_left_eq, Nat.toString_eq_repr, Nat.toList_repr,
    Nat.toDigits_of_lt_base hi, Nat.toDigits_of_lt_base hj, List.singleton_append] at hchars
  have hdigits : ∀ a < 10, ∀ b < 10, Nat.digitChar a = Nat.digitChar b → a = b := by decide
  exact hdigits i hi j hj (List.cons.inj hchars).1

theorem mem_sixPagesNumbers {index n : Nat} (hindex : 1 ≤ index ∧ index ≤ 6)
    (hn : n ∈ sixPagesNumbers index) : 1 ≤ n ∧ n < 1000 := by
  have hmem := List.mem_range'_1.mp hn
  split at hmem <;> omega

theorem sixPages_built {index : Nat} (hindex : 1 ≤ index ∧ index ≤ 6) :
    buildCnipaGazetteBrowserSourcePageEvidence sixPagesEnv sixPagesSession (sixPage index) =
      .ok (sixPagesEvidence index) := by
  have hsession : SessionOf sixPagesEnv.platform sixPagesSession :=
    createSession_spec sixPagesSession_created (by decide) (by decide)
  have hrows : ∀ row ∈ sixPagesRows index, RowOf 1900 row := by
    intro row hrow
    obtain ⟨n, hn, rfl⟩ := List.mem_map.mp hrow
    obtain ⟨hpos, hlt⟩ := mem_sixPagesNumbers hindex hn
    exact sixPagesRow_rowOf hpos hlt
  have hlength : (sixPagesRows index).length = expectedRows 210 40 6 index := by
    rw [sixPagesRows, List.length_map, sixPagesNumbers, List.length_range', expectedRows]
    by_cases hlast : index = 6
    · rw [hlast]
      rfl
    · rw [if_neg hlast, if_neg (by decide), if_pos (by omega)]
  have hids : ((sixPagesRows index).map (·.sourceRowId)).Nodup := by
    rw [sixPagesRows, List.map_map]
    exact List.Nodup.map (fun _ _ h => toString_injective h) List.nodup_range'
  have hread := parseSourcePage_sourcePageJson hsession rfl
    readText_date hindex hrows hlength hids readText_shortInstant dateParses_shortInstant (by decide)
  have hfind : (List.range' 1 6).find? (fun other => decide (sixPagesBody other = sixPagesBody index)) =
      some index := by
    rw [List.find?_range'_eq_some]
    refine ⟨decide_eq_true rfl, List.mem_range'_1.mpr (by omega), ?_⟩
    intro other hle hlt
    have hne : sixPagesBody other ≠ sixPagesBody index := by
      intro hsame
      have hother := sixPagesBody_inj (by omega) (by omega) hsame
      omega
    simpa using hne
  have hparse : sixPagesEnv.parseJson (sixPagesBody index) =
      some (sourcePageJson sixPagesSession "2026-07-27" index (sixPagesRows index)) := by
    show Option.map _ ((List.range' 1 6).find? _) = _
    rw [hfind, Option.map_some]
  have hbody : sixPagesBody index ≠ [] := by
    intro hnil
    have hempty : ("\x7b\"code\":0,\"data\":\x7b\"pageIndex\":" : String) ++ _ = "" :=
      String.toByteArray_inj.mp (ByteArray.ext (Array.toList_inj.mp hnil))
    have hchars := congrArg String.toList hempty
    rw [String.toList_append] at hchars
    exact List.append_ne_nil_of_left_ne_nil (by decide) _ hchars
  simp only [buildCnipaGazetteBrowserSourcePageEvidence, bind_eq_ok, require_eq_ok, orThrow_eq_ok,
    pure_eq_ok]
  exact ⟨(), hbody, _, hparse, _, hread, rfl⟩

theorem sixPages_pagesOf : PagesOf sixPagesEnv sixPagesSession ((List.range' 1 6).map sixPage)
    ((List.range' 1 6).map sixPagesEvidence) where
  built := by
    rw [List.mapM_map]
    apply mapM_eq_map
    intro index hindex
    exact sixPages_built (by have hmem := List.mem_range'_1.mp hindex; omega)
  order := rfl
  ids := by
    have hnumbers : (List.range' 1 6).flatMap sixPagesNumbers = List.range' 1 210 := by decide +kernel
    have hrows : (((List.range' 1 6).map sixPagesEvidence).flatMap (·.page.rows)).map (·.sourceRowId) =
        (List.range' 1 210).map Nat.repr := by
      rw [← hnumbers, List.flatMap_map, List.map_flatMap, List.map_flatMap]
      congr 1
      funext index
      exact List.map_map
    rw [hrows]
    exact List.Nodup.map (fun _ _ h => toString_injective h) List.nodup_range'
  collision := by
    intro a _ b _ h
    have hcodes := Encodable.encode_injective h
    refine List.map_injective_iff.mpr ?_ hcodes
    intro x y hxy
    exact String.toList_inj.mp (List.map_injective_iff.mpr (fun _ _ h => Char.toNat_inj.mp h) hxy)

/-- 210 rows on source pages of 40, two logical pages to a checkpoint: the rows that a source page leaves
    over are carried to the next, and nothing is lost. -/
theorem repaging_loses_nothing_sixPages :
    ∃ config memory, createStream sixPagesEnv sixPagesSession (some 2) = .ok (config, memory) ∧
      PlanTiles config ∧ ∃ closed last, RepagedRun sixPagesEnv config memory ((List.range' 1 6).map sixPage)
        (((List.range' 1 6).map sixPagesEvidence).flatMap (·.page.rows)) closed last := by
  obtain ⟨config, memory, hcreate, hiff⟩ := repaging_loses_nothing_iff sixPagesEnv sixPagesSession_created
    (by decide) (by decide) (by decide : 1 ≤ (some 2).getD 25 ∧ (some 2).getD 25 ≤ 100) sixPages_pagesOf
  refine ⟨config, memory, hcreate, hiff.mpr ⟨by decide, ?_⟩⟩
  have hshort : ∀ given ∈ (List.range' 1 6).map sixPage, ShortInstant (trim given.observedAt) := by
    intro given hgiven
    obtain ⟨index, -, rfl⟩ := List.mem_map.mp hgiven
    rw [sixPage, readText_shortInstant.trimmed]
    exact shortInstant_short
  intro index input _ hinput _
  exact ⟨hshort input (List.mem_of_getElem? hinput),
    fun given hgiven => hshort given (List.mem_of_getElem? hgiven)⟩

end MarkorbitKnowledge.Gazette
