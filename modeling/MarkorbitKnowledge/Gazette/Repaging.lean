import MarkorbitKnowledge.Gazette.Rows

/-!
# Rows recut into logical pages

After the first source pages of a session the state is known: what it carries is the rows after the last
whole logical page.  `accept_spec` says that the next page is accepted and which logical pages it gives.
-/

namespace MarkorbitKnowledge.Gazette

open Contracts Fallible Tiling

/-- The rows of the first source pages. -/
def rowBound (session : CnipaGazetteBrowserStreamSession) (pages : Nat) : Nat :=
  min session.sourceTotal (pages * session.sourcePageSize)

/-- The rows of the first logical pages. -/
def logicalRowBound (session : CnipaGazetteBrowserStreamSession) (pages : Nat) : Nat :=
  min session.sourceTotal (pages * 100)

/-- The logical pages that are complete after the first source pages. -/
def logicalDone (session : CnipaGazetteBrowserStreamSession) (pages : Nat) : Nat :=
  if pages < session.sourcePages then pages * session.sourcePageSize / 100
  else logicalPageCount session.sourceTotal

/-- A logical page of the rows of a session. -/
structure LogicalPageOf (session : CnipaGazetteBrowserStreamSession)
    (rows : List CnipaGazetteRuntimeRow) (index : Nat) (page : CnipaGazetteBrowserLogicalPage) : Prop where
  index_eq : page.pageIndex = index
  size : page.pageSize = CNIPA_GAZETTE_PAGE_SIZE
  total : page.sourceTotal = session.sourceTotal
  pages : page.sourcePages = logicalPageCount session.sourceTotal
  date : page.announcementDate = session.announcementDate
  rows_eq : page.rows = slice rows (logicalRowBound session (index - 1)) (logicalRowBound session index)
  sources : page.sourcePageIndices ≠ [] ∧
    ∀ source ∈ page.sourcePageIndices, 1 ≤ source ∧ source ≤ session.sourcePages

/-- The state after the first source pages. -/
structure StateAfter (env : Env) (session : CnipaGazetteBrowserStreamSession)
    (rows : List CnipaGazetteRuntimeRow) (pages : Nat) (state : CnipaGazetteBrowserStreamState) : Prop where
  sessionId : state.sessionId = session.sessionId
  fingerprint : state.sessionFingerprintSha256 = env.hashes.ofSession session
  next : state.nextSourcePageIndex = pages + 1
  logical : state.nextLogicalPageIndex = logicalDone session pages + 1
  seen : state.rowsSeen = rowBound session pages
  tail : state.tailRows =
    slice rows (logicalRowBound session (logicalDone session pages)) (rowBound session pages)
  sources : state.tailSourcePageIndices.length = state.tailRows.length ∧
    ∀ source ∈ state.tailSourcePageIndices, 1 ≤ source ∧ source ≤ pages
  previous : state.previousSourceRowIds =
    (slice rows (rowBound session (pages - 1)) (rowBound session pages)).map (·.sourceRowId)
  signature : state.previousSourcePageSignatureSha256 =
    if pages = 0 then none else some (env.hashes.ofIds state.previousSourceRowIds)
  completed : state.completed = decide (pages = session.sourcePages)

/-! ### Counting rows -/

section Counts

variable {platform : Platform} {session : CnipaGazetteBrowserStreamSession} {pages : Nat}

theorem SessionOf.lt_pages_iff (h : SessionOf platform session) :
    pages < session.sourcePages ↔ pages * session.sourcePageSize < session.sourceTotal := by
  rw [h.pages, lt_ceilDiv_iff h.sizeBounds.1]

theorem SessionOf.pages_pos (h : SessionOf platform session) : 0 < session.sourcePages := by
  rw [h.pages]
  exact ceilDiv_pos h.totalPos h.sizeBounds.1

theorem SessionOf.logicalPageCount_eq (h : SessionOf platform session) :
    logicalPageCount session.sourceTotal = ceilDiv session.sourceTotal 100 :=
  Nat.max_eq_right (ceilDiv_pos h.totalPos (by decide))

/-- The number of logical pages, by whether the last one is full. -/
theorem ceilDiv_hundred (n : Nat) :
    ceilDiv n 100 = if n % 100 = 0 then n / 100 else n / 100 + 1 := by
  unfold ceilDiv
  split <;> omega

theorem SessionOf.rowBound_of_lt (h : SessionOf platform session) (hlt : pages < session.sourcePages) :
    rowBound session pages = pages * session.sourcePageSize :=
  Nat.min_eq_right (Nat.le_of_lt (h.lt_pages_iff.mp hlt))

theorem SessionOf.rowBound_of_ge (h : SessionOf platform session) (hge : session.sourcePages ≤ pages) :
    rowBound session pages = session.sourceTotal :=
  Nat.min_eq_left (Nat.not_lt.mp (mt h.lt_pages_iff.mpr (Nat.not_lt.mpr hge)))

theorem rowBound_mono (session : CnipaGazetteBrowserStreamSession) : Monotone (rowBound session) := by
  intro a b hle
  have hmul : a * session.sourcePageSize ≤ b * session.sourcePageSize := Nat.mul_le_mul_right _ hle
  simp only [rowBound]
  omega

theorem logicalRowBound_mono (session : CnipaGazetteBrowserStreamSession) :
    Monotone (logicalRowBound session) := by
  intro a b hle
  simp only [logicalRowBound]
  omega

/-- The logical pages that are complete have their rows. -/
theorem SessionOf.logicalRowBound_done (h : SessionOf platform session) (pages : Nat) :
    logicalRowBound session (logicalDone session pages) =
      if pages < session.sourcePages then rowBound session pages / 100 * 100 else session.sourceTotal := by
  unfold logicalDone logicalRowBound
  split
  · rename_i hlt
    have hrows := h.lt_pages_iff.mp hlt
    rw [h.rowBound_of_lt hlt]
    omega
  · have hall : session.sourceTotal ≤ logicalPageCount session.sourceTotal * 100 := by
      rw [h.logicalPageCount_eq, ← ceilDiv_le_iff (by decide)]
    exact Nat.min_eq_left hall

theorem SessionOf.logicalRowBound_le (h : SessionOf platform session) (pages : Nat) :
    logicalRowBound session (logicalDone session pages) ≤ rowBound session pages := by
  rw [h.logicalRowBound_done]
  split
  · exact Nat.div_mul_le_self _ _
  · rename_i hge
    rw [h.rowBound_of_ge (Nat.not_lt.mp hge)]

theorem logicalDone_of_ge (hge : session.sourcePages ≤ pages) :
    logicalDone session pages = logicalPageCount session.sourceTotal :=
  if_neg (Nat.not_lt.mpr hge)

theorem SessionOf.logicalDone_mono (h : SessionOf platform session) : Monotone (logicalDone session) := by
  intro a b hle
  unfold logicalDone
  split
  · rename_i ha
    have hrows := h.lt_pages_iff.mp ha
    split
    · exact Nat.div_le_div_right (Nat.mul_le_mul_right _ hle)
    · rw [h.logicalPageCount_eq, ceilDiv_hundred]
      split <;> omega
  · rename_i ha
    rw [if_neg (by omega)]

/-- The rows a source page has. -/
theorem SessionOf.expectedRows_eq (h : SessionOf platform session) (hpages : pages < session.sourcePages) :
    expectedRows session.sourceTotal session.sourcePageSize session.sourcePages (pages + 1) =
      rowBound session (pages + 1) - rowBound session pages := by
  have hrows := h.lt_pages_iff.mp hpages
  have hne : session.sourceTotal ≠ 0 := Nat.one_le_iff_ne_zero.mp h.totalPos
  rw [expectedRows, if_neg hne, h.rowBound_of_lt hpages]
  by_cases hnext : pages + 1 < session.sourcePages
  · rw [if_pos hnext, h.rowBound_of_lt hnext, Nat.succ_mul]
    omega
  · rw [if_neg hnext, h.rowBound_of_ge (Nat.not_lt.mp hnext)]
    -- the last page: more than `pages` pages of rows, and at most one page more
    have hle : session.sourceTotal ≤ pages * session.sourcePageSize + session.sourcePageSize := by
      rw [← Nat.succ_mul]
      exact Nat.not_lt.mp (mt h.lt_pages_iff.mpr hnext)
    obtain ⟨rest, hrest⟩ := Nat.exists_eq_add_of_lt hrows
    have htotal : session.sourceTotal = pages * session.sourcePageSize + (rest + 1) := by omega
    rw [htotal, Nat.add_sub_cancel_left, Nat.mul_comm, Nat.mul_add_mod]
    by_cases hfull : rest + 1 = session.sourcePageSize
    · rw [hfull, Nat.mod_self, if_pos rfl]
    · have hlt : rest + 1 < session.sourcePageSize := by omega
      rw [Nat.mod_eq_of_lt hlt, if_neg (Nat.succ_ne_zero rest)]

end Counts

/-! ### Reading a state back -/

section States

variable {env : Env} {session : CnipaGazetteBrowserStreamSession} {rows : List CnipaGazetteRuntimeRow}
  {pages : Nat} {state : CnipaGazetteBrowserStreamState}

theorem stateAfter_initial (h : SessionOf env.platform session) :
    StateAfter env session rows 0 (createCnipaGazetteBrowserStreamState env.hashes session) where
  sessionId := rfl
  fingerprint := rfl
  next := rfl
  logical := by simp [createCnipaGazetteBrowserStreamState, logicalDone, h.pages_pos]
  seen := by simp [createCnipaGazetteBrowserStreamState, rowBound]
  tail := by simp [createCnipaGazetteBrowserStreamState, rowBound, slice]
  sources := by simp [createCnipaGazetteBrowserStreamState]
  previous := by simp [createCnipaGazetteBrowserStreamState, rowBound, slice]
  signature := rfl
  completed := by
    have hpos := h.pages_pos
    simp [createCnipaGazetteBrowserStreamState, hpos.ne]

/-- The rows and their number, as the accepted pages have them. -/
structure RowsOf (session : CnipaGazetteBrowserStreamSession) (rows : List CnipaGazetteRuntimeRow)
    (pages : Nat) : Prop where
  length : rowBound session pages ≤ rows.length
  row : ∀ row ∈ rows, RowOf session.announcementIssue row

theorem mem_slice {α : Type} {l : List α} {a b : Nat} {x : α} (h : x ∈ slice l a b) : x ∈ l :=
  List.mem_of_mem_drop (List.mem_of_mem_take h)

theorem isSafeInteger_mono {m n : Nat} (hle : m ≤ n) (h : isSafeInteger n = true) :
    isSafeInteger m = true := by
  simp only [isSafeInteger, decide_eq_true_eq] at h ⊢
  omega

theorem isSafeInteger_succ_hundred {n : Nat} (h : n ≤ 100) : isSafeInteger n = true := by
  simp only [isSafeInteger, decide_eq_true_eq]
  omega

theorem SessionOf.tail_length (h : SessionOf env.platform session) (hrows : RowsOf session rows pages)
    (hstate : StateAfter env session rows pages state) :
    state.tailRows.length =
      if pages < session.sourcePages then rowBound session pages % 100 else 0 := by
  rw [hstate.tail, length_slice hrows.length, h.logicalRowBound_done]
  split
  · omega
  · rename_i hge
    rw [h.rowBound_of_ge (Nat.not_lt.mp hge), Nat.sub_self]

theorem StateAfter.previous_length (hstate : StateAfter env session rows pages state)
    (hrows : RowsOf session rows pages) : state.previousSourceRowIds.length =
      rowBound session pages - rowBound session (pages - 1) := by
  rw [hstate.previous, List.length_map, length_slice hrows.length]

/-- The state after some pages is what its reader makes of it. -/
theorem parse_stateAfter (h : SessionOf env.platform session) (hrows : RowsOf session rows pages)
    (hpages : pages ≤ session.sourcePages) (hsafe : isSafeInteger (pages + 1) = true)
    (hstate : StateAfter env session rows pages state) :
    parseCnipaGazetteBrowserStreamState env.hashes state session = .ok state := by
  have htailRow : ∀ row ∈ state.tailRows, RowOf session.announcementIssue row := by
    intro row hrow
    rw [hstate.tail] at hrow
    exact hrows.row row (mem_slice hrow)
  have htail : state.tailRows.zipIdx.mapM (fun x => normalizePersistedRuntimeRow x.1 session
      ("state.tailRows[" ++ toString x.2 ++ "]")) = .ok state.tailRows :=
    mapM_zipIdx_eq fun row hrow _ => normalizePersistedRuntimeRow_eq (htailRow row hrow)
  have hsource : ∀ source ∈ state.tailSourcePageIndices,
      1 ≤ source ∧ source ≤ pages := hstate.sources.2
  have hsources : state.tailSourcePageIndices.zipIdx.mapM (fun x => integer (some (.number x.1))
      ("state.tailSourcePageIndices[" ++ toString x.2 ++ "]") 1) = .ok state.tailSourcePageIndices := by
    refine mapM_zipIdx_eq fun source hmem _ => integer_number ?_ (hsource source hmem).1
    exact isSafeInteger_mono (Nat.le_trans (hsource source hmem).2 hpages) h.pagesSafe
  have hprevious : state.previousSourceRowIds.zipIdx.mapM (fun x => requiredText (some (.text x.1))
      ("state.previousSourceRowIds[" ++ toString x.2 ++ "]") 256) = .ok state.previousSourceRowIds := by
    refine mapM_zipIdx_eq fun id hmem _ => ?_
    rw [hstate.previous, List.mem_map] at hmem
    obtain ⟨row, hrow, rfl⟩ := hmem
    have hrowOf := hrows.row row (mem_slice hrow)
    exact requiredText_text hrowOf.rowId hrowOf.rowId_ne
  have hbound : rowBound session pages ≤ session.sourceTotal := Nat.min_le_left _ _
  have hlogical : logicalDone session pages ≤ logicalPageCount session.sourceTotal := by
    have hmono := h.logicalDone_mono hpages
    unfold logicalDone at hmono ⊢
    rw [if_neg (Nat.lt_irrefl _)] at hmono
    exact hmono
  have hlogicalSafe : isSafeInteger (logicalPageCount session.sourceTotal + 1) = true := by
    refine isSafeInteger_mono (n := max 101 session.sourceTotal) ?_ ?_
    · rw [h.logicalPageCount_eq, ceilDiv_hundred]
      split <;> omega
    · rcases Nat.le_total session.sourceTotal 101 with hle | hle
      · rw [Nat.max_eq_left hle]
        decide
      · rw [Nat.max_eq_right hle]
        exact h.totalSafe
  have htailLength := h.tail_length hrows hstate
  have hpreviousLength := hstate.previous_length hrows
  have htailShort : state.tailRows.length < CNIPA_GAZETTE_PAGE_SIZE := by
    rw [htailLength, CNIPA_GAZETTE_PAGE_SIZE]
    split <;> omega
  have hprogress : StateProgress session state :=
    { sourcePages := by rw [hstate.next]; omega
      logicalPages := by rw [hstate.logical]; omega
      rows := by rw [hstate.seen]; exact hbound
      tail := by
        intro source hmem
        rw [hstate.next]
        exact Nat.lt_succ_of_le (hsource source hmem).2 }
  have hpageRows : rowBound session pages - rowBound session (pages - 1) ≤ session.sourcePageSize := by
    have hstep : pages * session.sourcePageSize ≤
        (pages - 1) * session.sourcePageSize + session.sourcePageSize := by
      rw [← Nat.succ_mul]
      exact Nat.mul_le_mul_right _ (by omega)
    simp only [rowBound]
    omega
  simp only [parseCnipaGazetteBrowserStreamState, htail, hsources, hprevious, ok_bind, bind_eq_ok,
    require_eq_ok]
  refine ⟨(), hstate.sessionId, (), hstate.fingerprint, (), htailShort, (), ⟨hstate.sources.1, ?_⟩, (),
    by rw [hpreviousLength]; exact hpageRows, ?_⟩
  · intro source hmem
    exact Nat.le_trans (hsource source hmem).2 hpages
  · refine ⟨state.nextSourcePageIndex, ?_, state.nextLogicalPageIndex, ?_, state.rowsSeen, ?_, (),
      hprogress, ?_⟩
    · rw [hstate.next]
      exact integer_number hsafe (by omega)
    · rw [hstate.logical]
      exact integer_number (isSafeInteger_mono (by omega) hlogicalSafe) (by omega)
    · rw [hstate.seen]
      exact integer_number (isSafeInteger_mono hbound h.totalSafe) (Nat.zero_le _)
    · have hsize := h.sizeBounds
      have hlast : rowBound session session.sourcePages = session.sourceTotal :=
        h.rowBound_of_ge (Nat.le_refl _)
      refine ⟨(), fun hcompleted => ?_, (), fun hincomplete => ?_, rfl⟩
      · rw [hstate.completed, decide_eq_true_eq] at hcompleted
        subst hcompleted
        have hdone : logicalDone session session.sourcePages =
            logicalPageCount session.sourceTotal := if_neg (Nat.lt_irrefl _)
        have htailNil : state.tailRows = [] := by
          rw [← List.length_eq_zero_iff, htailLength, if_neg (Nat.lt_irrefl _)]
        have hpos := h.pages_pos
        have hexpected := h.expectedRows_eq (Nat.sub_one_lt hpos.ne')
        rw [Nat.sub_add_cancel hpos] at hexpected
        exact
          { sourcePages := hstate.next
            logicalPages := by rw [hstate.logical, hdone]
            rows := by rw [hstate.seen, hlast]
            tailRows := htailNil
            tailIndices := by
              rw [← List.length_eq_zero_iff, hstate.sources.1, htailNil]
              rfl
            previousIds := by rw [hpreviousLength, hexpected]
            signature := by
              rw [hstate.signature, if_neg hpos.ne']
              simp }
      · rw [hstate.completed, decide_eq_false_iff_not] at hincomplete
        have hlt : pages < session.sourcePages := Nat.lt_of_le_of_ne hpages hincomplete
        have hrowBound := h.rowBound_of_lt hlt
        exact
          { sourcePages := by rw [hstate.next]; exact hlt
            rows := by rw [hstate.seen, hstate.next, Nat.add_sub_cancel, hrowBound]
            tailRows := by rw [htailLength, if_pos hlt, hstate.seen, CNIPA_GAZETTE_PAGE_SIZE]
            logicalPages := by
              rw [hstate.logical, hstate.seen, logicalDone, if_pos hlt, hrowBound,
                CNIPA_GAZETTE_PAGE_SIZE]
            previousIds := by
              rw [hpreviousLength, hstate.next, hrowBound]
              by_cases hzero : pages = 0
              · simp [hzero]
              · have hbefore := h.rowBound_of_lt (Nat.lt_of_le_of_lt (Nat.sub_le pages 1) hlt)
                obtain ⟨before, rfl⟩ := Nat.exists_eq_succ_of_ne_zero hzero
                rw [Nat.succ_sub_one] at hbefore ⊢
                rw [hbefore, Nat.succ_mul, Nat.add_sub_cancel_left, if_neg (by omega)]
            signature := by
              rw [hstate.signature, hstate.next]
              by_cases hzero : pages = 0 <;> simp [hzero] }

end States

/-! ### Cutting logical pages -/

section Cuts

variable {rows : List CnipaGazetteRuntimeRow}
  {make : Nat → List CnipaGazetteRuntimeRow → List Nat → CnipaGazetteBrowserLogicalPage}

theorem sortedSet_ne_nil {values : List Nat} (h : values ≠ []) : sortedSet values ≠ [] := by
  intro hnil
  have hperm := List.perm_insertionSort (· ≤ ·) values.dedup
  rw [sortedSet] at hnil
  rw [hnil, List.nil_perm] at hperm
  obtain ⟨value, hvalue⟩ := List.exists_mem_of_ne_nil values h
  rw [← List.mem_dedup, hperm] at hvalue
  cases hvalue

theorem mem_sortedSet {values : List Nat} {value : Nat} : value ∈ sortedSet values ↔ value ∈ values := by
  rw [sortedSet, (List.perm_insertionSort _ _).mem_iff, List.mem_dedup]

/-- A logical page made of the rows between two positions, from some of the source pages. -/
def MadeOf (make : Nat → List CnipaGazetteRuntimeRow → List Nat → CnipaGazetteBrowserLogicalPage)
    (rows : List CnipaGazetteRuntimeRow) (sources : List Nat) (last index : Nat)
    (page : CnipaGazetteBrowserLogicalPage) : Prop :=
  ∃ indices, page = make index (slice rows ((index - 1) * 100) (min last (index * 100)))
      (sortedSet indices) ∧ indices ≠ [] ∧ ∀ source ∈ indices, source ∈ sources

/-- What the loop carries: the rows from a logical page boundary on, with their source pages. -/
structure CarriedFrom (rows : List CnipaGazetteRuntimeRow) (done last : Nat) (carried : Carried) : Prop where
  next : carried.nextLogicalPageIndex = done + 1
  within : done * 100 ≤ last ∧ last ≤ rows.length
  rows_eq : carried.rows = slice rows (done * 100) last
  sources : carried.sourcePageIndices.length = carried.rows.length

theorem CarriedFrom.length {done last : Nat} {carried : Carried} (h : CarriedFrom rows done last carried) :
    carried.rows.length = last - done * 100 := by
  rw [h.rows_eq, length_slice h.within.2]

theorem CarriedFrom.splice {done last : Nat} {carried : Carried} (h : CarriedFrom rows done last carried)
    (hfull : CNIPA_GAZETTE_PAGE_SIZE ≤ carried.rows.length) :
    CarriedFrom rows (done + 1) last carried.splice := by
  have hlength := h.length
  have hle := h.within.1
  have hsize : (done + 1) * 100 - done * 100 = CNIPA_GAZETTE_PAGE_SIZE := by
    rw [Nat.succ_mul, Nat.add_sub_cancel_left, CNIPA_GAZETTE_PAGE_SIZE]
  rw [CNIPA_GAZETTE_PAGE_SIZE] at hfull
  refine ⟨by rw [Carried.splice, h.next], ⟨by omega, h.within.2⟩, ?_, ?_⟩
  · have hdrop := drop_slice (l := rows) (a := done * 100) (b := (done + 1) * 100) (c := last) (by omega)
    rw [hsize] at hdrop
    rw [Carried.splice, h.rows_eq, hdrop]
  · rw [Carried.splice, List.length_drop, List.length_drop, h.sources]

/-- The page that is cut off. -/
theorem CarriedFrom.made {done last : Nat} {carried : Carried} (h : CarriedFrom rows done last carried)
    (hfull : CNIPA_GAZETTE_PAGE_SIZE ≤ carried.rows.length) :
    MadeOf make rows carried.sourcePageIndices last (done + 1)
      (make carried.nextLogicalPageIndex (carried.rows.take CNIPA_GAZETTE_PAGE_SIZE)
        (sortedSet (carried.sourcePageIndices.take CNIPA_GAZETTE_PAGE_SIZE))) := by
  have hlength := h.length
  have hle := h.within.1
  have hsize : (done + 1) * 100 - done * 100 = CNIPA_GAZETTE_PAGE_SIZE := by
    rw [Nat.succ_mul, Nat.add_sub_cancel_left, CNIPA_GAZETTE_PAGE_SIZE]
  rw [CNIPA_GAZETTE_PAGE_SIZE] at hfull
  refine ⟨carried.sourcePageIndices.take CNIPA_GAZETTE_PAGE_SIZE, ?_, ?_, fun _ => List.mem_of_mem_take⟩
  · have htake := take_slice (l := rows) (a := done * 100) (b := (done + 1) * 100) (c := last)
      (by omega) (by omega)
    rw [hsize] at htake
    rw [h.next, h.rows_eq, htake, Nat.add_sub_cancel, Nat.min_eq_right (by omega)]
  · intro hnil
    have hzero := congrArg List.length hnil
    rw [List.length_take, h.sources, CNIPA_GAZETTE_PAGE_SIZE, List.length_nil] at hzero
    omega

/-- What the loop gives: whole logical pages, and the rest. -/
structure CutOf (make : Nat → List CnipaGazetteRuntimeRow → List Nat → CnipaGazetteBrowserLogicalPage)
    (rows : List CnipaGazetteRuntimeRow) (sources : List Nat) (done last : Nat)
    (cut : List CnipaGazetteBrowserLogicalPage × Carried) : Prop where
  count : cut.1.length = last / 100 - done
  pages : Numbered (MadeOf make rows sources last) (done + 1) cut.1
  rest : CarriedFrom rows (last / 100) last cut.2
  sources_sub : ∀ source ∈ cut.2.sourcePageIndices, source ∈ sources

theorem cutOf_short {done last : Nat} {carried : Carried} (h : CarriedFrom rows done last carried)
    (hshort : carried.rows.length < 100) :
    CutOf make rows carried.sourcePageIndices done last ([], carried) := by
  have hlength := h.length
  have hle := h.within.1
  have hdone : last / 100 = done := by omega
  refine ⟨?_, trivial, hdone.symm ▸ h, fun _ hmem => hmem⟩
  rw [hdone, Nat.sub_self]
  rfl

/-- The loop cuts whole logical pages and carries the rest. -/
theorem cutLogicalPages_spec {last : Nat} {fuel : Nat} : ∀ {done : Nat} {carried : Carried},
    CarriedFrom rows done last carried → carried.rows.length ≤ fuel →
    CutOf make rows carried.sourcePageIndices done last (cutLogicalPages make fuel carried) := by
  induction fuel with
  | zero =>
    intro done carried hcarried hfuel
    exact cutOf_short hcarried (by omega)
  | succ fuel ih =>
    intro done carried hcarried hfuel
    unfold cutLogicalPages
    split
    · rename_i hfull
      have hrest := ih (hcarried.splice hfull) (by
        rw [Carried.splice, List.length_drop, CNIPA_GAZETTE_PAGE_SIZE]
        omega)
      have hsub : ∀ source ∈ carried.splice.sourcePageIndices, source ∈ carried.sourcePageIndices :=
        fun _ => List.mem_of_mem_drop
      have hlength := hcarried.length
      rw [CNIPA_GAZETTE_PAGE_SIZE] at hfull
      refine ⟨?_, ⟨hcarried.made hfull, hrest.pages.mono ?_⟩, hrest.rest,
        fun source hmem => hsub source (hrest.sources_sub source hmem)⟩
      · rw [List.length_cons, hrest.count]
        omega
      · rintro index page ⟨indices, hpage, hne, hmem⟩
        exact ⟨indices, hpage, hne, fun source hsource => hsub source (hmem source hsource)⟩
    · rename_i hshort
      exact cutOf_short hcarried (Nat.not_le.mp hshort)

end Cuts

/-! ### Accepting a page -/

section Accept

variable {env : Env} {session : CnipaGazetteBrowserStreamSession} {rows : List CnipaGazetteRuntimeRow}
  {pages : Nat} {state : CnipaGazetteBrowserStreamState} {page : CnipaGazetteBrowserSourcePage}

/-- The rows of one page are not those of the page before. -/
theorem ids_disjoint {a b c : Nat} (hab : a ≤ b) (hbc : b ≤ c)
    (hids : (rows.map (·.sourceRowId)).Nodup) :
    ∀ row ∈ slice rows b c, row.sourceRowId ∉ (slice rows a b).map (·.sourceRowId) := by
  have hsub : (slice rows a c).Sublist rows := (List.take_sublist _ _).trans (List.drop_sublist _ _)
  have hnodup := hids.sublist (hsub.map (·.sourceRowId))
  rw [← slice_append_slice hab hbc, List.map_append, List.nodup_append] at hnodup
  intro row hrow hmem
  exact hnodup.2.2 _ hmem _ (List.mem_map_of_mem hrow) rfl

/-- Pages cut from the rows of a session are logical pages of it. -/
theorem logicalPageOf_made (page : CnipaGazetteBrowserSourcePage) {sources : List Nat} {last index : Nat} {made : CnipaGazetteBrowserLogicalPage}
    (hlast : last ≤ session.sourceTotal) (hindex : (index - 1) * 100 < last)
    (hend : index * 100 ≤ last ∨ last = session.sourceTotal)
    (hsources : ∀ source ∈ sources, 1 ≤ source ∧ source ≤ session.sourcePages)
    (h : MadeOf (makeLogicalPage session page) rows sources last index made) :
    LogicalPageOf session rows index made := by
  obtain ⟨indices, rfl, hne, hmem⟩ := h
  have hfirst : logicalRowBound session (index - 1) = (index - 1) * 100 :=
    Nat.min_eq_right (by omega)
  have hbound : logicalRowBound session index = min last (index * 100) := by
    unfold logicalRowBound
    rcases hend with hend | hend
    · rw [Nat.min_eq_right hend, Nat.min_eq_right (Nat.le_trans hend hlast)]
    · rw [hend]
  exact
    { index_eq := rfl
      size := rfl
      total := rfl
      pages := rfl
      date := rfl
      rows_eq := by rw [hfirst, hbound]; rfl
      sources := ⟨sortedSet_ne_nil hne,
        fun source hsource => hsources source (hmem source (mem_sortedSet.mp hsource))⟩ }

/-- What is left after the logical pages of a source page are cut. -/
structure LeftAfter (session : CnipaGazetteBrowserStreamSession) (rows : List CnipaGazetteRuntimeRow)
    (sources : List Nat) (pages : Nat) (left : Carried) : Prop where
  next : left.nextLogicalPageIndex = logicalDone session pages + 1
  rows_eq : left.rows =
    slice rows (logicalRowBound session (logicalDone session pages)) (rowBound session pages)
  sources_length : left.sourcePageIndices.length = left.rows.length
  sources_sub : ∀ source ∈ left.sourcePageIndices, source ∈ sources

/-- The logical pages of a source page: those cut by the loop, and after the last source page the
    rest. -/
theorem cutAll_spec (page : CnipaGazetteBrowserSourcePage) (h : SessionOf env.platform session)
    (hlt : pages < session.sourcePages) {carried : Carried}
    (hcarried : CarriedFrom rows (logicalDone session pages) (rowBound session (pages + 1)) carried)
    (hsources : ∀ source ∈ carried.sourcePageIndices, 1 ≤ source ∧ source ≤ session.sourcePages) :
    let cut := cutLogicalPages (makeLogicalPage session page) carried.rows.length carried
    let last := cutLastPage (makeLogicalPage session page) (decide (pages + 1 = session.sourcePages))
      session.sourceTotal cut.2
    LeftAfter session rows carried.sourcePageIndices (pages + 1) last.2 ∧
      (cut.1 ++ last.1).length = logicalDone session (pages + 1) - logicalDone session pages ∧
      Numbered (LogicalPageOf session rows) (logicalDone session pages + 1) (cut.1 ++ last.1) := by
  intro cut last
  have hcut : CutOf (makeLogicalPage session page) rows carried.sourcePageIndices
      (logicalDone session pages) (rowBound session (pages + 1)) cut :=
    cutLogicalPages_spec hcarried (Nat.le_refl _)
  have htotal : rowBound session (pages + 1) ≤ session.sourceTotal := Nat.min_le_left _ _
  have hpages : Numbered (LogicalPageOf session rows) (logicalDone session pages + 1) cut.1 := by
    refine hcut.pages.imp fun index made hfirst hend hmade => ?_
    rw [hcut.count] at hend
    exact logicalPageOf_made page htotal (by omega) (Or.inl (by omega)) hsources hmade
  have hrestLength := hcut.rest.length
  by_cases hnext : pages + 1 < session.sourcePages
  · have hlast : last = ([], cut.2) := by
      simp only [last, cutLastPage, decide_eq_true_eq, hnext.ne, false_and, if_false]
    have hdone : logicalDone session (pages + 1) = rowBound session (pages + 1) / 100 := by
      rw [logicalDone, if_pos hnext, h.rowBound_of_lt hnext]
    rw [hlast]
    refine ⟨⟨by rw [hdone]; exact hcut.rest.next, ?_, hcut.rest.sources, hcut.sources_sub⟩, ?_, ?_⟩
    · rw [h.logicalRowBound_done, if_pos hnext]
      exact hcut.rest.rows_eq
    · rw [List.append_nil, hcut.count, hdone]
    · rw [List.append_nil]
      exact hpages
  · have hfinal : pages + 1 = session.sourcePages := Nat.le_antisymm hlt (Nat.not_lt.mp hnext)
    have hall : rowBound session (pages + 1) = session.sourceTotal :=
      h.rowBound_of_ge (Nat.le_of_eq hfinal.symm)
    have hdone : logicalDone session (pages + 1) = logicalPageCount session.sourceTotal :=
      if_neg hnext
    have hcount := h.logicalPageCount_eq
    rw [ceilDiv_hundred] at hcount
    have hempty : slice rows (logicalRowBound session (logicalDone session (pages + 1)))
        (rowBound session (pages + 1)) = [] := by
      rw [h.logicalRowBound_done, if_neg hnext, hall, slice_self]
    have hzero : session.sourceTotal ≠ 0 := Nat.one_le_iff_ne_zero.mp h.totalPos
    rw [hall] at hcut hrestLength
    by_cases hfull : session.sourceTotal % 100 = 0
    · -- the last logical page is full: the loop has cut it
      rw [if_pos hfull] at hcount
      have hnil : cut.2.rows = [] := List.length_eq_zero_iff.mp (by omega)
      have hlast : last = ([], cut.2) := by
        simp only [last, cutLastPage, hnil, ne_eq, not_true_eq_false, hzero, or_false, and_false,
          if_false]
      rw [hlast]
      refine ⟨⟨?_, by rw [hempty]; exact hnil, hcut.rest.sources, hcut.sources_sub⟩, ?_, ?_⟩
      · rw [hdone, hcount]
        exact hcut.rest.next
      · rw [List.append_nil, hcut.count, hdone, hcount]
      · rw [List.append_nil]
        exact hpages
    · rw [if_neg hfull] at hcount
      have hne : cut.2.rows ≠ [] := by
        intro hnil
        rw [hnil, List.length_nil] at hrestLength
        omega
      have hlast : last = ([makeLogicalPage session page cut.2.nextLogicalPageIndex cut.2.rows
          (sortedSet cut.2.sourcePageIndices)], ⟨cut.2.nextLogicalPageIndex + 1, [], []⟩) := by
        simp only [last, cutLastPage, hfinal, decide_true, ne_eq, hne, not_false_eq_true, true_or,
          and_self, if_true]
      have hdoneLe : logicalDone session pages ≤ session.sourceTotal / 100 := by
        have hwithin := hcarried.within.1
        rw [hall] at hwithin
        omega
      rw [hlast]
      refine ⟨⟨?_, by rw [hempty], rfl, by simp⟩, ?_, ?_⟩
      · show cut.2.nextLogicalPageIndex + 1 = _
        rw [hdone, hcount, hcut.rest.next]
      · rw [List.length_append, hcut.count, hdone, hcount, List.length_singleton]
        omega
      · rw [numbered_append]
        refine ⟨hpages, ?_, trivial⟩
        have hindex : logicalDone session pages + 1 + cut.1.length = session.sourceTotal / 100 + 1 := by
          rw [hcut.count]
          omega
        rw [hindex]
        refine logicalPageOf_made page (Nat.le_refl session.sourceTotal) (by omega) (Or.inr rfl) hsources
          ⟨cut.2.sourcePageIndices, ?_, ?_, hcut.sources_sub⟩
        · rw [hcut.rest.next, hcut.rest.rows_eq, Nat.add_sub_cancel, Nat.min_eq_left (by omega)]
        · intro hnil
          have hlengths := hcut.rest.sources
          rw [hnil, List.length_nil] at hlengths
          exact hne (List.length_eq_zero_iff.mp hlengths.symm)

/-- The next source page is accepted: the state after it, and the logical pages it completes. -/
theorem accept_spec (h : SessionOf env.platform session) (hrows : RowsOf session rows (pages + 1))
    (hids : (rows.map (·.sourceRowId)).Nodup) (hlt : pages < session.sourcePages)
    (hstate : StateAfter env session rows pages state) (hpage : PageOf env session (pages + 1) page)
    (hslice : page.rows = slice rows (rowBound session pages) (rowBound session (pages + 1)))
    (hfresh : state.previousSourcePageSignatureSha256 ≠ some page.pageSignatureSha256) :
    ∃ state' logical,
      acceptCnipaGazetteBrowserSourcePage env.hashes session state page = .ok (state', logical) ∧
        StateAfter env session rows (pages + 1) state' ∧
        logical.length = logicalDone session (pages + 1) - logicalDone session pages ∧
        Numbered (LogicalPageOf session rows) (logicalDone session pages + 1) logical := by
  have hmono := rowBound_mono session
  have hbefore : rowBound session pages ≤ rowBound session (pages + 1) := hmono (Nat.le_succ pages)
  have hrowsBefore : RowsOf session rows pages := ⟨Nat.le_trans hbefore hrows.length, hrows.row⟩
  have hparse := parse_stateAfter h hrowsBefore (Nat.le_of_lt hlt)
    (isSafeInteger_mono hlt h.pagesSafe) hstate
  have hincomplete : state.completed = false := by
    rw [hstate.completed]
    exact decide_eq_false hlt.ne
  have hpageRows : page.rows.length = rowBound session (pages + 1) - rowBound session pages := by
    rw [hslice, length_slice hrows.length]
  have hoverlap : page.rows.find? (fun row => decide (row.sourceRowId ∈ state.previousSourceRowIds)) =
      none := by
    rw [List.find?_eq_none]
    intro row hrow
    rw [decide_eq_true_eq, hstate.previous]
    rw [hslice] at hrow
    exact ids_disjoint (hmono (Nat.sub_le pages 1)) hbefore hids row hrow
  -- what is carried, with the rows of the page
  have hdoneRows : logicalRowBound session (logicalDone session pages) =
      logicalDone session pages * 100 := by
    rw [h.logicalRowBound_done, if_pos hlt, logicalDone, if_pos hlt, h.rowBound_of_lt hlt]
  have hdoneLe := h.logicalRowBound_le pages
  rw [hdoneRows] at hdoneLe
  let carried : Carried :=
    { nextLogicalPageIndex := state.nextLogicalPageIndex, rows := state.tailRows ++ page.rows
      sourcePageIndices := state.tailSourcePageIndices ++ page.rows.map fun _ => pages + 1 }
  have hcarried : CarriedFrom rows (logicalDone session pages) (rowBound session (pages + 1)) carried := by
    refine ⟨hstate.logical, ⟨Nat.le_trans hdoneLe hbefore, hrows.length⟩, ?_, ?_⟩
    · show state.tailRows ++ page.rows = _
      rw [hstate.tail, hslice, hdoneRows, slice_append_slice hdoneLe hbefore]
    · show (state.tailSourcePageIndices ++ page.rows.map fun _ => pages + 1).length = _
      rw [List.length_append, List.length_map, hstate.sources.1, ← List.length_append]
  have hsources : ∀ source ∈ carried.sourcePageIndices, 1 ≤ source ∧ source ≤ pages + 1 := by
    intro source hmem
    rcases List.mem_append.mp hmem with hmem | hmem
    · have hbounds := hstate.sources.2 source hmem
      exact ⟨hbounds.1, Nat.le_succ_of_le hbounds.2⟩
    · obtain ⟨_, -, rfl⟩ := List.mem_map.mp hmem
      exact ⟨Nat.le_add_left 1 pages, Nat.le_refl _⟩
  have hsourcesPages : ∀ source ∈ carried.sourcePageIndices, 1 ≤ source ∧ source ≤ session.sourcePages :=
    fun source hmem => ⟨(hsources source hmem).1, Nat.le_trans (hsources source hmem).2 hlt⟩
  obtain ⟨hleft, hcount, hnumbered⟩ := cutAll_spec page h hlt hcarried hsourcesPages
  have hseen : state.rowsSeen + page.rows.length = rowBound session (pages + 1) := by
    rw [hstate.seen, hpageRows]
    omega
  have hfinal : pages + 1 = session.sourcePages → rowBound session (pages + 1) = session.sourceTotal :=
    fun heq => h.rowBound_of_ge (Nat.le_of_eq heq.symm)
  have hempty : pages + 1 = session.sourcePages → slice rows
      (logicalRowBound session (logicalDone session (pages + 1))) (rowBound session (pages + 1)) = [] := by
    intro heq
    rw [h.logicalRowBound_done, if_neg (Nat.not_lt.mpr (Nat.le_of_eq heq.symm)), hfinal heq, slice_self]
  have hid := hpage.index_eq
  refine ⟨stateAfterPage env.hashes session page (rowBound session (pages + 1))
    (cutLastPage (makeLogicalPage session page) (decide (pages + 1 = session.sourcePages))
      session.sourceTotal (cutLogicalPages (makeLogicalPage session page) carried.rows.length carried).2).2,
    _, ?_, ?_, hcount, hnumbered⟩
  · simp only [acceptCnipaGazetteBrowserSourcePage, hparse, ok_bind, bind_eq_ok, require_eq_ok,
      pure_eq_ok, hoverlap, hid, hseen, decide_eq_true_eq, decide_eq_false_iff_not]
    refine ⟨(), hincomplete, (), hpage.sessionId, (), hstate.next.symm, (), hpage.pagination, (), trivial,
      (), hfresh, (), Nat.min_le_left _ _, (), hfinal, (), ?_, (), ?_, ?_⟩
    · intro heq
      have hnil := hleft.rows_eq.trans (hempty heq)
      refine ⟨hnil, ?_, ?_⟩
      · rw [← List.length_eq_zero_iff]
        exact hleft.sources_length.trans (List.length_eq_zero_iff.mpr hnil)
      · rw [← logicalDone_of_ge (Nat.le_of_eq heq.symm)]
        exact hleft.next
    · intro hne
      have hnext : pages + 1 < session.sourcePages := Nat.lt_of_le_of_ne hlt hne
      rw [h.rowBound_of_lt hnext]
      exact h.lt_pages_iff.mp hnext
    · rfl
  · exact
      { sessionId := rfl
        fingerprint := rfl
        next := by rw [stateAfterPage, hid]
        logical := hleft.next
        seen := rfl
        tail := hleft.rows_eq
        sources := ⟨hleft.sources_length, fun source hmem =>
          hsources source (hleft.sources_sub source hmem)⟩
        previous := by rw [stateAfterPage, hslice, Nat.add_sub_cancel]
        signature := by rw [if_neg (Nat.succ_ne_zero pages), stateAfterPage, hpage.signature]
        completed := by rw [stateAfterPage, hid] }

end Accept

end MarkorbitKnowledge.Gazette
