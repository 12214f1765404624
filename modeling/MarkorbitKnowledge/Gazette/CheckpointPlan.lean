import MarkorbitKnowledge.Gazette.BrowserStream
import MarkorbitKnowledge.Lib.Tiling
import Mathlib.Data.Nat.GCD.Basic

/-!
# The plan of checkpoints

`cnipa-gazette-browser-checkpoint-plan.ts`: how many logical pages a checkpoint has, and the ranges of
logical and of source pages of each.  The number of logical pages is a multiple of the alignment, so the
rows of a checkpoint that is not the last are those of whole source pages.
-/

namespace MarkorbitKnowledge.Gazette

open Contracts Fallible Tiling

def CNIPA_GAZETTE_MAX_PAGES_PER_CHECKPOINT : Nat := 100

structure CnipaGazettePageRange where
  startPage : Nat
  endPage : Nat
deriving DecidableEq

structure CnipaGazetteBrowserCheckpointRangePlan where
  logicalRange : CnipaGazettePageRange
  sourceRange : CnipaGazettePageRange
  terminal : Bool
deriving DecidableEq

/-- `while (b !== 0)`. -/
def gcdLoop : Nat → Nat → Nat → Nat
  | 0, a, _ => a
  | fuel + 1, a, b => if b = 0 then a else gcdLoop fuel b (a % b)

/-- Each round makes the second number smaller. -/
def gcd (left right : Nat) : Nat := gcdLoop (right + 1) left right

def boundedPositive (value : Nat) (label : String) (maximum : Nat) : Except String Nat := do
  require (isSafeInteger value = true ∧ 1 ≤ value ∧ value ≤ maximum)
    (label ++ " must be an integer from 1 to " ++ toString maximum)
  pure value

def nonNegativeInteger (value : Nat) (label : String) : Except String Nat := do
  require (isSafeInteger value = true) (label ++ " must be a non-negative safe integer")
  pure value

def cnipaGazetteBrowserCheckpointAlignment (sourcePageSize : Nat) : Except String Nat := do
  let pageSize ← boundedPositive sourcePageSize "sourcePageSize" 100
  pure (pageSize / gcd pageSize 100)

def cnipaGazetteBrowserEffectiveCheckpointPages (sourcePageSize : Nat)
    (targetLogicalPagesPerCheckpoint : Option Nat) : Except String Nat := do
  let alignment ← cnipaGazetteBrowserCheckpointAlignment sourcePageSize
  let target ← boundedPositive (targetLogicalPagesPerCheckpoint.getD 25)
    "targetLogicalPagesPerCheckpoint" CNIPA_GAZETTE_MAX_PAGES_PER_CHECKPOINT
  pure (if target < alignment then alignment else target / alignment * alignment)

/-- The range that starts at a logical page. -/
def checkpointRange (sourceTotal sourcePageSize effective logicalStart : Nat) :
    CnipaGazetteBrowserCheckpointRangePlan :=
  let logicalEnd := min (logicalPageCount sourceTotal) (logicalStart + effective - 1)
  let startRow := (logicalStart - 1) * 100
  let endRowExclusive := min sourceTotal (logicalEnd * 100)
  let sourceStart := if sourceTotal = 0 then 1 else startRow / sourcePageSize + 1
  let sourceEnd :=
    if sourceTotal = 0 then 1 else max sourceStart (ceilDiv endRowExclusive sourcePageSize)
  { logicalRange := ⟨logicalStart, logicalEnd⟩
    sourceRange := ⟨sourceStart, sourceEnd⟩
    terminal := decide (logicalEnd = logicalPageCount sourceTotal) }

/-- The loop over the first logical pages of the ranges. -/
def planFrom (sourceTotal sourcePageSize effective : Nat) :
    Nat → Nat → Except String (List CnipaGazetteBrowserCheckpointRangePlan)
  | 0, _ => pure []
  | fuel + 1, logicalStart =>
    if logicalStart ≤ logicalPageCount sourceTotal then do
      let range := checkpointRange sourceTotal sourcePageSize effective logicalStart
      require (logicalPageCount sourceTotal ≤ range.logicalRange.endPage ∨
          min sourceTotal (range.logicalRange.endPage * 100) % sourcePageSize = 0)
        "non-terminal browser checkpoint must end on a source-page boundary"
      require (range.sourceRange.endPage ≤ max 1 (ceilDiv sourceTotal sourcePageSize))
        "browser checkpoint source range exceeds sourcePageCount"
      let ranges ← planFrom sourceTotal sourcePageSize effective fuel (logicalStart + effective)
      pure (range :: ranges)
    else pure []

def planCnipaGazetteBrowserCheckpointRanges (sourceTotal sourcePageSize : Nat)
    (targetLogicalPagesPerCheckpoint : Option Nat) :
    Except String (List CnipaGazetteBrowserCheckpointRangePlan) := do
  let sourceTotal ← nonNegativeInteger sourceTotal "sourceTotal"
  let sourcePageSize ← boundedPositive sourcePageSize "sourcePageSize" 100
  let effective ←
    cnipaGazetteBrowserEffectiveCheckpointPages sourcePageSize targetLogicalPagesPerCheckpoint
  planFrom sourceTotal sourcePageSize effective (logicalPageCount sourceTotal) 1

/-! ### Counting pages -/

section Counts

variable {a b n : Nat}

theorem lt_ceilDiv_iff (hb : 0 < b) : n < ceilDiv a b ↔ n * b < a := by
  rw [ceilDiv, ← Nat.succ_le_iff, Nat.le_div_iff_mul_le hb, Nat.succ_mul]
  omega

theorem ceilDiv_le_iff (hb : 0 < b) : ceilDiv a b ≤ n ↔ a ≤ n * b := by
  rw [← Nat.not_lt, lt_ceilDiv_iff hb, Nat.not_lt]

theorem ceilDiv_pos (ha : 0 < a) (hb : 0 < b) : 0 < ceilDiv a b :=
  (lt_ceilDiv_iff hb).mpr (by omega)

theorem ceilDiv_mul (hb : 0 < b) (n : Nat) : ceilDiv (n * b) b = n := by
  apply Nat.le_antisymm
  · exact (ceilDiv_le_iff hb).mpr (Nat.le_refl _)
  · by_contra hlt
    rw [Nat.not_le, ← Nat.add_one_le_iff] at hlt
    have hle := (ceilDiv_le_iff hb).mp (Nat.le_sub_one_of_lt (Nat.lt_of_succ_le hlt))
    have hpos : 0 < n := Nat.lt_of_le_of_lt (Nat.zero_le _) hlt
    have hmul : (n - 1) * b < n * b := Nat.mul_lt_mul_of_pos_right (Nat.sub_one_lt hpos.ne') hb
    omega

end Counts

/-! ### Alignment -/

theorem gcdLoop_eq {fuel : Nat} : ∀ {a b : Nat}, b < fuel → gcdLoop fuel a b = Nat.gcd a b := by
  induction fuel with
  | zero => exact fun h => absurd h (Nat.not_lt_zero _)
  | succ fuel ih =>
    intro a b hb
    unfold gcdLoop
    split
    · rename_i hzero
      rw [hzero, Nat.gcd_zero_right]
    · rename_i hne
      have hlt : a % b < b := Nat.mod_lt a (Nat.pos_of_ne_zero hne)
      rw [ih (by omega), Nat.gcd_comm, ← Nat.gcd_rec, Nat.gcd_comm]

theorem gcd_eq (left right : Nat) : gcd left right = Nat.gcd left right :=
  gcdLoop_eq (Nat.lt_succ_self right)

/-- The pages of a checkpoint of a session: at most the maximum, and their rows are whole source
    pages. -/
structure Aligned (sourcePageSize effective : Nat) : Prop where
  pos : 0 < effective
  le : effective ≤ CNIPA_GAZETTE_MAX_PAGES_PER_CHECKPOINT
  dvd : sourcePageSize ∣ effective * 100
  multiple : ∃ alignment, cnipaGazetteBrowserCheckpointAlignment sourcePageSize = .ok alignment ∧
    alignment ∣ effective

section Alignment

variable {sourcePageSize effective : Nat}

theorem alignment_spec (hsize : 1 ≤ sourcePageSize ∧ sourcePageSize ≤ 100) :
    ∃ alignment, cnipaGazetteBrowserCheckpointAlignment sourcePageSize = .ok alignment ∧
      0 < alignment ∧ alignment ≤ sourcePageSize ∧ sourcePageSize ∣ alignment * 100 := by
  have hsafe : isSafeInteger sourcePageSize = true := by
    simp only [isSafeInteger, decide_eq_true_eq]
    omega
  refine ⟨sourcePageSize / Nat.gcd sourcePageSize 100, ?_, ?_, Nat.div_le_self _ _, ?_⟩
  · simp only [cnipaGazetteBrowserCheckpointAlignment, boundedPositive, bind_eq_ok, require_eq_ok,
      pure_eq_ok, gcd_eq]
    exact ⟨sourcePageSize, ⟨(), ⟨hsafe, hsize.1, hsize.2⟩, rfl⟩, rfl⟩
  · exact Nat.div_pos (Nat.le_of_dvd hsize.1 (Nat.gcd_dvd_left _ _))
      (Nat.gcd_pos_of_pos_left 100 hsize.1)
  · -- `size / g * 100 = size * (100 / g)`
    obtain ⟨rest, hrest⟩ := Nat.gcd_dvd_right sourcePageSize 100
    refine ⟨rest, ?_⟩
    have hpos : 0 < Nat.gcd sourcePageSize 100 := Nat.gcd_pos_of_pos_left 100 hsize.1
    calc sourcePageSize / Nat.gcd sourcePageSize 100 * 100
        = sourcePageSize / Nat.gcd sourcePageSize 100 * (Nat.gcd sourcePageSize 100 * rest) := by
          rw [← hrest]
      _ = sourcePageSize * rest := by
          rw [← Nat.mul_assoc, Nat.div_mul_cancel (Nat.gcd_dvd_left _ _)]

theorem effective_spec (hsize : 1 ≤ sourcePageSize ∧ sourcePageSize ≤ 100) {target : Option Nat}
    (htarget : 1 ≤ target.getD 25 ∧ target.getD 25 ≤ 100) :
    ∃ effective, cnipaGazetteBrowserEffectiveCheckpointPages sourcePageSize target = .ok effective ∧
      Aligned sourcePageSize effective := by
  obtain ⟨alignment, hok, hpos, hle, hdvd⟩ := alignment_spec hsize
  have hsafe : isSafeInteger (target.getD 25) = true := by
    simp only [isSafeInteger, decide_eq_true_eq]
    omega
  refine ⟨if target.getD 25 < alignment then alignment else target.getD 25 / alignment * alignment, ?_,
    ?_⟩
  · simp only [cnipaGazetteBrowserEffectiveCheckpointPages, boundedPositive, bind_eq_ok, require_eq_ok,
      pure_eq_ok]
    exact ⟨alignment, hok, target.getD 25, ⟨(), ⟨hsafe, htarget.1, htarget.2⟩, rfl⟩, rfl⟩
  · split
    · exact ⟨hpos, Nat.le_trans hle hsize.2, hdvd, alignment, hok, Nat.dvd_refl _⟩
    · rename_i hge
      refine ⟨?_, ?_, ?_, alignment, hok, Nat.dvd_mul_left _ _⟩
      · exact Nat.mul_pos (Nat.div_pos (Nat.not_lt.mp hge) hpos) hpos
      · exact Nat.le_trans (Nat.div_mul_le_self _ _) htarget.2
      · rw [Nat.mul_assoc]
        exact Dvd.dvd.mul_left hdvd _

/-- A number of pages that is aligned already stays. -/
theorem effective_of_aligned (h : Aligned sourcePageSize effective) :
    cnipaGazetteBrowserEffectiveCheckpointPages sourcePageSize (some effective) = .ok effective := by
  obtain ⟨alignment, hok, hdvd⟩ := h.multiple
  have hle := h.le
  have hsafe : isSafeInteger effective = true := by
    simp only [isSafeInteger, decide_eq_true_eq, CNIPA_GAZETTE_MAX_PAGES_PER_CHECKPOINT] at hle ⊢
    omega
  simp only [cnipaGazetteBrowserEffectiveCheckpointPages, boundedPositive, bind_eq_ok, require_eq_ok,
    pure_eq_ok, Option.getD_some]
  refine ⟨alignment, hok, effective, ⟨(), ⟨hsafe, h.pos, hle⟩, rfl⟩, ?_⟩
  rw [if_neg (Nat.not_lt.mpr (Nat.le_of_dvd h.pos hdvd)), Nat.div_mul_cancel hdvd]

end Alignment

/-! ### Ranges -/

/-- The numbers of a paged list of rows, in source pages and in logical pages. -/
structure Paging (total size effective : Nat) : Prop where
  totalPos : 0 < total
  sizeBounds : 1 ≤ size ∧ size ≤ 100
  aligned : Aligned size effective

/-- The source pages of a checkpoint that is not the last. -/
def sourcePagesPerCheckpoint (size effective : Nat) : Nat := effective * 100 / size

/-- How many logical pages the first checkpoints have. -/
def logicalBound (total effective index : Nat) : Nat :=
  min (logicalPageCount total) (index * effective)

/-- How many source pages the first checkpoints have. -/
def sourceBound (total size effective index : Nat) : Nat :=
  min (ceilDiv total size) (index * sourcePagesPerCheckpoint size effective)

def checkpointCount (total effective : Nat) : Nat := ceilDiv (logicalPageCount total) effective

section Ranges

variable {total size effective : Nat}

theorem Paging.logicalPageCount_eq (h : Paging total size effective) :
    logicalPageCount total = ceilDiv total 100 :=
  Nat.max_eq_right (ceilDiv_pos h.totalPos (by decide))

theorem Paging.mul_size (h : Paging total size effective) :
    sourcePagesPerCheckpoint size effective * size = effective * 100 :=
  Nat.div_mul_cancel h.aligned.dvd

theorem Paging.sourcePages_pos (h : Paging total size effective) :
    0 < sourcePagesPerCheckpoint size effective := by
  refine Nat.pos_of_ne_zero fun hzero => ?_
  have hmul := h.mul_size
  have hpos := h.aligned.pos
  rw [hzero] at hmul
  omega

/-- The rows of the first checkpoints, counted in source pages and in logical pages. -/
theorem Paging.rows_eq (h : Paging total size effective) (index : Nat) :
    index * sourcePagesPerCheckpoint size effective * size = index * effective * 100 := by
  rw [Nat.mul_assoc, h.mul_size, Nat.mul_assoc]

theorem Paging.lt_count_iff (h : Paging total size effective) {index : Nat} :
    index < checkpointCount total effective ↔ index * effective * 100 < total := by
  rw [checkpointCount, lt_ceilDiv_iff h.aligned.pos, h.logicalPageCount_eq,
    lt_ceilDiv_iff (by decide)]

/-- The bounds of a range lie within the pages there are, if and only if a range starts there. -/
theorem Paging.bounds_of_lt (h : Paging total size effective) {index : Nat}
    (hindex : index < checkpointCount total effective) :
    logicalBound total effective index = index * effective ∧
      sourceBound total size effective index = index * sourcePagesPerCheckpoint size effective := by
  have hrows := h.lt_count_iff.mp hindex
  constructor
  · refine Nat.min_eq_right (Nat.le_of_lt ?_)
    rw [h.logicalPageCount_eq, lt_ceilDiv_iff (by decide)]
    exact hrows
  · refine Nat.min_eq_right (Nat.le_of_lt ?_)
    rw [lt_ceilDiv_iff h.sizeBounds.1, h.rows_eq]
    exact hrows

theorem Paging.bounds_of_ge (h : Paging total size effective) {index : Nat}
    (hindex : checkpointCount total effective ≤ index) :
    logicalBound total effective index = logicalPageCount total ∧
      sourceBound total size effective index = ceilDiv total size := by
  have hrows : total ≤ index * effective * 100 := by
    rw [← Nat.not_lt, ← h.lt_count_iff]
    exact Nat.not_lt.mpr hindex
  constructor
  · refine Nat.min_eq_left ?_
    rw [h.logicalPageCount_eq, ceilDiv_le_iff (by decide)]
    exact hrows
  · refine Nat.min_eq_left ?_
    rw [ceilDiv_le_iff h.sizeBounds.1, h.rows_eq]
    exact hrows

/-- The range of a checkpoint, between the bounds. -/
def rangeAt (total size effective index : Nat) : CnipaGazetteBrowserCheckpointRangePlan where
  logicalRange :=
    ⟨logicalBound total effective index + 1, logicalBound total effective (index + 1)⟩
  sourceRange := ⟨sourceBound total size effective index + 1, sourceBound total size effective (index + 1)⟩
  terminal := decide (index + 1 = checkpointCount total effective)

/-- A range that is not the last ends on a source-page boundary. -/
theorem Paging.boundary (h : Paging total size effective) {index : Nat}
    (hindex : index + 1 < checkpointCount total effective) :
    logicalBound total effective (index + 1) * 100 =
      sourceBound total size effective (index + 1) * size := by
  obtain ⟨hlogical, hsource⟩ := h.bounds_of_lt hindex
  rw [hlogical, hsource, h.rows_eq]

theorem Paging.range_eq (h : Paging total size effective) {index : Nat}
    (hindex : index < checkpointCount total effective) :
    checkpointRange total size effective (index * effective + 1) = rangeAt total size effective index := by
  obtain ⟨hlogical, hsource⟩ := h.bounds_of_lt hindex
  have hrows := h.lt_count_iff.mp hindex
  have hsize : 0 < size := h.sizeBounds.1
  have hend : min (logicalPageCount total) (index * effective + 1 + effective - 1) =
      logicalBound total effective (index + 1) := by
    rw [logicalBound, Nat.succ_mul]
    congr 1
    omega
  have hstart : (index * effective + 1 - 1) * 100 / size + 1 = sourceBound total size effective index + 1 := by
    rw [hsource, Nat.add_sub_cancel, ← h.rows_eq, Nat.mul_div_cancel _ hsize]
  have hlt : index * sourcePagesPerCheckpoint size effective < ceilDiv total size := by
    rw [lt_ceilDiv_iff hsize, h.rows_eq]
    exact hrows
  have hsourceEnd : max (sourceBound total size effective index + 1)
      (ceilDiv (min total (logicalBound total effective (index + 1) * 100)) size) =
      sourceBound total size effective (index + 1) := by
    by_cases hnext : index + 1 < checkpointCount total effective
    · obtain ⟨hlogical', hsource'⟩ := h.bounds_of_lt hnext
      have hrows' := h.lt_count_iff.mp hnext
      rw [hlogical', hsource', hsource, Nat.min_eq_right (Nat.le_of_lt hrows'), ← h.rows_eq,
        ceilDiv_mul hsize, Nat.succ_mul]
      have hpos := h.sourcePages_pos
      omega
    · obtain ⟨hlogical', hsource'⟩ := h.bounds_of_ge (Nat.not_lt.mp hnext)
      have htotal : total ≤ logicalPageCount total * 100 := by
        rw [h.logicalPageCount_eq, ← ceilDiv_le_iff (by decide)]
      rw [hlogical', hsource', hsource, Nat.min_eq_left htotal]
      omega
  have hterminal : (logicalBound total effective (index + 1) = logicalPageCount total) ↔
      index + 1 = checkpointCount total effective := by
    constructor
    · intro hall
      by_contra hne
      have hnext : index + 1 < checkpointCount total effective := by omega
      have hlt' : (index + 1) * effective < logicalPageCount total := by
        rw [h.logicalPageCount_eq, lt_ceilDiv_iff (by decide)]
        exact h.lt_count_iff.mp hnext
      rw [(h.bounds_of_lt hnext).1] at hall
      omega
    · intro hlast
      exact (h.bounds_of_ge (Nat.le_of_eq hlast.symm)).1
  have hzero : total ≠ 0 := h.totalPos.ne'
  simp only [checkpointRange, rangeAt, hend, hstart, hsourceEnd, hlogical, hterminal, if_neg hzero]

theorem planFrom_eq (h : Paging total size effective) (fuel : Nat) : ∀ index : Nat,
    checkpointCount total effective ≤ index + fuel →
    planFrom total size effective fuel (index * effective + 1) =
      .ok ((List.range' index (checkpointCount total effective - index)).map
        (rangeAt total size effective)) := by
  induction fuel with
  | zero =>
    intro index hfuel
    have hnone : checkpointCount total effective - index = 0 := by omega
    rw [hnone]
    rfl
  | succ fuel ih =>
    intro index hfuel
    have hstarts : index * effective + 1 ≤ logicalPageCount total ↔
        index < checkpointCount total effective := by
      rw [checkpointCount, lt_ceilDiv_iff h.aligned.pos]
      exact Nat.succ_le_iff
    by_cases hindex : index < checkpointCount total effective
    · have hrest := ih (index + 1) (by omega)
      have hcount : checkpointCount total effective - index =
          checkpointCount total effective - (index + 1) + 1 := by omega
      have hboundary : logicalPageCount total ≤ logicalBound total effective (index + 1) ∨
          min total (logicalBound total effective (index + 1) * 100) % size = 0 := by
        by_cases hnext : index + 1 < checkpointCount total effective
        · refine Or.inr ?_
          have hrows := h.lt_count_iff.mp hnext
          rw [(h.bounds_of_lt hnext).1, Nat.min_eq_right (Nat.le_of_lt hrows), ← h.rows_eq]
          exact Nat.mul_mod_left _ _
        · exact Or.inl (Nat.le_of_eq (h.bounds_of_ge (Nat.not_lt.mp hnext)).1.symm)
      have hwithin : sourceBound total size effective (index + 1) ≤ max 1 (ceilDiv total size) :=
        Nat.le_trans (Nat.min_le_left _ _) (Nat.le_max_right _ _)
      rw [planFrom, if_pos (hstarts.mpr hindex), h.range_eq hindex, hcount, List.range'_succ,
        List.map_cons]
      simp only [bind_eq_ok, require_eq_ok, pure_eq_ok]
      refine ⟨(), hboundary, (), hwithin, _, ?_, rfl⟩
      rw [← hrest, Nat.succ_mul]
      congr 1
      omega
    · have hnone : checkpointCount total effective - index = 0 := by omega
      rw [planFrom, if_neg (mt hstarts.mp hindex), hnone]
      rfl

/-- The plan of a session: one range for each checkpoint. -/
theorem plan_eq (h : Paging total size effective) (hsafe : isSafeInteger total = true) :
    planCnipaGazetteBrowserCheckpointRanges total size (some effective) =
      .ok ((List.range (checkpointCount total effective)).map (rangeAt total size effective)) := by
  have hsize : isSafeInteger size = true := by
    have hle := h.sizeBounds.2
    simp only [isSafeInteger, decide_eq_true_eq]
    omega
  have hplan := planFrom_eq h (logicalPageCount total) 0 (by
    rw [Nat.zero_add, checkpointCount, ceilDiv_le_iff h.aligned.pos]
    exact Nat.le_mul_of_pos_right _ h.aligned.pos)
  rw [Nat.zero_mul, Nat.zero_add, Nat.sub_zero] at hplan
  simp only [planCnipaGazetteBrowserCheckpointRanges, nonNegativeInteger, boundedPositive, bind_eq_ok,
    require_eq_ok, pure_eq_ok]
  refine ⟨total, ⟨(), hsafe, rfl⟩, size, ⟨(), ⟨hsize, h.sizeBounds.1, h.sizeBounds.2⟩, rfl⟩, effective,
    effective_of_aligned h.aligned, ?_⟩
  rw [hplan, List.range_eq_range']

/-- The ranges tile the logical pages and the source pages. -/
theorem ranges_tile (h : Paging total size effective) :
    let ranges := (List.range (checkpointCount total effective)).map (rangeAt total size effective)
    (ranges.flatMap fun r => between r.logicalRange.startPage r.logicalRange.endPage) =
        between 1 (ceilDiv total 100) ∧
      (ranges.flatMap fun r => between r.sourceRange.startPage r.sourceRange.endPage) =
        between 1 (ceilDiv total size) := by
  have htile : ∀ {bound : Nat → Nat} {last : Nat}, Monotone bound → bound 0 = 0 →
      bound (checkpointCount total effective) = last →
      (List.range (checkpointCount total effective)).flatMap
        (fun k => between (bound k + 1) (bound (k + 1))) = between 1 last := by
    intro bound last hmono hzero hlast
    have hsucc : Monotone fun k => bound k + 1 := fun _ _ hle => Nat.succ_le_succ (hmono hle)
    have hshift := flatMap_range' hsucc (checkpointCount total effective)
    simp only [hzero, hlast, Nat.zero_add] at hshift
    simp only [between]
    rw [← hshift]
  have hmono : ∀ (pages width : Nat), Monotone fun k => min pages (k * width) := by
    intro pages width a b hle
    have hmul : a * width ≤ b * width := Nat.mul_le_mul_right _ hle
    show min pages (a * width) ≤ min pages (b * width)
    omega
  intro ranges
  obtain ⟨hlogical, hsource⟩ := h.bounds_of_ge (Nat.le_refl _)
  rw [h.logicalPageCount_eq] at hlogical
  constructor
  · rw [List.flatMap_map]
    exact htile (hmono _ _) (by simp [logicalBound]) hlogical
  · rw [List.flatMap_map]
    exact htile (hmono _ _) (by simp [sourceBound]) hsource

end Ranges

end MarkorbitKnowledge.Gazette
