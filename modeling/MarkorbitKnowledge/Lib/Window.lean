import Mathlib.Data.List.Sort
import Mathlib.Data.List.Pairwise

/-!
# Bounded windows of an ordered query

A query `ORDER BY key LIMIT n` shows its caller the first `n` rows in the order of the key, and a
caller that looks for a row with some property in what it is shown looks no further.  `mem_window`
says which rows are shown: those with fewer than `n` rows before them.  `find?_window` says what the
caller finds: the first row with the property, provided it is shown.
-/

namespace Window

variable {α κ : Type*} [LinearOrder κ] (key : α → κ)

/-- The rows in the order of their keys. -/
def ordered (rows : List α) : List α := rows.insertionSort fun left right => key left ≤ key right

/-- The first `n` rows in the order of their keys. -/
def window (n : Nat) (rows : List α) : List α := (ordered key rows).take n

/-- The number of rows before a row. -/
def before (rows : List α) (row : α) : Nat := rows.countP fun other => decide (key other < key row)

variable {key} {rows : List α} {row : α} {n : Nat}

theorem ordered_perm : (ordered key rows).Perm rows := List.perm_insertionSort _ _

@[simp] theorem mem_ordered : row ∈ ordered key rows ↔ row ∈ rows := ordered_perm.mem_iff

/-- Rows with different keys are strictly ordered. -/
theorem ordered_pairwise (hkeys : (rows.map key).Nodup) :
    (ordered key rows).Pairwise fun left right => key left < key right := by
  have hsorted : (ordered key rows).Pairwise fun left right => key left ≤ key right :=
    List.pairwise_insertionSort _ rows
  have hdistinct : (ordered key rows).Pairwise fun left right => key left ≠ key right :=
    List.pairwise_map.mp ((ordered_perm.map key).nodup_iff.mpr hkeys)
  exact (hsorted.and hdistinct).imp fun h => lt_of_le_of_ne h.1 h.2

/-- The order of the rows does not depend on how they were given. -/
theorem ordered_congr {others : List α} (hkeys : (rows.map key).Nodup) (h : rows.Perm others) :
    ordered key rows = ordered key others := by
  have hothers : (others.map key).Nodup := (h.map key).nodup_iff.mp hkeys
  refine List.Perm.eq_of_pairwise ?_ (ordered_pairwise hkeys) (ordered_pairwise hothers)
    (ordered_perm.trans (h.trans ordered_perm.symm))
  intro left right _ _ hlt hgt
  exact absurd hlt (lt_asymm hgt)

/-- The order of the rows is the order of those that are kept. -/
theorem ordered_filter (hkeys : (rows.map key).Nodup) (p : α → Bool) :
    ordered key (rows.filter p) = (ordered key rows).filter p := by
  have hkept : ((rows.filter p).map key).Nodup := hkeys.sublist (List.filter_sublist.map key)
  refine List.Perm.eq_of_pairwise ?_ (ordered_pairwise hkept) ((ordered_pairwise hkeys).filter p)
    (ordered_perm.trans (ordered_perm.filter p).symm)
  intro left right _ _ hlt hgt
  exact absurd hlt (lt_asymm hgt)

/-- A new row before all others comes first. -/
theorem ordered_append_of_lt (hkeys : (rows.map key).Nodup) (h : ∀ other ∈ rows, key row < key other) :
    ordered key (rows ++ [row]) = row :: ordered key rows := by
  have hnew : key row ∉ rows.map key := by
    intro hmem
    obtain ⟨other, hother, heq⟩ := List.mem_map.mp hmem
    exact absurd (h other hother) (by rw [heq]; exact lt_irrefl _)
  have hboth : ((rows ++ [row]).map key).Nodup := by
    rw [List.map_append, List.nodup_append_comm]
    exact List.nodup_cons.mpr ⟨hnew, hkeys⟩
  have hperm : (ordered key (rows ++ [row])).Perm (row :: ordered key rows) :=
    ordered_perm.trans ((List.perm_append_singleton row rows).trans (ordered_perm.symm.cons row))
  refine List.Perm.eq_of_pairwise ?_ (ordered_pairwise hboth)
    (List.pairwise_cons.mpr ⟨fun other hother => h other (mem_ordered.mp hother),
      ordered_pairwise hkeys⟩) hperm
  intro left right _ _ hlt hgt
  exact absurd hlt (lt_asymm hgt)

/-- A new row that is not before the first leaves the first where it is. -/
theorem ordered_append_of_not_lt {first : α} {rest : List α}
    (hkeys : ((rows ++ [row]).map key).Nodup) (horder : ordered key rows = first :: rest)
    (h : ¬ key row < key first) :
    ∃ later, ordered key (rows ++ [row]) = first :: later ∧ later.Perm (row :: rest) := by
  have hperm : (ordered key (rows ++ [row])).Perm (row :: first :: rest) := by
    rw [← horder]
    exact ordered_perm.trans ((List.perm_append_singleton row rows).trans (ordered_perm.symm.cons row))
  have hrows : (rows.map key).Nodup := hkeys.sublist ((List.sublist_append_left rows [row]).map key)
  have hsorted := ordered_pairwise hrows
  rw [horder] at hsorted
  cases hall : ordered key (rows ++ [row]) with
  | nil =>
    rw [hall] at hperm
    exact absurd hperm (List.not_perm_nil_cons row (first :: rest))
  | cons least later =>
    have hleast := ordered_pairwise hkeys
    rw [hall] at hperm hleast
    have hfirst : first ∈ least :: later := hperm.mem_iff.mpr (by simp)
    have hmem : least ∈ row :: first :: rest := hperm.mem_iff.mp (by simp)
    have heq : least = first := by
      rcases List.mem_cons.mp hfirst with rfl | hlater
      · rfl
      · have hlt := (List.pairwise_cons.mp hleast).1 first hlater
        rcases List.mem_cons.mp hmem with rfl | hmem
        · exact absurd hlt h
        · rcases List.mem_cons.mp hmem with rfl | hmem
          · rfl
          · exact absurd hlt (lt_asymm ((List.pairwise_cons.mp hsorted).1 least hmem))
    subst heq
    exact ⟨later, rfl, (hperm.trans (List.Perm.swap least row rest)).cons_inv⟩

theorem mem_take {sorted : List α} (hsorted : sorted.Pairwise fun left right => key left < key right) :
    row ∈ sorted.take n ↔ row ∈ sorted ∧ before key sorted row < n := by
  induction sorted generalizing n with
  | nil => simp
  | cons first rest ih =>
    obtain ⟨hfirst, hrest⟩ := List.pairwise_cons.mp hsorted
    cases n with
    | zero => simp
    | succ n =>
      rw [List.take_succ_cons, List.mem_cons, List.mem_cons, ih hrest]
      have hcount : before key (first :: rest) row =
          before key rest row + if key first < key row then 1 else 0 := by
        simp [before, List.countP_cons]
      constructor
      · rintro (rfl | ⟨hmem, hlt⟩)
        · have hnone : before key rest row = 0 :=
            List.countP_eq_zero.mpr fun other hother => by simpa using (hfirst other hother).le
          simp [hcount, hnone]
        · rw [hcount, if_pos (hfirst row hmem)]
          exact ⟨Or.inr hmem, Nat.succ_lt_succ hlt⟩
      · rintro ⟨rfl | hmem, hlt⟩
        · exact Or.inl rfl
        · rw [hcount, if_pos (hfirst row hmem)] at hlt
          exact Or.inr ⟨hmem, Nat.lt_of_succ_lt_succ hlt⟩

theorem before_ordered : before key (ordered key rows) row = before key rows row :=
  ordered_perm.countP_eq _

/-- A row is shown when fewer than `n` rows are before it. -/
theorem mem_window (hkeys : (rows.map key).Nodup) :
    row ∈ window key n rows ↔ row ∈ rows ∧ before key rows row < n := by
  rw [window, mem_take (ordered_pairwise hkeys), mem_ordered, before_ordered]

/-- A row before one that is shown is shown. -/
theorem mem_window_of_le (hkeys : (rows.map key).Nodup) {other : α} (hrow : row ∈ window key n rows)
    (hother : other ∈ rows) (hle : key other ≤ key row) : other ∈ window key n rows := by
  obtain ⟨-, hlt⟩ := (mem_window hkeys).mp hrow
  refine (mem_window hkeys).mpr ⟨hother, lt_of_le_of_lt (List.countP_mono_left fun x _ hx => ?_) hlt⟩
  simp only [decide_eq_true_eq] at hx ⊢
  exact lt_of_lt_of_le hx hle

/-- The row a caller finds in the window is the first of all rows with the property. -/
theorem find?_window (hkeys : (rows.map key).Nodup) {p : α → Bool} :
    (window key n rows).find? p = some row ↔
      row ∈ window key n rows ∧ p row = true ∧ ∀ other ∈ rows, p other = true → key row ≤ key other := by
  have hfirst : ∀ {found : α}, (window key n rows).find? p = some found →
      found ∈ window key n rows ∧ p found = true ∧
        ∀ other ∈ rows, p other = true → key found ≤ key other := by
    intro found h
    have hmem := List.mem_of_find?_eq_some h
    refine ⟨hmem, List.find?_some h, fun other hother hp => ?_⟩
    by_contra hlt
    have hshown := mem_window_of_le hkeys hmem hother (le_of_not_ge hlt)
    obtain ⟨-, earlier, later, hsplit, hearlier⟩ := List.find?_eq_some_iff_append.mp h
    have hpairwise := (ordered_pairwise hkeys).sublist (List.take_sublist n _)
    change (window key n rows).Pairwise _ at hpairwise
    rw [hsplit] at hshown hpairwise
    rcases List.mem_append.mp hshown with hmem | hmem
    · have := hearlier other hmem
      simp [hp] at this
    · rcases List.mem_cons.mp hmem with rfl | hmem
      · exact hlt le_rfl
      · have hafter := (List.pairwise_cons.mp (List.pairwise_append.mp hpairwise).2.1).1 other hmem
        exact hlt hafter.le
  constructor
  · exact hfirst
  · rintro ⟨hmem, hp, hleast⟩
    cases h : (window key n rows).find? p with
    | none =>
      have := List.find?_eq_none.mp h row hmem
      simp [hp] at this
    | some found =>
      obtain ⟨hfound, hpfound, hleast'⟩ := hfirst h
      have hin : ∀ {x : α}, x ∈ window key n rows → x ∈ rows := fun hx => ((mem_window hkeys).mp hx).1
      have heq : key found = key row :=
        le_antisymm (hleast' row (hin hmem) hp) (hleast found (hin hfound) hpfound)
      exact congrArg some (List.inj_on_of_nodup_map hkeys (hin hfound) (hin hmem) heq)

end Window
