import Mathlib.Data.List.MinMax
import Mathlib.Data.List.Nodup

/-!
# Lineages

A log of versions, to which a row is always appended as the next version of the greatest row before it, by
an order of its own.  Whatever that order, every row but the first descends from an earlier one and is one
version on.  The versions run 1, 2, … in the order of the log, each the successor of the one before, exactly
if the rows but the last stand in their order (`Grown.linear_iff`).
-/

namespace Lineage

/-- What a row tells of itself; rows of one order have one identifier. -/
structure Fields (ρ ι κ : Type) where
  id : ρ → ι
  version : ρ → Nat
  parent : ρ → Option ι
  order : ρ → κ
  id_of_order : ∀ r s, order r = order s → id r = id s

variable {ρ ι κ : Type} [LinearOrder κ] (F : Fields ρ ι κ)

/-- The row is the next version of the greatest of the rows, or the first version. -/
structure Next (rows : List ρ) (row : ρ) : Prop where
  fresh : ∀ r ∈ rows, F.id r ≠ F.id row
  version : F.version row = match rows.argmax F.order with
    | some r => F.version r + 1
    | none => 1
  parent : F.parent row = (rows.argmax F.order).map F.id

inductive Grown : List ρ → Prop
  | nil : Grown []
  | snoc {rows : List ρ} {row : ρ} (h : Grown rows) (hnext : Next F rows row) : Grown (rows ++ [row])

/-- The rows are the versions 1, 2, …, and each is the successor of the one before. -/
def Linear (rows : List ρ) : Prop :=
  ∀ i row, rows[i]? = some row → F.version row = i + 1 ∧
    F.parent row = if i = 0 then none else rows[i - 1]?.map F.id

variable {F} {rows : List ρ} {row : ρ}

/-! ### Descent -/

/-- A row is the first version, or one version on from an earlier row, the greatest before it. -/
theorem Next.descends (h : Next F rows row) :
    (rows = [] ∧ F.version row = 1 ∧ F.parent row = none) ∨
      ∃ p ∈ rows, F.parent row = some (F.id p) ∧ F.version row = F.version p + 1 ∧
        ∀ q ∈ rows, F.order q ≤ F.order p := by
  cases hmax : rows.argmax F.order with
  | none =>
    refine Or.inl ⟨List.argmax_eq_none.mp hmax, ?_, ?_⟩
    · rw [h.version, hmax]
    · rw [h.parent, hmax, Option.map_none]
  | some p =>
    refine Or.inr ⟨p, List.argmax_mem hmax, ?_, ?_, fun q hq => List.le_of_mem_argmax hq hmax⟩
    · rw [h.parent, hmax, Option.map_some]
    · rw [h.version, hmax]

theorem Grown.split (h : Grown F rows) {before after : List ρ}
    (hrows : rows = before ++ row :: after) : Next F before row := by
  induction h generalizing after with
  | nil => simp at hrows
  | @snoc rows last h hnext ih =>
    rcases List.eq_nil_or_concat after with rfl | ⟨init, final, rfl⟩
    · obtain ⟨rfl, hlast⟩ := List.append_inj' hrows rfl
      rw [← List.singleton_inj.mp hlast]
      exact hnext
    · have hrows : rows ++ [last] = (before ++ row :: init) ++ [final] := by
        rw [hrows, List.concat_eq_append, List.append_assoc, List.cons_append]
      exact ih (List.append_inj' hrows rfl).1

theorem Grown.nodup (h : Grown F rows) : (rows.map F.id).Nodup := by
  induction h with
  | nil => exact List.nodup_nil
  | snoc h hnext ih =>
    rw [List.map_append, List.nodup_append]
    refine ⟨ih, List.nodup_singleton _, ?_⟩
    intro id hid other hother
    obtain ⟨r, hr, rfl⟩ := List.mem_map.mp hid
    rw [List.map_singleton, List.mem_singleton] at hother
    rw [hother]
    exact hnext.fresh r hr

/-! ### Linear lineages -/

omit [LinearOrder κ] in
theorem linear_concat : Linear F (rows ++ [row]) ↔ Linear F rows ∧ F.version row = rows.length + 1 ∧
    F.parent row = rows.getLast?.map F.id := by
  have hlast : rows.getLast? = if rows.length = 0 then none else rows[rows.length - 1]? := by
    rw [List.getLast?_eq_getElem?]
    split
    · rename_i hnil
      rw [List.length_eq_zero_iff.mp hnil]
      rfl
    · rfl
  have hbefore : ∀ i, i < rows.length → (rows ++ [row])[i]? = rows[i]? := by
    intro i hi
    rw [List.getElem?_append_left hi]
  constructor
  · intro h
    refine ⟨fun i r hr => ?_, ?_⟩
    · have hi := (List.getElem?_eq_some_iff.mp hr).1
      obtain ⟨hversion, hparent⟩ := h i r (by rw [hbefore i hi, hr])
      rw [hbefore (i - 1) (by omega)] at hparent
      exact ⟨hversion, hparent⟩
    · obtain ⟨hversion, hparent⟩ := h rows.length row (by simp)
      refine ⟨hversion, ?_⟩
      rw [hparent, hlast]
      split
      · rfl
      · rw [hbefore _ (by omega)]
  · rintro ⟨h, hversion, hparent⟩ i r hr
    rcases Nat.lt_or_ge i rows.length with hi | hi
    · rw [hbefore i hi] at hr
      rw [hbefore (i - 1) (by omega)]
      exact h i r hr
    · obtain ⟨hlength, hget⟩ := List.getElem?_eq_some_iff.mp hr
      rw [List.length_append, List.length_singleton] at hlength
      have hi : i = rows.length := by omega
      subst hi
      have hrow : r = row := by simpa using hr.symm
      rw [hrow, hparent, hlast]
      refine ⟨hversion, ?_⟩
      split
      · rfl
      · rw [hbefore _ (by omega)]

/-- The greatest row is the last one, where its identifier is that of the last. -/
theorem argmax_concat_iff (hnodup : ((rows ++ [row]).map F.id).Nodup) :
    ((rows ++ [row]).argmax F.order).map F.id = some (F.id row) ↔
      ∀ r ∈ rows, F.order r < F.order row := by
  have hne : ∀ r ∈ rows, F.id r ≠ F.id row := by
    intro r hr hid
    rw [List.map_append, List.nodup_append] at hnodup
    exact hnodup.2.2 _ (List.mem_map_of_mem hr) _ (List.mem_singleton.mpr rfl) hid
  constructor
  · intro h r hr
    obtain ⟨p, hp, hid⟩ := Option.map_eq_some_iff.mp h
    have hpmem := List.argmax_mem hp
    have hprow : p = row := by
      rcases List.mem_append.mp hpmem with hmem | hmem
      · exact absurd hid (hne p hmem)
      · exact List.mem_singleton.mp hmem
    rw [hprow] at hp
    refine lt_of_le_of_ne (List.le_of_mem_argmax (List.mem_append_left _ hr) hp) fun horder => ?_
    exact hne r hr (F.id_of_order r row horder)
  · intro h
    rw [List.argmax_concat]
    cases hmax : rows.argmax F.order with
    | none => rfl
    | some p =>
      simp only [if_pos (h p (List.argmax_mem hmax)), Option.map_some]

/-- The lineage is linear exactly if its rows but the last stand in their order. -/
theorem Grown.linear_iff (h : Grown F rows) :
    Linear F rows ↔ (rows.dropLast.map F.order).Pairwise (· < ·) := by
  induction h with
  | nil => simp [Linear]
  | @snoc rows row h hnext ih =>
    rw [linear_concat, List.dropLast_concat, ih]
    rcases List.eq_nil_or_concat rows with rfl | ⟨init, last, rfl⟩
    · simp [hnext.version, hnext.parent]
    · rw [List.concat_eq_append] at h hnext ih ⊢
      have hnodup := h.nodup
      rw [List.dropLast_concat, List.getLast?_concat, Option.map_some, List.map_append,
        List.pairwise_append, hnext.parent, argmax_concat_iff hnodup]
      have hsingle : (List.map F.order [last]).Pairwise (· < ·) := List.pairwise_singleton _ _
      have hordered : (∀ a ∈ init.map F.order, ∀ b ∈ [last].map F.order, a < b) ↔
          ∀ r ∈ init, F.order r < F.order last := by
        simp
      rw [hordered]
      constructor
      · rintro ⟨hinit, -, hlast⟩
        exact ⟨hinit, hsingle, hlast⟩
      · rintro ⟨hinit, -, hlast⟩
        refine ⟨hinit, ?_, hlast⟩
        -- The greatest row is the last, whose version is the length, as the rows are linear.
        have hmax : (init ++ [last]).argmax F.order = some last := by
          rw [List.argmax_concat]
          cases hmax : init.argmax F.order with
          | none => rfl
          | some p => simp only [if_pos (hlast p (List.argmax_mem hmax))]
        have hlinear : Linear F (init ++ [last]) := by
          rw [ih, List.dropLast_concat]
          exact hinit
        have hversion : F.version row = F.version last + 1 := by
          rw [hnext.version, hmax]
        rw [hversion, (hlinear init.length last (by simp)).1, List.length_append, List.length_singleton]

end Lineage
