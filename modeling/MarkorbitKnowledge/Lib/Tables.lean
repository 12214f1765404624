import Mathlib.Data.List.Forall2
import Mathlib.Data.List.Nodup

/-!
# Keyed tables

A relational table is the list of its rows in insertion order, and a row type names its primary
key once, through `Keyed`.  The module fixes the two statements a repository issues against such a
table, `SELECT … WHERE key = ?` (`find?`) and `UPDATE … WHERE key = ?` (`update`), and the
well-formedness that a PRIMARY KEY gives, `KeysUnique`.  What a proof about a program over tables
needs is mostly a frame: which filtered views of a table an update leaves alone
(`filter_update_of_not`), rewrites in place (`filter_update_of_iff`), or shrinks
(`filter_update_eq_nil`).
-/

namespace Tables

/-- A row type together with its primary key. -/
class Keyed (ρ : Type) (κ : outParam Type) where
  key : ρ → κ

export Keyed (key)

variable {ρ κ : Type} [Keyed ρ κ] [DecidableEq κ]

/-- `SELECT … WHERE key = k`: the first row stored under `k`. -/
def find? (t : List ρ) (k : κ) : Option ρ :=
  List.find? (fun r => decide (key r = k)) t

/-- `UPDATE … WHERE key = key r`: every row stored under the key of `r` becomes `r`. -/
def update (t : List ρ) (r : ρ) : List ρ :=
  t.map fun x => if key x = key r then r else x

/-- What a PRIMARY KEY promises: no two rows share their key. -/
def KeysUnique (t : List ρ) : Prop := (t.map key).Nodup

/-! ### Reading -/

theorem mem_of_find? {t : List ρ} {k : κ} {r : ρ} (h : find? t k = some r) : r ∈ t :=
  List.mem_of_find?_eq_some h

theorem key_of_find? {t : List ρ} {k : κ} {r : ρ} (h : find? t k = some r) : key r = k := by
  simpa using List.find?_some h

theorem find?_eq_none {t : List ρ} {k : κ} : find? t k = none ↔ ∀ r ∈ t, key r ≠ k := by
  simp [find?, List.find?_eq_none]

@[simp] theorem find?_nil (k : κ) : find? ([] : List ρ) k = none := rfl

theorem find?_cons (r : ρ) (t : List ρ) (k : κ) :
    find? (r :: t) k = if key r = k then some r else find? t k := by
  by_cases h : key r = k <;> simp [find?, h]

omit [DecidableEq κ] in
theorem KeysUnique.eq_of_key {t : List ρ} (hu : KeysUnique t) {r s : ρ} (hr : r ∈ t) (hs : s ∈ t)
    (h : key r = key s) : r = s :=
  List.inj_on_of_nodup_map hu hr hs h

omit [DecidableEq κ] in
/-- A projection that keeps the key keeps the keys unique. -/
theorem keysUnique_map {ρ' : Type} [Keyed ρ' κ] (f : ρ → ρ') (hf : ∀ x, key (f x) = key x)
    {t : List ρ} : KeysUnique (t.map f) ↔ KeysUnique t := by
  have : (t.map f).map key = t.map key := by
    rw [List.map_map]
    exact List.map_congr_left fun x _ => hf x
  rw [KeysUnique, KeysUnique, this]

theorem KeysUnique.find?_of_mem {t : List ρ} (hu : KeysUnique t) {r : ρ} (hr : r ∈ t) :
    find? t (key r) = some r := by
  cases h : find? t (key r) with
  | none => exact absurd rfl (find?_eq_none.mp h r hr)
  | some s => rw [hu.eq_of_key (mem_of_find? h) hr (key_of_find? h)]

theorem KeysUnique.find?_eq_some_iff {t : List ρ} (hu : KeysUnique t) {k : κ} {r : ρ} :
    find? t k = some r ↔ r ∈ t ∧ key r = k := by
  constructor
  · intro h
    exact ⟨mem_of_find? h, key_of_find? h⟩
  · rintro ⟨hr, rfl⟩
    exact hu.find?_of_mem hr

/-! ### Updating -/

@[simp] theorem keys_update (t : List ρ) (r : ρ) : (update t r).map key = t.map key := by
  simp only [update, List.map_map]
  refine List.map_congr_left fun x _ => ?_
  by_cases h : key x = key r <;> simp [h]

theorem KeysUnique.update {t : List ρ} (hu : KeysUnique t) (r : ρ) :
    KeysUnique (update t r) := by
  rw [KeysUnique, keys_update]
  exact hu

theorem mem_update {t : List ρ} {r x : ρ} :
    x ∈ update t r ↔ (x ∈ t ∧ key x ≠ key r) ∨ (x = r ∧ ∃ y ∈ t, key y = key r) := by
  simp only [update, List.mem_map]
  constructor
  · rintro ⟨y, hy, rfl⟩
    by_cases h : key y = key r
    · exact Or.inr ⟨by rw [if_pos h], y, hy, h⟩
    · exact Or.inl (by rw [if_neg h]; exact ⟨hy, h⟩)
  · rintro (⟨hx, h⟩ | ⟨rfl, y, hy, h⟩)
    · exact ⟨x, hx, if_neg h⟩
    · exact ⟨y, hy, if_pos h⟩

/-- What holds of every row and of the updated one holds of every row after the update. -/
theorem forall_mem_update {P : ρ → Prop} {t : List ρ} {r : ρ} (ht : ∀ x ∈ t, P x) (hr : P r) :
    ∀ x ∈ update t r, P x := by
  intro x hx
  rcases mem_update.mp hx with ⟨hx, -⟩ | ⟨rfl, -⟩
  · exact ht x hx
  · exact hr

/-- An update stores no key that was not stored before. -/
theorem forall_key_ne_update {t : List ρ} {r : ρ} {k : κ} :
    (∀ x ∈ update t r, key x ≠ k) ↔ ∀ x ∈ t, key x ≠ k := by
  have h : ∀ u : List ρ, (∀ x ∈ u, key x ≠ k) ↔ k ∉ u.map key := by simp
  rw [h, h, keys_update]

theorem update_of_not_mem {t : List ρ} {r : ρ} (h : ∀ x ∈ t, key x ≠ key r) : update t r = t := by
  conv_rhs => rw [← List.map_id t]
  exact List.map_congr_left fun x hx => if_neg (h x hx)

theorem KeysUnique.update_self {t : List ρ} (hu : KeysUnique t) {r : ρ} (hr : r ∈ t) :
    Tables.update t r = t := by
  conv_rhs => rw [← List.map_id t]
  refine List.map_congr_left fun x hx => ?_
  by_cases h : key x = key r
  · rw [if_pos h]; exact (hu.eq_of_key hx hr h).symm
  · exact if_neg h

/-- A projection that keeps the key can be taken before or after a lookup. -/
theorem find?_map {ρ' : Type} [Keyed ρ' κ] (f : ρ → ρ') (hf : ∀ x, key (f x) = key x) (t : List ρ)
    (k : κ) : find? (t.map f) k = (find? t k).map f := by
  induction t with
  | nil => rfl
  | cons x t ih =>
    rw [List.map_cons, find?_cons, find?_cons, hf, ih]
    by_cases h : key x = k <;> simp [h]

theorem find?_append_singleton (t : List ρ) (r : ρ) (k : κ) :
    find? (t ++ [r]) k = (find? t k).or (if key r = k then some r else none) := by
  by_cases h : key r = k <;> simp [find?, h]

theorem find?_update_of_ne {t : List ρ} {r : ρ} {k : κ} (hne : k ≠ key r) :
    find? (update t r) k = find? t k := by
  induction t with
  | nil => rfl
  | cons x t ih =>
    have ih : find? (t.map fun x => if key x = key r then r else x) k = find? t k := ih
    by_cases h : key x = key r
    · simp [update, find?_cons, h, ih, hne.symm]
    · simp [update, find?_cons, h, ih]

theorem find?_update_self {t : List ρ} {r : ρ} (h : ∃ x ∈ t, key x = key r) :
    find? (update t r) (key r) = some r := by
  cases hfind : find? (update t r) (key r) with
  | none =>
    obtain ⟨x, hx, hk⟩ := h
    exact absurd hk (forall_key_ne_update.mp (find?_eq_none.mp hfind) x hx)
  | some y =>
    rcases mem_update.mp (mem_of_find? hfind) with ⟨-, hne⟩ | ⟨rfl, -⟩
    · exact absurd (key_of_find? hfind) hne
    · rfl

/-- What is found under a key after an update depends on what was found before it. -/
theorem find?_update_congr {t u : List ρ} {r : ρ} (h : find? t (key r) = find? u (key r)) :
    find? (update t r) (key r) = find? (update u r) (key r) := by
  have hrow : ∀ v : List ρ, find? (update v r) (key r) = (find? v (key r)).map fun _ => r := by
    intro v
    cases hv : find? v (key r) with
    | none => exact find?_eq_none.mpr (forall_key_ne_update.mpr (find?_eq_none.mp hv))
    | some x => exact find?_update_self ⟨x, mem_of_find? hv, key_of_find? hv⟩
  rw [hrow, hrow, h]

/-- What some row satisfies, some row satisfies after an update that does not spoil it. -/
theorem exists_mem_update {P : ρ → Prop} {t : List ρ} {r : ρ}
    (hP : ∀ x ∈ t, key x = key r → P x → P r) (h : ∃ x ∈ t, P x) : ∃ x ∈ update t r, P x := by
  obtain ⟨x, hx, hPx⟩ := h
  by_cases hk : key x = key r
  · exact ⟨r, mem_update.mpr (Or.inr ⟨rfl, x, hx, hk⟩), hP x hx hk hPx⟩
  · exact ⟨x, mem_update.mpr (Or.inl ⟨hx, hk⟩), hPx⟩

theorem update_append (t u : List ρ) (r : ρ) : update (t ++ u) r = update t r ++ update u r :=
  List.map_append

/-- Updating the last row of a table. -/
theorem KeysUnique.update_last {t : List ρ} {s r : ρ} (hu : KeysUnique (t ++ [s]))
    (hk : key s = key r) : Tables.update (t ++ [s]) r = t ++ [r] := by
  rw [KeysUnique, List.map_append, List.nodup_append] at hu
  rw [update_append, update_of_not_mem]
  · simp [Tables.update, hk]
  · intro x hx he
    exact hu.2.2 (key x) (List.mem_map_of_mem hx) (key s) (by simp) (he.trans hk.symm)

/-- A column that every row under the key already agrees on with `r` is not changed. -/
theorem map_update_of_eq {γ : Type} (f : ρ → γ) {t : List ρ} {r : ρ}
    (h : ∀ x ∈ t, key x = key r → f x = f r) : (update t r).map f = t.map f := by
  simp only [update, List.map_map]
  refine List.map_congr_left fun x hx => ?_
  by_cases hk : key x = key r
  · simp [hk, h x hx hk]
  · simp [hk]

/-- A projection that keeps the key commutes with an update. -/
theorem map_update {ρ' : Type} [Keyed ρ' κ] (f : ρ → ρ') (hf : ∀ x, key (f x) = key x)
    (t : List ρ) (r : ρ) : (update t r).map f = update (t.map f) (f r) := by
  simp only [update, List.map_map]
  refine List.map_congr_left fun x _ => ?_
  by_cases h : key x = key r <;> simp [h, hf]

/-- What an update does to a row it does to the row only: the rows before and after are related. -/
theorem forall₂_update {R : ρ → ρ → Prop} {t : List ρ} {r : ρ} (hrefl : ∀ x ∈ t, R x x)
    (h : ∀ x ∈ t, key x = key r → R x r) : List.Forall₂ R t (update t r) := by
  refine List.forall₂_map_right_iff.mpr (List.forall₂_same.mpr fun x hx => ?_)
  by_cases hk : key x = key r
  · rw [if_pos hk]
    exact h x hx hk
  · rw [if_neg hk]
    exact hrefl x hx

/-- Updating a table row by row, from a list of rows with distinct keys, rewrites each row whose key
    is in the list. -/
theorem foldl_update {us : List ρ} (hu : KeysUnique us) (t : List ρ) :
    us.foldl update t = t.map fun x => (find? us (key x)).getD x := by
  induction us generalizing t with
  | nil => simp
  | cons u us ih =>
    rw [KeysUnique, List.map_cons, List.nodup_cons] at hu
    rw [List.foldl_cons, ih hu.2, update, List.map_map]
    refine List.map_congr_left fun x _ => ?_
    by_cases h : key x = key u
    · have hnone : find? us (key u) = none :=
        find?_eq_none.mpr fun r hr he => hu.1 (he ▸ List.mem_map_of_mem hr)
      simp [find?_cons, h, hnone]
    · simp [find?_cons, h, Ne.symm h]

/-! ### Filtered views of an updated table -/

omit [DecidableEq κ] in
theorem KeysUnique.filter {t : List ρ} (hu : KeysUnique t) (p : ρ → Bool) :
    KeysUnique (t.filter p) :=
  hu.sublist (List.filter_sublist.map key)

/-- An update of a row outside the view, to a row outside the view, leaves the view alone. -/
theorem filter_update_of_not {p : ρ → Bool} {t : List ρ} {r : ρ} (hr : p r = false)
    (h : ∀ x ∈ t, key x = key r → p x = false) : (update t r).filter p = t.filter p := by
  induction t with
  | nil => rfl
  | cons x t ih =>
    have ih := ih fun y hy => h y (List.mem_cons_of_mem _ hy)
    have hx := h x List.mem_cons_self
    by_cases hk : key x = key r
    · simpa [update, hk, hr, hx hk] using ih
    · simpa [update, hk, List.filter_cons] using congrArg (fun u => if p x then x :: u else u) ih

/-- An update that keeps a row inside the view, or outside it, commutes with taking the view. -/
theorem filter_update_of_iff {p : ρ → Bool} {t : List ρ} {r : ρ}
    (h : ∀ x ∈ t, key x = key r → p x = p r) :
    (update t r).filter p = update (t.filter p) r := by
  induction t with
  | nil => rfl
  | cons x t ih =>
    have ih := ih fun y hy => h y (List.mem_cons_of_mem _ hy)
    have hx := h x List.mem_cons_self
    by_cases hk : key x = key r <;> by_cases hp : p x = true <;>
      simp_all [update]

/-- An update that takes its row out of the view removes that row's key from the view. -/
theorem filter_update_of_drop {p : ρ → Bool} {t : List ρ} {r : ρ} (hr : p r = false) :
    (update t r).filter p = (t.filter p).filter fun x => decide (key x ≠ key r) := by
  induction t with
  | nil => rfl
  | cons x t ih =>
    by_cases hk : key x = key r <;> by_cases hp : p x = true <;> simp_all [update]

omit [DecidableEq κ] in
theorem KeysUnique.append_singleton {t : List ρ} {r : ρ} (hu : KeysUnique t)
    (h : ∀ x ∈ t, key x ≠ key r) : KeysUnique (t ++ [r]) := by
  rw [KeysUnique, List.map_append, List.nodup_append]
  refine ⟨hu, List.nodup_singleton _, ?_⟩
  intro k hk k' hk'
  obtain ⟨x, hx, rfl⟩ := List.mem_map.mp hk
  rw [List.map_singleton, List.mem_singleton] at hk'
  exact hk' ▸ h x hx

end Tables
