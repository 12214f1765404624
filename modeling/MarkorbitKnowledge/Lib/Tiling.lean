import Mathlib.Data.List.Basic
import Mathlib.Order.Monotone.Basic

/-!
# Consecutive ranges and slices

Intervals given by a monotone sequence of bounds tile what lies between the first and the last bound:
of numbers, and of a list.
-/

namespace Tiling

/-- The numbers from `first` to `last`. -/
def between (first last : Nat) : List Nat := List.range' first (last + 1 - first)

/-- The elements of a list from position `first` on and before position `last`. -/
def slice {α : Type} (l : List α) (first last : Nat) : List α := (l.drop first).take (last - first)

section Slices

variable {α : Type} {l : List α} {a b c : Nat}

theorem length_slice (hb : b ≤ l.length) : (slice l a b).length = b - a := by
  simp only [slice, List.length_take, List.length_drop]
  omega

theorem slice_append_slice (hab : a ≤ b) (hbc : b ≤ c) : slice l a b ++ slice l b c = slice l a c := by
  have hlength : c - a = b - a + (c - b) := by omega
  rw [slice, slice, slice, hlength, List.take_add, List.drop_drop, Nat.add_sub_cancel' hab]

theorem slice_self (a : Nat) : slice l a a = [] := by simp [slice]

theorem take_slice (hab : a ≤ b) (hbc : b ≤ c) : (slice l a c).take (b - a) = slice l a b := by
  rw [slice, slice, List.take_take, Nat.min_eq_left (by omega)]

theorem drop_slice (hab : a ≤ b) : (slice l a c).drop (b - a) = slice l b c := by
  rw [slice, slice, List.drop_take, List.drop_drop, Nat.add_sub_cancel' hab,
    show c - a - (b - a) = c - b by omega]

theorem slice_succ {a : Nat} {x : α} (h : l[a]? = some x) : slice l a (a + 1) = [x] := by
  obtain ⟨hlt, rfl⟩ := List.getElem?_eq_some_iff.mp h
  rw [slice, Nat.add_sub_cancel_left, List.drop_eq_getElem_cons hlt, List.take_succ_cons, List.take_zero]

theorem slice_zero (a : Nat) : slice l 0 a = l.take a := by rw [slice, List.drop_zero, Nat.sub_zero]

end Slices

/-! ### Numbered lists -/

/-- The elements of a list have the property `P` of the numbers from `first` on. -/
def Numbered {α : Type} (P : Nat → α → Prop) : Nat → List α → Prop
  | _, [] => True
  | first, a :: l => P first a ∧ Numbered P (first + 1) l

section Numbered

variable {α β : Type} {P Q : Nat → α → Prop} {first : Nat} {l r : List α}

theorem Numbered.imp : ∀ {first : Nat},
    (∀ n a, first ≤ n → n < first + l.length → P n a → Q n a) → Numbered P first l → Numbered Q first l := by
  induction l with
  | nil => exact fun _ _ => trivial
  | cons a l ih =>
    intro first h hl
    rw [List.length_cons] at h
    exact ⟨h first a (Nat.le_refl _) (by omega) hl.1,
      ih (fun n b hle hlt => h n b (by omega) (by omega)) hl.2⟩

theorem Numbered.mono (h : ∀ n a, P n a → Q n a) (hl : Numbered P first l) : Numbered Q first l :=
  hl.imp fun n a _ _ => h n a

theorem numbered_append : ∀ {first : Nat},
    Numbered P first (l ++ r) ↔ Numbered P first l ∧ Numbered P (first + l.length) r := by
  induction l with
  | nil => simp [Numbered]
  | cons a l ih =>
    intro first
    rw [List.cons_append, Numbered, Numbered, ih, List.length_cons, Nat.add_assoc,
      Nat.add_comm 1 l.length, and_assoc]

theorem Numbered.of_mem (h : Numbered P first l) {a : α} (ha : a ∈ l) :
    ∃ n, first ≤ n ∧ n < first + l.length ∧ P n a := by
  induction l generalizing first with
  | nil => cases ha
  | cons b l ih =>
    rw [List.length_cons]
    rcases List.mem_cons.mp ha with rfl | ha
    · exact ⟨first, Nat.le_refl _, by omega, h.1⟩
    · obtain ⟨n, hle, hlt, hn⟩ := ih h.2 ha
      exact ⟨n, by omega, by omega, hn⟩

theorem numbered_iff : ∀ {first : Nat},
    Numbered P first l ↔ ∀ i a, l[i]? = some a → P (first + i) a := by
  induction l with
  | nil => simp [Numbered]
  | cons b l ih =>
    intro first
    rw [Numbered, ih]
    constructor
    · rintro ⟨hb, hl⟩ i a ha
      cases i with
      | zero =>
        rw [List.getElem?_cons_zero] at ha
        rwa [← Option.some.inj ha]
      | succ i =>
        rw [List.getElem?_cons_succ] at ha
        have hi := hl i a ha
        rwa [Nat.add_assoc, Nat.add_comm 1 i] at hi
    · intro h
      refine ⟨h 0 b rfl, fun i a ha => ?_⟩
      rw [Nat.add_assoc, Nat.add_comm 1 i]
      exact h (i + 1) a (by rwa [List.getElem?_cons_succ])

theorem Numbered.head (h : Numbered P first l) {a : α} (ha : l.head? = some a) : P first a := by
  cases l with
  | nil => cases ha
  | cons b l =>
    obtain rfl := Option.some.inj ha
    exact h.1

theorem Numbered.last (h : Numbered P first l) {a : α} (ha : l.getLast? = some a) :
    P (first + l.length - 1) a := by
  rw [List.getLast?_eq_some_iff] at ha
  obtain ⟨front, rfl⟩ := ha
  rw [numbered_append] at h
  rw [List.length_append, List.length_singleton]
  exact h.2.1

/-- Elements that hold consecutive slices of a list hold, one after another, one slice of it. -/
theorem Numbered.flatMap_slice {source : List β} {bound : Nat → Nat} {f : α → List β}
    (hmono : Monotone bound) (h : Numbered (fun n a => f a = slice source (bound n) (bound (n + 1))) first l) :
    l.flatMap f = slice source (bound first) (bound (first + l.length)) := by
  induction l generalizing first with
  | nil => simp [slice_self]
  | cons a l ih =>
    have hlength : first + 1 + l.length = first + (l.length + 1) := by omega
    rw [List.flatMap_cons, h.1, ih h.2, List.length_cons, slice_append_slice (hmono (Nat.le_succ _))
      (hmono (Nat.le_add_right _ _)), hlength]

/-- Elements with as many items as lie between two bounds hold, one after another, the slices of all
    items. -/
theorem Numbered.slices (bound : Nat → Nat) {f : α → List β} : ∀ {first : Nat} {front : List β},
    front.length = bound first → (∀ n, bound n ≤ bound (n + 1)) →
    Numbered (fun n a => (f a).length = bound (n + 1) - bound n) first l →
    Numbered (fun n a => f a = slice (front ++ l.flatMap f) (bound n) (bound (n + 1))) first l ∧
      (front ++ l.flatMap f).length = bound (first + l.length) := by
  induction l with
  | nil =>
    intro first front hfront _ _
    simp [Numbered, hfront]
  | cons a l ih =>
    intro first front hfront hmono h
    have hfrontNext : (front ++ f a).length = bound (first + 1) := by
      have hle := hmono first
      rw [List.length_append, h.1, hfront]
      omega
    obtain ⟨hslices, hlength⟩ := ih hfrontNext hmono h.2
    rw [List.append_assoc, ← List.flatMap_cons] at hslices hlength
    refine ⟨⟨?_, hslices⟩, ?_⟩
    · show f a = _
      rw [List.flatMap_cons, slice, ← hfront, List.drop_left, hfront, ← h.1, List.take_left]
    · rw [hlength, List.length_cons, Nat.add_assoc, Nat.add_comm 1]

/-- Numbered parts that each start where the one before ends are numbered together. -/
theorem Numbered.flatMap {R : Nat → β → Prop} (bound : Nat → Nat) {f : α → List β}
    (hmono : ∀ n, bound n ≤ bound (n + 1)) : ∀ {first : Nat},
    Numbered (fun n a => (f a).length = bound (n + 1) - bound n ∧ Numbered R (bound n + 1) (f a)) first l →
    Numbered R (bound first + 1) (l.flatMap f) := by
  induction l with
  | nil => exact fun _ => trivial
  | cons a l ih =>
    intro first h
    have hle := hmono first
    obtain ⟨⟨hlength, hparts⟩, hrest⟩ := h
    have hnext : bound first + 1 + (f a).length = bound (first + 1) + 1 := by
      rw [hlength]
      omega
    rw [List.flatMap_cons, numbered_append, hnext]
    exact ⟨hparts, ih hrest⟩

end Numbered

section Bounds

variable {α : Type} {bound : Nat → Nat}

/-- Ranges that each start where the one before ends are the numbers between the ends. -/
theorem flatMap_range' (hmono : Monotone bound) (n : Nat) :
    (List.range n).flatMap (fun k => List.range' (bound k) (bound (k + 1) - bound k)) =
      List.range' (bound 0) (bound n - bound 0) := by
  induction n with
  | zero => simp
  | succ n ih =>
    have hfirst : bound 0 ≤ bound n := hmono (Nat.zero_le n)
    have hlast : bound n ≤ bound (n + 1) := hmono (Nat.le_succ n)
    have hstart : bound 0 + (bound n - bound 0) = bound n := by omega
    have hlength : bound (n + 1) - bound 0 = bound n - bound 0 + (bound (n + 1) - bound n) := by omega
    rw [List.range_succ, List.flatMap_append, ih, List.flatMap_singleton, hlength,
      ← List.range'_append_1, hstart]

end Bounds

end Tiling
