import Mathlib.Data.List.Basic
import Mathlib.Data.List.Nodup
import Mathlib.Logic.Function.Basic

/-!
# Numbered occurrences

A list of values under keys that may repeat becomes a list under keys that do not when each key is
given its occurrence: the first value under `k` is stored under `(k, 1)`, the next one under
`(k, 2)`.  What such a list stores under `(k, n)` is the `n`-th of the values under `k`, so two lists
store the same if and only if each key has the same values in the same order; how the values of
different keys are interleaved is lost.
-/

namespace Occurrences

variable {κ β γ : Type} [DecidableEq κ]

/-- Every value with its key and the occurrence of the key, where `seen` have occurred before. -/
def numberFrom (seen : κ → Nat) : List (κ × β) → List ((κ × Nat) × β)
  | [] => []
  | (k, b) :: l => ((k, seen k + 1), b) :: numberFrom (Function.update seen k (seen k + 1)) l

def number (l : List (κ × β)) : List ((κ × Nat) × β) := numberFrom (fun _ => 0) l

/-- The values under a key, in their order. -/
def valuesAt (k : κ) (l : List (κ × β)) : List β := (l.filter fun x => x.1 = k).map (·.2)

theorem valuesAt_cons_self (k : κ) (b : β) (l : List (κ × β)) :
    valuesAt k ((k, b) :: l) = b :: valuesAt k l := by
  simp [valuesAt]

theorem valuesAt_cons_of_ne {k k' : κ} (h : k' ≠ k) (b : β) (l : List (κ × β)) :
    valuesAt k ((k', b) :: l) = valuesAt k l := by
  simp [valuesAt, h]

theorem mem_numberFrom {seen : κ → Nat} {l : List (κ × β)} {k : κ} {n : Nat} {b : β} :
    ((k, n), b) ∈ numberFrom seen l ↔
      ∃ i, n = seen k + i + 1 ∧ (valuesAt k l)[i]? = some b := by
  induction l generalizing seen with
  | nil => simp [numberFrom, valuesAt]
  | cons x l ih =>
    obtain ⟨k', b'⟩ := x
    rw [numberFrom, List.mem_cons, ih]
    by_cases hk : k' = k
    · subst hk
      rw [valuesAt_cons_self, Function.update_self, Prod.mk.injEq, Prod.mk.injEq]
      constructor
      · rintro (⟨⟨-, rfl⟩, rfl⟩ | ⟨i, rfl, hi⟩)
        · exact ⟨0, rfl, rfl⟩
        · exact ⟨i + 1, by omega, hi⟩
      · rintro ⟨i, rfl, hi⟩
        cases i with
        | zero => exact Or.inl ⟨⟨rfl, rfl⟩, (Option.some.inj hi).symm⟩
        | succ i => exact Or.inr ⟨i, by omega, hi⟩
    · have hhead : ((k, n), b) ≠ ((k', seen k' + 1), b') := by
        intro h
        exact hk (congrArg (fun x => x.1.1) h).symm
      rw [valuesAt_cons_of_ne hk, Function.update_of_ne (Ne.symm hk), or_iff_right hhead]

theorem mem_number {l : List (κ × β)} {k : κ} {n : Nat} {b : β} :
    ((k, n), b) ∈ number l ↔ ∃ i, n = i + 1 ∧ (valuesAt k l)[i]? = some b := by
  simp [number, mem_numberFrom]

theorem nodup_numberFrom (seen : κ → Nat) (l : List (κ × β)) :
    ((numberFrom seen l).map (·.1)).Nodup := by
  induction l generalizing seen with
  | nil => exact List.nodup_nil
  | cons x l ih =>
    obtain ⟨k, b⟩ := x
    rw [numberFrom, List.map_cons, List.nodup_cons]
    refine ⟨fun hmem => ?_, ih _⟩
    obtain ⟨⟨⟨k', n⟩, c⟩, hc, hkey⟩ := List.mem_map.mp hmem
    obtain ⟨rfl, rfl⟩ := Prod.mk.inj hkey
    obtain ⟨i, hi, -⟩ := mem_numberFrom.mp hc
    rw [Function.update_self] at hi
    omega

theorem nodup_number (l : List (κ × β)) : ((number l).map (·.1)).Nodup := nodup_numberFrom _ l

/-- Without the occurrences the list is the one that was numbered. -/
theorem map_numberFrom (seen : κ → Nat) (l : List (κ × β)) :
    (numberFrom seen l).map (fun x => (x.1.1, x.2)) = l := by
  induction l generalizing seen with
  | nil => rfl
  | cons x l ih =>
    obtain ⟨k, b⟩ := x
    rw [numberFrom, List.map_cons, ih]

/-! ### Distinct values -/

/-- `[...new Set(values)]` repeats nothing. -/
theorem nodup_eraseDups {α : Type} [BEq α] [LawfulBEq α] :
    ∀ values : List α, values.eraseDups.Nodup
  | [] => List.nodup_nil
  | value :: values => by
    rw [List.eraseDups_cons, List.nodup_cons]
    refine ⟨fun hmem => ?_, nodup_eraseDups _⟩
    simp [List.mem_eraseDups] at hmem
termination_by values => values.length
decreasing_by exact Nat.lt_succ_of_le (List.length_filter_le _ _)

end Occurrences
