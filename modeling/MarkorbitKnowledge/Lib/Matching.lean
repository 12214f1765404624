import Mathlib.Data.List.Infix

/-!
# All matches of a pattern

A pattern with the flag `g` is tried at each position of a text; after a match the search goes on behind
it.  A pattern is given by what it leaves of a text that it matches at the start.  A piece which the
pattern matches whole is the first match (`allMatches_append`), and a gap in which it matches nowhere is
passed over (`allMatches_gap`).
-/

namespace Matching

variable {α : Type*}

/-- The matches from left to right, past the given number of elements. -/
def matchesFrom (pattern : List α → Option (List α)) : Nat → List α → List (List α)
  | _, [] => []
  | skip + 1, _ :: text => matchesFrom pattern skip text
  | 0, a :: text =>
    match pattern (a :: text) with
    | none => matchesFrom pattern 0 text
    | some rest =>
      (a :: text.take (text.length - rest.length)) ::
        matchesFrom pattern (text.length - rest.length) text

/-- The texts that the pattern matches. -/
def allMatches (pattern : List α → Option (List α)) (text : List α) : List (List α) :=
  matchesFrom pattern 0 text

variable {pattern : List α → Option (List α)}

theorem matchesFrom_length (passed text : List α) :
    matchesFrom pattern passed.length (passed ++ text) = allMatches pattern text := by
  induction passed with
  | nil => rfl
  | cons a passed ih => exact ih

theorem allMatches_cons_none {a : α} {text : List α} (h : pattern (a :: text) = none) :
    allMatches pattern (a :: text) = allMatches pattern text := by
  rw [allMatches, matchesFrom, h]
  rfl

/-- A piece that the pattern matches whole is the first match. -/
theorem allMatches_append {piece rest : List α} (hne : piece ≠ [])
    (h : pattern (piece ++ rest) = some rest) :
    allMatches pattern (piece ++ rest) = piece :: allMatches pattern rest := by
  cases piece with
  | nil => exact absurd rfl hne
  | cons a piece =>
    have hlength : (piece ++ rest).length - rest.length = piece.length := by
      rw [List.length_append, Nat.add_sub_cancel]
    rw [List.cons_append] at h ⊢
    rw [allMatches, matchesFrom, h]
    simp only [hlength, List.take_left']
    rw [matchesFrom_length]

/-- A gap whose elements no match starts with is passed over. -/
theorem allMatches_gap {gap rest : List α} (h : ∀ a ∈ gap, ∀ text, pattern (a :: text) = none) :
    allMatches pattern (gap ++ rest) = allMatches pattern rest := by
  induction gap with
  | nil => rfl
  | cons a gap ih =>
    rw [List.cons_append, allMatches_cons_none (h a List.mem_cons_self _)]
    exact ih fun b hb => h b (List.mem_cons_of_mem _ hb)

end Matching
