import MarkorbitKnowledge.Contracts.Formats

/-!
# Patterns of identifiers given as texts

Where a module takes identifiers and digests as texts and checks them itself, they are tested against
the patterns here.  A slug is put together from slugs with `-` between them.
-/

namespace MarkorbitKnowledge.Contracts

/-- `/^[a-f0-9]{64}$/`. -/
def isSha256Text (s : String) : Bool :=
  decide (s.toList.length = 64) && s.toList.all fun c => c.isDigit || ('a' ≤ c && c ≤ 'f')

/-- `/^art_[0-9A-HJKMNP-TV-Z]{26}$/`, for the prefix `art`. -/
def isTypedId (kind s : String) : Bool :=
  let head := kind.toList ++ ['_']
  decide (head <+: s.toList) && decide ((s.toList.drop head.length).length = 26) &&
    (s.toList.drop head.length).all fun c => decide (c ∈ CROCKFORD)

/-! ### Slugs -/

theorem isSlug_append {a b : String} (ha : isSlug a = true) (hb : isSlug b = true) :
    isSlug (a ++ "-" ++ b) = true := by
  have hlist : (a ++ "-" ++ b).toList = a.toList ++ '-' :: b.toList := by simp
  rw [isSlug, hlist, List.splitOn_append_cons_self, List.all_append, Bool.and_eq_true]
  exact ⟨ha, hb⟩

/-- A non-empty text of lower case letters and digits is a slug. -/
theorem isSlug_of_alnum {cs : List Char} (hne : cs ≠ []) (hall : ∀ c ∈ cs, isLowerAlnum c = true) :
    isSlug (String.ofList cs) = true := by
  have hdash : '-' ∉ cs := fun hmem => absurd (hall '-' hmem) (by decide)
  rw [isSlug, String.toList_ofList, List.splitOn_eq_singleton hdash]
  simpa [hne] using hall

theorem isSlug_toString (n : Nat) : isSlug (toString n) = true := by
  have htext : toString n = String.ofList (Nat.toDigits 10 n) := rfl
  rw [htext]
  refine isSlug_of_alnum Nat.toDigits_ne_nil fun c hc => ?_
  have hdigit := Nat.isDigit_of_mem_toDigits (by decide) (by decide) hc
  simp [isLowerAlnum, hdigit]

end MarkorbitKnowledge.Contracts
