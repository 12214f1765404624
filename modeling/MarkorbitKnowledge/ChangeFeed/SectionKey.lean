import MarkorbitKnowledge.Contracts.Text
import MarkorbitKnowledge.Lib.Delimited

/-!
# The keys of sections

A section of a document is named by the JSON text of its heading path and its occurrence, with a `#`
between them.  The JSON text of a list of strings tells the strings: no quote stands unescaped inside
a quoted string, so the first one ends it.  The last `#` of a key ends the path, as an occurrence is
written in digits.
-/

namespace MarkorbitKnowledge.ChangeFeed

open Contracts

/-- `JSON.stringify` of a list of strings. -/
def stringifyPath (path : List JsString) : Text :=
  '[' :: (List.intercalate [','] (path.map quoted) ++ [']'])

/-- The key of a section. -/
def sectionKey (pathJson : Text) (occurrence : Nat) : Text :=
  pathJson ++ '#' :: Nat.toDigits 10 occurrence

/-! ### Where a quoted string ends -/

/-- The text before the first quote that no backslash stands before, and the text after it. -/
def closing : Text → Option (Text × Text)
  | [] => none
  | '"' :: rest => some ([], rest)
  | '\\' :: e :: rest => (closing rest).map fun parts => ('\\' :: e :: parts.1, parts.2)
  | c :: rest => (closing rest).map fun parts => (c :: parts.1, parts.2)

attribute [local simp] closing

theorem closing_plain {c : Char} (hquote : c ≠ '"') (hslash : c ≠ '\\') (rest : Text) :
    closing (c :: rest) = (closing rest).map fun parts => (c :: parts.1, parts.2) := by
  rw [closing]
  · exact hquote
  · intro e rest' h
    exact absurd h hslash

theorem closing_hexDigit {n : Nat} (hn : n < 16) (rest : Text) :
    closing (hexDigit n :: rest) =
      (closing rest).map fun parts => (hexDigit n :: parts.1, parts.2) := by
  have hplain : hexDigit n ≠ '"' ∧ hexDigit n ≠ '\\' := by
    interval_cases n <;> decide
  exact closing_plain hplain.1 hplain.2 rest

theorem closing_unicodeEscape (u : UInt16) (rest : Text) :
    closing (unicodeEscape u ++ rest) =
      (closing rest).map fun parts => (unicodeEscape u ++ parts.1, parts.2) := by
  have hu := u.toNat_lt
  simp only [unicodeEscape, List.cons_append, List.nil_append, closing,
    closing_hexDigit (show u.toNat / 4096 < 16 by omega),
    closing_hexDigit (Nat.mod_lt _ (by decide : 0 < 16)), Option.map_map, Function.comp_def]

theorem closing_jsonUnit (u : UInt16) (rest : Text) :
    closing (jsonUnit u ++ rest) =
      (closing rest).map fun parts => (jsonUnit u ++ parts.1, parts.2) := by
  unfold jsonUnit
  iterate 7
    split
    · simp [closing]
  split
  · exact closing_unicodeEscape u rest
  · rename_i hquote hslash _ _ _ _ _ hplain
    rw [not_or] at hplain
    obtain ⟨-, hvalue⟩ := utf16_ofNat hplain.2
    have hne : ∀ c : Char, u ≠ UInt16.ofNat c.toNat → Char.ofNat u.toNat ≠ c := by
      intro c hc h
      exact hc (by rw [← h, hvalue, UInt16.ofNat_toNat])
    exact closing_plain (hne '"' hquote) (hne '\\' hslash) rest

theorem closing_jsonBody (s : JsString) (rest : Text) :
    closing (jsonBody s ++ '"' :: rest) = some (jsonBody s, rest) := by
  induction s using jsonBody.induct with
  | case1 => rfl
  | case2 u =>
    rw [jsonBody, closing_jsonUnit]
    simp [closing]
  | case3 u v us hpair ih =>
    obtain ⟨-, hvalue⟩ := utf16_surrogatePair hpair.1 hpair.2
    have hne : ∀ c : Char, c.toNat < 0x10000 → surrogatePair u v ≠ c := by
      intro c hc h
      rw [h] at hvalue
      omega
    rw [jsonBody, if_pos hpair, List.cons_append,
      closing_plain (hne '"' (by decide)) (hne '\\' (by decide)), ih]
    rfl
  | case4 u v us hpair ih =>
    rw [jsonBody, if_neg hpair, List.append_assoc, closing_jsonUnit, ih]
    rfl

/-- A quoted string at the beginning of a text is told from what follows it. -/
theorem quoted_append_inj {s s' : JsString} {rest rest' : Text}
    (h : quoted s ++ rest = quoted s' ++ rest') : s = s' ∧ rest = rest' := by
  simp only [quoted, List.cons_append, List.append_assoc, List.nil_append, List.cons.injEq,
    true_and] at h
  have hclosing := congrArg closing h
  rw [closing_jsonBody, closing_jsonBody, Option.some.injEq, Prod.mk.injEq] at hclosing
  refine ⟨?_, hclosing.2⟩
  have hquoted : quoted s = quoted s' := by rw [quoted, hclosing.1, quoted]
  have hparse := parseJson_quoted s
  rw [hquoted, parseJson_quoted] at hparse
  exact (Option.some.inj hparse).symm

/-! ### Paths -/

/-- What follows the first string of a path. -/
def pathTail : List JsString → Text
  | [] => [']']
  | s :: path => ',' :: (quoted s ++ pathTail path)

theorem stringifyPath_cons (s : JsString) (path : List JsString) :
    stringifyPath (s :: path) = '[' :: (quoted s ++ pathTail path) := by
  induction path generalizing s with
  | nil => simp [stringifyPath, pathTail, List.intercalate]
  | cons t path ih =>
    have ht := List.cons.inj (ih t)
    rw [pathTail, ← ht.2, stringifyPath]
    simp [List.intercalate]

theorem pathTail_injective {path path' : List JsString} (h : pathTail path = pathTail path') :
    path = path' := by
  induction path generalizing path' with
  | nil =>
    cases path' with
    | nil => rfl
    | cons s' path' => exact absurd (List.cons.inj h).1 (by decide)
  | cons s path ih =>
    cases path' with
    | nil => exact absurd (List.cons.inj h).1 (by decide)
    | cons s' path' =>
      obtain ⟨rfl, hrest⟩ := quoted_append_inj (List.cons.inj h).2
      rw [ih hrest]

theorem stringifyPath_injective {path path' : List JsString}
    (h : stringifyPath path = stringifyPath path') : path = path' := by
  cases path with
  | nil =>
    cases path' with
    | nil => rfl
    | cons s' path' =>
      rw [stringifyPath_cons] at h
      exact absurd (List.cons.inj (List.cons.inj h).2).1 (by decide)
  | cons s path =>
    cases path' with
    | nil =>
      rw [stringifyPath_cons] at h
      exact absurd (List.cons.inj (List.cons.inj h).2).1 (by decide)
    | cons s' path' =>
      rw [stringifyPath_cons, stringifyPath_cons] at h
      obtain ⟨rfl, htail⟩ := quoted_append_inj (List.cons.inj h).2
      rw [pathTail_injective htail]

/-! ### Keys -/

/-- A key tells its path and its occurrence. -/
theorem sectionKey_inj {pathJson pathJson' : Text} {occurrence occurrence' : Nat} :
    sectionKey pathJson occurrence = sectionKey pathJson' occurrence' ↔
      pathJson = pathJson' ∧ occurrence = occurrence' := by
  constructor
  · intro h
    have hdigits : ∀ n, '#' ∉ (Nat.toDigits 10 n).reverse := by
      intro n hmem
      have hdigit := Nat.isDigit_of_mem_toDigits (by decide) (by decide) (List.mem_reverse.mp hmem)
      exact absurd hdigit (by decide)
    have hreverse := congrArg List.reverse h
    simp only [sectionKey, List.reverse_append, List.reverse_cons, List.append_assoc,
      List.singleton_append] at hreverse
    obtain ⟨hnumber, hpath⟩ := Delimited.append_sep_inj (hdigits _) (hdigits _) hreverse
    refine ⟨List.reverse_injective hpath, ?_⟩
    have hvalue := congrArg (fun digits => Nat.ofDigitChars 10 digits 0)
      (List.reverse_injective hnumber)
    simpa using hvalue
  · rintro ⟨rfl, rfl⟩
    rfl

end MarkorbitKnowledge.ChangeFeed
