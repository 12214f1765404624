import MarkorbitKnowledge.Contracts.Formats
import Mathlib.Data.Char
import Mathlib.Data.List.DropRight
import Mathlib.Data.List.Infix
import Mathlib.Data.List.Lex
import Mathlib.Tactic.IntervalCases

/-!
# Strings of documents

Two kinds of JavaScript string occur in documents.  What is decoded from UTF-8, and what is joined
from such parts, is a sequence of characters (`Text`).  A value read from JSON may hold half of a
surrogate pair, so it is a sequence of UTF-16 code units (`JsString`).  `JSON.stringify` turns the
second kind into the first and `JSON.parse` turns it back: `parseJson_quoted` is the round trip.
-/

namespace MarkorbitKnowledge.Contracts

/-- A string without halves of surrogate pairs. -/
abbrev Text := List Char

instance : LawfulBEq Text := inferInstance

/-- A string, by its UTF-16 code units. -/
abbrev JsString := List UInt16

/-! ### Text -/

/-- The UTF-16 code units of a character. -/
def utf16 (c : Char) : JsString :=
  if c.toNat < 0x10000 then [UInt16.ofNat c.toNat]
  else
    [UInt16.ofNat (0xD800 + (c.toNat - 0x10000) / 0x400),
      UInt16.ofNat (0xDC00 + (c.toNat - 0x10000) % 0x400)]

def Text.units (t : Text) : JsString := t.flatMap utf16

/-- `length` of a text. -/
def textLength (t : Text) : Nat := (t.map fun c => if c.toNat < 0x10000 then 1 else 2).sum

/-- The number of bytes `TextEncoder` writes for a text. -/
def utf8Length (t : Text) : Nat := (t.map Char.utf8Size).sum

def trimStart (t : Text) : Text := t.dropWhile isJsSpace

def trimEnd (t : Text) : Text := t.rdropWhile isJsSpace

def trimText (t : Text) : Text := trimEnd (trimStart t)

/-- `new TextDecoder("utf-8", { fatal: true }).decode`: `none` where it throws.  A leading byte order
    mark is not part of the text. -/
def decodeFatal (bytes : ByteArray) : Option Text :=
  bytes.utf8Decode?.map fun chars =>
    match chars.toList with
    | '\uFEFF' :: rest => rest
    | text => text

/-- `new TextEncoder().encode`. -/
def encodeText (t : Text) : ByteArray := (String.ofList t).toByteArray

theorem utf8Length_append (t u : Text) : utf8Length (t ++ u) = utf8Length t + utf8Length u := by
  simp [utf8Length]

theorem size_encodeText (t : Text) : (encodeText t).size = utf8Length t := by
  have hbytes : encodeText t = t.utf8Encode := rfl
  rw [hbytes, List.utf8Encode, List.size_toByteArray, List.length_flatMap, utf8Length]
  simp

/-- A text without a byte order mark is read back. -/
theorem decodeFatal_encodeText {t : Text} (h : t.head? ≠ some '\uFEFF') :
    decodeFatal (encodeText t) = some t := by
  have hdecode : (encodeText t).utf8Decode? = some t.toArray := List.utf8Decode?_utf8Encode
  rw [decodeFatal, hdecode, Option.map_some]
  cases t with
  | nil => rfl
  | cons c t =>
    have hc : c ≠ '\uFEFF' := by simpa using h
    simp [hc]

theorem trimText_trimText (t : Text) : trimText (trimText t) = trimText t := by
  have hstart : trimStart (trimText t) = trimText t := by
    cases htrim : trimText t with
    | nil => rfl
    | cons c cs =>
      obtain ⟨rest, hrest⟩ : trimText t <+: trimStart t := List.rdropWhile_prefix isJsSpace _
      have hhead := List.head?_dropWhile_not isJsSpace t
      rw [trimStart, htrim, List.cons_append] at hrest
      rw [← hrest] at hhead
      rw [trimStart, List.dropWhile_cons_of_neg (by simpa using hhead)]
  rw [trimText, hstart]
  exact List.rdropWhile_idempotent isJsSpace (trimStart t)

theorem trim_trim (s : String) : trim (trim s) = trim s := by
  have htrim : ∀ u : String, trim u = String.ofList (trimText u.toList) := fun u => rfl
  rw [htrim, htrim, String.toList_ofList, trimText_trimText]

/-! ### Strings in JSON -/

def isHighSurrogate (u : UInt16) : Bool := 0xD800 ≤ u.toNat && u.toNat ≤ 0xDBFF

def isLowSurrogate (u : UInt16) : Bool := 0xDC00 ≤ u.toNat && u.toNat ≤ 0xDFFF

/-- The character whose code units are a high and a low surrogate. -/
def surrogatePair (high low : UInt16) : Char :=
  Char.ofNat (0x10000 + (high.toNat - 0xD800) * 0x400 + (low.toNat - 0xDC00))

def hexDigit (n : Nat) : Char := if n < 10 then Char.ofNat (48 + n) else Char.ofNat (87 + n)

def hexValue (c : Char) : Option Nat :=
  if 48 ≤ c.toNat ∧ c.toNat ≤ 57 then some (c.toNat - 48)
  else if 97 ≤ c.toNat ∧ c.toNat ≤ 102 then some (c.toNat - 87)
  else if 65 ≤ c.toNat ∧ c.toNat ≤ 70 then some (c.toNat - 55)
  else none

def unicodeEscape (u : UInt16) : Text :=
  ['\\', 'u', hexDigit (u.toNat / 4096), hexDigit (u.toNat / 256 % 16),
    hexDigit (u.toNat / 16 % 16), hexDigit (u.toNat % 16)]

/-- How `JSON.stringify` writes a code unit that is not half of a pair. -/
def jsonUnit (u : UInt16) : Text :=
  if u = 0x22 then ['\\', '"']
  else if u = 0x5C then ['\\', '\\']
  else if u = 0x08 then ['\\', 'b']
  else if u = 0x09 then ['\\', 't']
  else if u = 0x0A then ['\\', 'n']
  else if u = 0x0C then ['\\', 'f']
  else if u = 0x0D then ['\\', 'r']
  else if u.toNat < 0x20 ∨ isHighSurrogate u = true ∨ isLowSurrogate u = true then unicodeEscape u
  else [Char.ofNat u.toNat]

def jsonBody : JsString → Text
  | [] => []
  | [u] => jsonUnit u
  | u :: v :: us =>
    if isHighSurrogate u = true ∧ isLowSurrogate v = true then surrogatePair u v :: jsonBody us
    else jsonUnit u ++ jsonBody (v :: us)

/-- `JSON.stringify` of a string. -/
def quoted (s : JsString) : Text := '"' :: (jsonBody s ++ ['"'])

def hexUnit (a b c d : Char) : Option UInt16 := do
  let a ← hexValue a
  let b ← hexValue b
  let c ← hexValue c
  let d ← hexValue d
  pure (UInt16.ofNat (a * 4096 + b * 256 + c * 16 + d))

/-- The code unit a short escape stands for. -/
def escapedUnit (e : Char) : Option UInt16 :=
  if e = '"' then some 0x22
  else if e = '\\' then some 0x5C
  else if e = '/' then some 0x2F
  else if e = 'b' then some 0x08
  else if e = 'f' then some 0x0C
  else if e = 'n' then some 0x0A
  else if e = 'r' then some 0x0D
  else if e = 't' then some 0x09
  else none

/-- What stands between the quotes of a JSON string, from its first character to the quote that
    ends the text. -/
def parseJsonBody : Text → Option JsString
  | [] => none
  | '"' :: rest => if rest = [] then some [] else none
  | '\\' :: 'u' :: h₁ :: h₂ :: h₃ :: h₄ :: rest =>
    (hexUnit h₁ h₂ h₃ h₄).bind fun u => (parseJsonBody rest).map (u :: ·)
  | '\\' :: e :: rest => (escapedUnit e).bind fun u => (parseJsonBody rest).map (u :: ·)
  | c :: rest =>
    if c = '\\' ∨ c.toNat < 0x20 then none else (parseJsonBody rest).map (utf16 c ++ ·)
termination_by structural t => t

/-- `JSON.parse` of a text that begins with a quote, which yields a string or throws. -/
def parseJsonString : Text → Option JsString
  | [] => none
  | _ :: rest => parseJsonBody rest

/-! ### The round trip -/

theorem toNat_ofNat_lt {n : Nat} (h : n < 0xD800) : (Char.ofNat n).toNat = n := by
  rw [Char.ofNat, dif_pos (Or.inl h)]
  rfl

theorem toNat_ofNat_gt {n : Nat} (h : 0xDFFF < n) (h' : n < 0x110000) :
    (Char.ofNat n).toNat = n := by
  rw [Char.ofNat, dif_pos (Or.inr ⟨h, h'⟩)]
  rfl

theorem hexValue_hexDigit {n : Nat} (h : n < 16) : hexValue (hexDigit n) = some n := by
  interval_cases n <;> rfl

theorem hexUnit_unicodeEscape (u : UInt16) :
    hexUnit (hexDigit (u.toNat / 4096)) (hexDigit (u.toNat / 256 % 16))
      (hexDigit (u.toNat / 16 % 16)) (hexDigit (u.toNat % 16)) = some u := by
  have hu := u.toNat_lt
  have hvalue : u.toNat / 4096 * 4096 + u.toNat / 256 % 16 * 256 + u.toNat / 16 % 16 * 16 +
      u.toNat % 16 = u.toNat := by omega
  simp only [hexUnit, hexValue_hexDigit (show u.toNat / 4096 < 16 by omega),
    hexValue_hexDigit (Nat.mod_lt _ (by decide : 0 < 16)), Option.bind_eq_bind,
    Option.bind_some, Option.pure_def, hvalue, UInt16.ofNat_toNat]

theorem parseJsonBody_unicodeEscape (u : UInt16) (rest : Text) :
    parseJsonBody (unicodeEscape u ++ rest) = (parseJsonBody rest).map (u :: ·) := by
  simp [unicodeEscape, parseJsonBody, hexUnit_unicodeEscape]

theorem utf16_ofNat {u : UInt16} (h : ¬(isHighSurrogate u = true ∨ isLowSurrogate u = true)) :
    utf16 (Char.ofNat u.toNat) = [u] ∧ (Char.ofNat u.toNat).toNat = u.toNat := by
  have hu := u.toNat_lt
  simp only [isHighSurrogate, isLowSurrogate, Bool.and_eq_true, decide_eq_true_eq] at h
  have hvalue : (Char.ofNat u.toNat).toNat = u.toNat := by
    by_cases hlow : u.toNat < 0xD800
    · exact toNat_ofNat_lt hlow
    · exact toNat_ofNat_gt (by omega) (by omega)
  refine ⟨?_, hvalue⟩
  rw [utf16, hvalue, if_pos hu, UInt16.ofNat_toNat]

theorem utf16_surrogatePair {u v : UInt16} (hu : isHighSurrogate u = true)
    (hv : isLowSurrogate v = true) :
    utf16 (surrogatePair u v) = [u, v] ∧ 0x10000 ≤ (surrogatePair u v).toNat := by
  simp only [isHighSurrogate, isLowSurrogate, Bool.and_eq_true, decide_eq_true_eq] at hu hv
  have hvalue : (surrogatePair u v).toNat =
      0x10000 + (u.toNat - 0xD800) * 0x400 + (v.toNat - 0xDC00) :=
    toNat_ofNat_gt (by omega) (by omega)
  refine ⟨?_, by omega⟩
  rw [utf16, if_neg (by omega), hvalue]
  have hhigh : 0xD800 + (0x10000 + (u.toNat - 0xD800) * 0x400 + (v.toNat - 0xDC00) - 0x10000) /
      0x400 = u.toNat := by omega
  have hlow : 0xDC00 + (0x10000 + (u.toNat - 0xD800) * 0x400 + (v.toNat - 0xDC00) - 0x10000) %
      0x400 = v.toNat := by omega
  rw [hhigh, hlow, UInt16.ofNat_toNat, UInt16.ofNat_toNat]

/-- A character that `JSON.stringify` leaves alone stands for its own code units. -/
theorem parseJsonBody_plain {c : Char} (hquote : c ≠ '"') (hslash : c ≠ '\\')
    (hcontrol : 0x20 ≤ c.toNat) {rest : Text} (hrest : rest ≠ []) :
    parseJsonBody (c :: rest) = (parseJsonBody rest).map (utf16 c ++ ·) := by
  cases rest with
  | nil => exact absurd rfl hrest
  | cons e rest => simp [parseJsonBody, hslash, Nat.not_lt.mpr hcontrol]

theorem parseJsonBody_jsonUnit (u : UInt16) {rest : Text} (hrest : rest ≠ []) :
    parseJsonBody (jsonUnit u ++ rest) = (parseJsonBody rest).map (u :: ·) := by
  unfold jsonUnit
  iterate 7
    split
    · rename_i h
      subst h
      rfl
  split
  · exact parseJsonBody_unicodeEscape u rest
  · rename_i hquote hslash _ _ _ _ _ hplain
    rw [not_or] at hplain
    obtain ⟨hunits, hvalue⟩ := utf16_ofNat hplain.2
    have hne : ∀ c : Char, u ≠ UInt16.ofNat c.toNat → Char.ofNat u.toNat ≠ c := by
      intro c hc h
      exact hc (by rw [← h, hvalue, UInt16.ofNat_toNat])
    have hcontrol : 0x20 ≤ (Char.ofNat u.toNat).toNat := by omega
    have := parseJsonBody_plain (hne '"' hquote) (hne '\\' hslash) hcontrol hrest
    rw [List.singleton_append, this, hunits]
    rfl

theorem parseJsonBody_jsonBody (s : JsString) : parseJsonBody (jsonBody s ++ ['"']) = some s := by
  induction s using jsonBody.induct with
  | case1 => rfl
  | case2 u =>
    rw [jsonBody, parseJsonBody_jsonUnit u (by simp)]
    rfl
  | case3 u v us hpair ih =>
    obtain ⟨hunits, hvalue⟩ := utf16_surrogatePair hpair.1 hpair.2
    have hne : ∀ c : Char, c.toNat < 0x10000 → surrogatePair u v ≠ c := by
      intro c hc h
      rw [h] at hvalue
      omega
    rw [jsonBody, if_pos hpair, List.cons_append,
      parseJsonBody_plain (hne '"' (by decide)) (hne '\\' (by decide)) (by omega) (by simp), ih,
      hunits]
    rfl
  | case4 u v us hpair ih =>
    rw [jsonBody, if_neg hpair, List.append_assoc, parseJsonBody_jsonUnit u (by simp), ih]
    rfl

/-- What `JSON.stringify` writes for a string, `JSON.parse` reads as that string. -/
theorem parseJson_quoted (s : JsString) : parseJsonString (quoted s) = some s :=
  parseJsonBody_jsonBody s

end MarkorbitKnowledge.Contracts
