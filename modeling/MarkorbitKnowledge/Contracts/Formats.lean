import Mathlib.Algebra.Order.Ring.Nat
import Mathlib.Data.List.Basic
import Mathlib.Data.List.GetD
import Mathlib.Data.Prod.Lex
import Mathlib.Order.Lattice

/-!
# Text formats of the contracts

The contract validators test strings against a handful of regular expressions and length bounds.
They are written here as matchers over the characters of a string, one definition for each pattern
of the source, together with the two string primitives the repositories rely on, `trim` and the
UTF-16 `length`.

Identifiers such as `run_01J…` are 26 Crockford base-32 digits behind a fixed prefix: a value of
fixed width whose text order is its numeric order.  They are kept as that number, so a malformed
identifier cannot be written down, and `idText` gives the text back where a message quotes it.
Instants are kept as milliseconds since the epoch; every instant the repositories store is written
by `toISOString`, and `isRfc3339` is the range in which that text has a four-digit year.
-/

namespace MarkorbitKnowledge.Contracts

/-- The number written by the 26 base-32 digits of an identifier. -/
abbrev Id := Nat

/-- Milliseconds since the epoch, the time value of a JavaScript `Date`. -/
abbrev Timestamp := Int

/-- The order instants are chosen by, as the computable one of the integers. -/
instance : Preorder Timestamp := Int.instLinearOrder.toPartialOrder.toPreorder

/-- A SHA-256 digest, the number its hexadecimal text writes. -/
abbrev Digest := Nat

def CROCKFORD : List Char := "0123456789ABCDEFGHJKMNPQRSTVWXYZ".toList

/-- `encodeBase32`: the low `length` base-32 digits of `value`. -/
def encodeBase32 (value : Nat) : Nat → List Char
  | 0 => []
  | length + 1 => encodeBase32 (value / 32) length ++ [CROCKFORD.getD (value % 32) '0']

/-- The text of an identifier, such as `run_` and its 26 digits. -/
def idText (idPrefix : String) (id : Id) : String :=
  idPrefix ++ "_" ++ String.ofList (encodeBase32 id 26)

theorem length_encodeBase32 (value length : Nat) : (encodeBase32 value length).length = length := by
  induction length generalizing value with
  | zero => rfl
  | succ length ih => simp [encodeBase32, ih]

theorem mem_encodeBase32 {value length : Nat} : ∀ c ∈ encodeBase32 value length, c ∈ CROCKFORD := by
  induction length generalizing value with
  | zero => simp [encodeBase32]
  | succ length ih =>
    intro c hc
    rcases List.mem_append.mp hc with hc | hc
    · exact ih c hc
    · rw [List.mem_singleton.mp hc]
      have hlt : value % 32 < CROCKFORD.length := Nat.mod_lt _ (by decide)
      rw [List.getD_eq_getElem _ _ hlt]
      exact List.getElem_mem hlt

theorem toList_idText (idPrefix : String) (id : Id) :
    (idText idPrefix id).toList = idPrefix.toList ++ '_' :: encodeBase32 id 26 := by
  simp [idText]

theorem toDigits_injective {n m : Nat} (h : Nat.toDigits 10 n = Nat.toDigits 10 m) : n = m := by
  have hvalue := congrArg (fun digits => Nat.ofDigitChars 10 digits 0) h
  simpa using hvalue

/-! ### Strings -/

/-- `String.prototype.length`, in UTF-16 code units. -/
def jsLength (s : String) : Nat :=
  (s.toList.map fun c => if c.toNat < 0x10000 then 1 else 2).sum

/-- The characters of a text that fit into `count` UTF-16 code units. -/
def takeUnits : Nat → List Char → List Char
  | _, [] => []
  | count, c :: cs =>
    let units := if c.toNat < 0x10000 then 1 else 2
    if units ≤ count then c :: takeUnits (count - units) cs else []

/-- `String.prototype.slice(0, count)`; half a surrogate pair is dropped. -/
def sliceText (s : String) (count : Nat) : String := String.ofList (takeUnits count s.toList)

/-- White space and line terminators, as `String.prototype.trim` strips them. -/
def isJsSpace (c : Char) : Bool :=
  (0x09 ≤ c.toNat && c.toNat ≤ 0x0D) || c.toNat = 0x20 || c.toNat = 0xA0 || c.toNat = 0x1680 ||
    (0x2000 ≤ c.toNat && c.toNat ≤ 0x200A) || c.toNat = 0x2028 || c.toNat = 0x2029 ||
    c.toNat = 0x202F || c.toNat = 0x205F || c.toNat = 0x3000 || c.toNat = 0xFEFF

/-- A line terminator, which `.` does not match in a pattern. -/
def isLineTerminator (c : Char) : Bool :=
  c = '\n' || c = '\r' || c.toNat = 0x2028 || c.toNat = 0x2029

/-- `String.prototype.trim`. -/
def trim (s : String) : String :=
  String.ofList (((s.toList.dropWhile isJsSpace).reverse.dropWhile isJsSpace).reverse)

/-- A text that starts and ends with no white space is trimmed already. -/
theorem trim_eq_self {s : String} (hfirst : ∀ c ∈ s.toList.head?, isJsSpace c = false)
    (hlast : ∀ c ∈ s.toList.getLast?, isJsSpace c = false) : trim s = s := by
  have hdrop : ∀ t : List Char, (∀ c ∈ t.head?, isJsSpace c = false) → t.dropWhile isJsSpace = t := by
    intro t ht
    cases t with
    | nil => rfl
    | cons c t => rw [List.dropWhile_cons_of_neg (by simpa using ht c rfl)]
  rw [trim, hdrop _ hfirst, hdrop _ (by simpa using hlast), List.reverse_reverse, String.ofList_toList]

def isLowerAlnum (c : Char) : Bool := c.isDigit || ('a' ≤ c && c ≤ 'z')

def isAlnum (c : Char) : Bool := isLowerAlnum c || ('A' ≤ c && c ≤ 'Z')

theorem isJsSpace_of_isAlnum {c : Char} (h : isAlnum c = true) : isJsSpace c = false := by
  simp only [isAlnum, isLowerAlnum, Char.isDigit, Bool.or_eq_true, Bool.and_eq_true,
    decide_eq_true_eq] at h
  have hrange : 48 ≤ c.toNat ∧ c.toNat ≤ 122 := by
    rcases h with (⟨hlow, hhigh⟩ | ⟨hlow, hhigh⟩) | ⟨hlow, hhigh⟩
    · exact ⟨hlow, le_trans (show c.toNat ≤ 57 from hhigh) (by decide)⟩
    · exact ⟨le_trans (by decide) (show 97 ≤ c.toNat from hlow), hhigh⟩
    · exact ⟨le_trans (by decide) (show 65 ≤ c.toNat from hlow),
        le_trans (show c.toNat ≤ 90 from hhigh) (by decide)⟩
  simp only [isJsSpace, Bool.or_eq_false_iff, Bool.and_eq_false_iff, decide_eq_false_iff_not]
  omega

theorem isAlnum_of_crockford {c : Char} (h : c ∈ CROCKFORD) : isAlnum c = true := by
  have hall : CROCKFORD.all isAlnum = true := by decide
  exact List.all_eq_true.mp hall c h

/-- `/^[a-z0-9]+(?:-[a-z0-9]+)*$/`, the pattern of connector and executor ids. -/
def isSlug (s : String) : Bool :=
  (s.toList.splitOn '-').all fun part => !part.isEmpty && part.all isLowerAlnum

/-- `/^[a-z0-9]+(?:[._-][a-z0-9]+)*$/`, the pattern of runtime ids. -/
def isRuntimeId (s : String) : Bool :=
  (s.toList.splitOnP fun c => c == '.' || c == '_' || c == '-').all fun part =>
    !part.isEmpty && part.all isLowerAlnum

/-- A non-empty run of `p` characters, and what follows it. -/
def oneOrMore (p : Char → Bool) (cs : List Char) : Option (List Char) :=
  if (cs.takeWhile p).isEmpty then none else some (cs.dropWhile p)

def literal (c : Char) : List Char → Option (List Char)
  | d :: cs => if d = c then some cs else none
  | [] => none

def isLabelChar (c : Char) : Bool := isAlnum c || c == '.' || c == '-'

/-- An optional suffix `c [0-9A-Za-z.-]+`. -/
def labelSuffix (c : Char) (cs : List Char) : List Char :=
  match literal c cs with
  | some rest => (oneOrMore isLabelChar rest).getD cs
  | none => cs

/-- `/^\d+\.\d+\.\d+(?:-[0-9A-Za-z.-]+)?(?:\+[0-9A-Za-z.-]+)?$/`. -/
def isSemver (s : String) : Bool :=
  let core := do
    let rest ← oneOrMore Char.isDigit s.toList
    let rest ← oneOrMore Char.isDigit (← literal '.' rest)
    oneOrMore Char.isDigit (← literal '.' rest)
  match core with
  | some rest => (labelSuffix '+' (labelSuffix '-' rest)).isEmpty
  | none => false

/-- `/^[A-Z][A-Z0-9_]{2,99}$/`, the pattern of execution failure codes. -/
def isFailureCode (s : String) : Bool :=
  match s.toList with
  | c :: cs => ('A' ≤ c && c ≤ 'Z') && 2 ≤ cs.length && cs.length ≤ 99 &&
      cs.all fun d => ('A' ≤ d && d ≤ 'Z') || d.isDigit || d == '_'
  | [] => false

/-- `/^[A-Za-z][A-Za-z0-9+.-]*:/`. -/
def isUri (s : String) : Bool :=
  match s.toList with
  | c :: cs => (isAlnum c && !c.isDigit) &&
      (cs.dropWhile fun d => isAlnum d || d == '+' || d == '.' || d == '-').head? == some ':'
  | [] => false

/-- `isBoundedText`: not blank, and at most `max` long. -/
def isBoundedText (s : String) (max : Nat) : Bool :=
  decide (0 < jsLength (trim s)) && decide (jsLength s ≤ max)

/-! ### Instants -/

/-- `toISOString` of an instant has the four-digit year that `isRfc3339` asks for. -/
def isRfc3339 (t : Timestamp) : Bool :=
  decide (-62167219200000 ≤ t) && decide (t ≤ 253402300799999)

/-- The decimal digits of `n`, padded with zeros to `width`. -/
def padDecimal (width n : Nat) : String :=
  let digits := (toString n).toList
  String.ofList (List.replicate (width - digits.length) '0' ++ digits)

/-- Year, month and day of a day counted from 1970-01-01, in the proleptic Gregorian calendar. -/
def civilFromDays (days : Int) : Int × Nat × Nat :=
  let z := days + 719468
  let era := z / 146097
  let doe := (z % 146097).toNat
  let yoe := (doe - doe / 1460 + doe / 36524 - doe / 146096) / 365
  let doy := doe - (365 * yoe + yoe / 4 - yoe / 100)
  let mp := (5 * doy + 2) / 153
  let day := doy - (153 * mp + 2) / 5 + 1
  let month := if mp < 10 then mp + 3 else mp - 9
  (yoe + era * 400 + (if month ≤ 2 then 1 else 0), month, day)

/-- `Date.prototype.toISOString`. -/
def toISOString (t : Timestamp) : String :=
  let (year, month, day) := civilFromDays (t / 86400000)
  let ms := (t % 86400000).toNat
  let yearText :=
    if year < 0 then "-" ++ padDecimal 6 year.natAbs
    else if year ≤ 9999 then padDecimal 4 year.natAbs
    else "+" ++ padDecimal 6 year.natAbs
  yearText ++ "-" ++ padDecimal 2 month ++ "-" ++ padDecimal 2 day ++ "T" ++
    padDecimal 2 (ms / 3600000) ++ ":" ++ padDecimal 2 (ms / 60000 % 60) ++ ":" ++
    padDecimal 2 (ms / 1000 % 60) ++ "." ++ padDecimal 3 (ms % 1000) ++ "Z"

example : toISOString 1785499200123 = "2026-07-31T12:00:00.123Z" := by decide

/-- The instants a JavaScript `Date` can hold; `toISOString` throws on any other. -/
def isDate (t : Timestamp) : Bool := decide (t.natAbs ≤ 8640000000000000)

/-- The place of the text `toISOString t` in the text order: the years written with `+` come first,
    then those written with `-`, each year before the one it follows in time, then the years of four
    digits. -/
def isoOrder (t : Timestamp) : Nat ×ₗ Int ×ₗ Timestamp :=
  if 253402300799999 < t then toLex (1, toLex (0, t))
  else if t < -62167219200000 then toLex (2, toLex (-(civilFromDays (t / 86400000)).1, t))
  else toLex (3, toLex (0, t))

theorem isoOrder_of_rfc3339 {t : Timestamp} (h : isRfc3339 t = true) :
    isoOrder t = toLex (3, toLex (0, t)) := by
  simp only [isRfc3339, Bool.and_eq_true, decide_eq_true_eq] at h
  rw [isoOrder, if_neg (Int.not_lt.mpr h.2), if_neg (Int.not_lt.mpr h.1)]

theorem isoOrder_le_iff {t u : Timestamp} (ht : isRfc3339 t = true) (hu : isRfc3339 u = true) :
    isoOrder t ≤ isoOrder u ↔ t ≤ u := by
  rw [isoOrder_of_rfc3339 ht, isoOrder_of_rfc3339 hu]
  simp [Prod.Lex.toLex_le_toLex]

theorem isoOrder_lt_iff {t u : Timestamp} (ht : isRfc3339 t = true) (hu : isRfc3339 u = true) :
    isoOrder t < isoOrder u ↔ t < u := by
  rw [isoOrder_of_rfc3339 ht, isoOrder_of_rfc3339 hu]
  simp [Prod.Lex.toLex_lt_toLex]

/-- The years of four digits come last. -/
theorem isRfc3339_of_isoOrder_lt {t u : Timestamp} (ht : isRfc3339 t = true)
    (h : isoOrder t < isoOrder u) : isRfc3339 u = true := by
  rw [isoOrder_of_rfc3339 ht] at h
  unfold isoOrder at h
  split at h
  · simp [Prod.Lex.toLex_lt_toLex] at h
  · split at h
    · simp [Prod.Lex.toLex_lt_toLex] at h
    · rename_i hlast hfirst
      simp only [isRfc3339, Bool.and_eq_true, decide_eq_true_eq]
      exact ⟨Int.not_lt.mp hfirst, Int.not_lt.mp hlast⟩

/-- What `Intl.DateTimeFormat` reads off an instant in a time zone. -/
structure DateParts where
  year : Int
  month : Nat
  day : Nat
  hour : Nat
  minute : Nat

/-! ### Extensions -/

/-- A JSON value inside `extensions`: its canonical text, and the names of the members of all the
    objects in it. -/
structure ExtensionValue where
  canonicalText : String
  memberNames : List String
deriving DecidableEq

/-- The members of an `extensions` object, ordered by key. -/
abbrev Extensions := List (String × ExtensionValue)

/-- `/^x-[a-z0-9][a-z0-9.-]*$/`. -/
def isExtensionKey (key : String) : Bool :=
  match key.toList with
  | 'x' :: '-' :: c :: cs => isLowerAlnum c && cs.all fun d => isLowerAlnum d || d == '.' || d == '-'
  | _ => false

def normalizedSecretKey (key : String) : String :=
  String.ofList ((key.toList.map Char.toLower).filter fun c => !(c == '-' || c == '_' || isJsSpace c))

def forbiddenSecretKeys : List String :=
  ["password", "token", "apikey", "apisecret", "clientsecret", "privatekey", "accesskey", "secret"]

def hasForbiddenSecretValue (extensions : Extensions) : Bool :=
  extensions.any fun member =>
    (member.1 :: member.2.memberNames).any fun name =>
      forbiddenSecretKeys.contains (normalizedSecretKey name)

def isExtensions (extensions : Extensions) : Bool :=
  extensions.all (fun member => isExtensionKey member.1) && !hasForbiddenSecretValue extensions

def optionalExtensions : Option Extensions → Bool
  | none => true
  | some extensions => isExtensions extensions

/-- `extensionsMatch`: equality of the canonical JSON of the two values, absent being `null`. -/
def extensionsMatch (left right : Option Extensions) : Bool := decide (left = right)

end MarkorbitKnowledge.Contracts
