import MarkorbitKnowledge.Contracts.Text
import Mathlib.Algebra.Order.Field.Power
import Mathlib.Data.Nat.Digits.Lemmas
import Mathlib.Data.Rat.Defs
import Mathlib.Tactic.FieldSimp
import Mathlib.Tactic.Ring

/-!
# Texts that end where they must

What `JSON.stringify` writes for numbers and strings, and lists of texts joined by commas.  None of these
texts goes on where another one ends, as long as a comma or a closing bracket comes next
(`Unique`), so a text made of them can be taken apart in one way only.
-/

namespace MarkorbitKnowledge.Contracts

/-! ### Numbers -/

/-- A finite number by the shortest decimal that is read as it, `digits * 10 ^ exponent`. -/
inductive JsonNumber where
  | zero
  | decimal (negative : Bool) (digits : Nat) (exponent : Int) (shortest : digits % 10 ≠ 0)
deriving DecidableEq

def digitChar (n : Nat) : Char := Char.ofNat (48 + n)

def digitsText (n : Nat) : Text := (Nat.digits 10 n).reverse.map digitChar

/-- Digits with a point after the first. -/
def pointed : Text → Text
  | d :: d' :: rest => d :: '.' :: d' :: rest
  | digits => digits

/-- The text of a positive number in exponential notation, `power` being that of its first digit. -/
def exponentialText (digits : Text) (power : Int) : Text :=
  pointed digits ++ 'e' :: (if 0 ≤ power then '+' else '-') :: digitsText power.natAbs

/-- `Number::toString` of a positive number. -/
def decimalText (digits : Nat) (exponent : Int) : Text :=
  let text := digitsText digits
  let n : Int := text.length + exponent
  if 0 ≤ exponent ∧ n ≤ 21 then text ++ List.replicate exponent.toNat '0'
  else if 0 < n ∧ n ≤ 21 then text.take n.toNat ++ '.' :: text.drop n.toNat
  else if -6 < n ∧ n ≤ 0 then '0' :: '.' :: (List.replicate (-n).toNat '0' ++ text)
  else exponentialText text (n - 1)

def numberText : JsonNumber → Text
  | .zero => ['0']
  | .decimal negative digits exponent _ =>
    (if negative then ['-'] else []) ++ decimalText digits exponent

/-! ### The value of a number's text -/

def digitValue (c : Char) : Nat := c.toNat - 48

def readDigits (t : Text) : Nat := Nat.ofDigits 10 (t.reverse.map digitValue)

def readExponent : Text → Int
  | [] => 0
  | sign :: t => if sign = '-' then -readDigits t else readDigits t

/-- The number that a text without a sign stands for. -/
def readDecimal (t : Text) : ℚ :=
  let mantissa := t.takeWhile fun c => c != 'e'
  let fraction := (mantissa.dropWhile fun c => c != '.').tail
  readDigits ((mantissa.takeWhile fun c => c != '.') ++ fraction) *
    10 ^ (readExponent (t.dropWhile fun c => c != 'e').tail - fraction.length)

theorem digitValue_digitChar {n : Nat} (h : n < 10) : digitValue (digitChar n) = n := by
  interval_cases n <;> rfl

theorem readDigits_append (t u : Text) :
    readDigits (t ++ u) = readDigits t * 10 ^ u.length + readDigits u := by
  rw [readDigits, List.reverse_append, List.map_append, Nat.ofDigits_append, List.length_map,
    List.length_reverse, ← readDigits, ← readDigits]
  ring

theorem readDigits_digitsText (n : Nat) : readDigits (digitsText n) = n := by
  rw [readDigits, digitsText, ← List.map_reverse, List.reverse_reverse, List.map_map]
  have hdigits : (Nat.digits 10 n).map (digitValue ∘ digitChar) = Nat.digits 10 n :=
    (List.map_congr_left fun d hd =>
      digitValue_digitChar (Nat.digits_lt_base (by decide) hd)).trans (List.map_id _)
  rw [hdigits, Nat.ofDigits_digits]

theorem readDigits_zeros (n : Nat) : readDigits (List.replicate n '0') = 0 := by
  rw [readDigits, List.reverse_replicate, List.map_replicate]
  exact Nat.ofDigits_replicate_zero

theorem mem_digitsText {n : Nat} {c : Char} (h : c ∈ digitsText n) : c.isDigit = true := by
  obtain ⟨d, hd, rfl⟩ := List.mem_map.mp h
  have hlt : d < 10 := Nat.digits_lt_base (by decide) (List.mem_reverse.mp hd)
  interval_cases d <;> rfl

theorem digitsText_ne_nil {n : Nat} (h : 0 < n) : digitsText n ≠ [] := by
  simp [digitsText, Nat.digits_ne_nil_iff_ne_zero, h.ne']

/-! ### Splitting at a character -/

section Splitting

variable {c : Char} {t u : Text}

theorem takeWhile_split (h : c ∉ t) : (t ++ c :: u).takeWhile (fun d => d != c) = t := by
  rw [List.takeWhile_append_of_pos fun d hd => by simpa using fun heq : d = c => h (heq ▸ hd)]
  simp

theorem dropWhile_split (h : c ∉ t) : (t ++ c :: u).dropWhile (fun d => d != c) = c :: u := by
  rw [List.dropWhile_append_of_pos fun d hd => by simpa using fun heq : d = c => h (heq ▸ hd)]
  simp

theorem takeWhile_whole (h : c ∉ t) : t.takeWhile (fun d => d != c) = t :=
  List.takeWhile_eq_self_iff.mpr fun d hd => by simpa using fun heq : d = c => h (heq ▸ hd)

theorem dropWhile_whole (h : c ∉ t) : t.dropWhile (fun d => d != c) = [] :=
  List.dropWhile_eq_nil_iff.mpr fun d hd => by simpa using fun heq : d = c => h (heq ▸ hd)

end Splitting

/-! ### The text stands for the number -/

theorem not_mem_of_isDigit {c : Char} {t : Text} (ht : ∀ d ∈ t, d.isDigit = true)
    (hc : c.isDigit = false) : c ∉ t := by
  intro hmem
  rw [ht c hmem] at hc
  cases hc

/-- Digits with a point before some of them, and an exponent if there is one. -/
theorem readDecimal_point (whole fraction : Text) (exponent : Option Text)
    (hwhole : ∀ d ∈ whole, d.isDigit = true) (hfraction : ∀ d ∈ fraction, d.isDigit = true) :
    readDecimal (whole ++ '.' :: fraction ++ (exponent.map ('e' :: ·)).getD []) =
      readDigits (whole ++ fraction) * 10 ^ (readExponent (exponent.getD []) - fraction.length) := by
  have hpoint : '.' ∉ whole := not_mem_of_isDigit hwhole rfl
  have hletter : 'e' ∉ whole ++ '.' :: fraction := by
    simp [not_mem_of_isDigit hwhole (c := 'e') rfl, not_mem_of_isDigit hfraction (c := 'e') rfl]
  cases exponent with
  | none =>
    simp only [readDecimal, Option.map_none, Option.getD_none, List.append_nil, takeWhile_whole hletter,
      dropWhile_whole hletter, takeWhile_split hpoint, dropWhile_split hpoint, List.tail_cons,
      List.tail_nil]
  | some exponent =>
    simp only [readDecimal, Option.map_some, Option.getD_some, takeWhile_split hletter,
      dropWhile_split hletter, takeWhile_split hpoint, dropWhile_split hpoint, List.tail_cons]

/-- Digits without a point, and an exponent if there is one. -/
theorem readDecimal_whole (whole : Text) (exponent : Option Text)
    (hwhole : ∀ d ∈ whole, d.isDigit = true) :
    readDecimal (whole ++ (exponent.map ('e' :: ·)).getD []) =
      readDigits whole * 10 ^ readExponent (exponent.getD []) := by
  have hpoint : '.' ∉ whole := not_mem_of_isDigit hwhole rfl
  have hletter : 'e' ∉ whole := not_mem_of_isDigit hwhole rfl
  cases exponent with
  | none =>
    simp [readDecimal, takeWhile_whole hletter, dropWhile_whole hletter, takeWhile_whole hpoint,
      dropWhile_whole hpoint]
  | some exponent =>
    simp [readDecimal, takeWhile_split hletter, dropWhile_split hletter, takeWhile_whole hpoint,
      dropWhile_whole hpoint]

theorem readExponent_power (power : Int) :
    readExponent ((if 0 ≤ power then '+' else '-') :: digitsText power.natAbs) = power := by
  rw [readExponent, readDigits_digitsText]
  split_ifs with hsign hminus hminus
  · exact absurd hminus (by decide)
  · omega
  · omega
  · exact absurd rfl hminus

theorem readDecimal_exponentialText {n : Nat} (hn : 0 < n) (power : Int) :
    readDecimal (exponentialText (digitsText n) power) =
      n * 10 ^ (power + 1 - (digitsText n).length) := by
  have hdigits : ∀ d ∈ digitsText n, d.isDigit = true := fun d => mem_digitsText
  have hvalue := readDigits_digitsText n
  have hpower := readExponent_power power
  set exponent : Text := (if 0 ≤ power then '+' else '-') :: digitsText power.natAbs with hexponent
  rw [exponentialText, ← hexponent]
  rcases htext : digitsText n with _ | ⟨d, _ | ⟨d', rest⟩⟩
  · exact absurd htext (digitsText_ne_nil hn)
  · rw [htext] at hdigits hvalue
    have hread := readDecimal_whole [d] (some exponent) hdigits
    rw [Option.map_some, Option.getD_some, Option.getD_some] at hread
    rw [pointed, hread, hvalue, hpower]
    · congr 2
      simp
    · simp
  · rw [htext] at hdigits hvalue
    have hread : readDecimal (d :: '.' :: (d' :: rest ++ 'e' :: exponent)) =
        readDigits (d :: d' :: rest) * 10 ^ (readExponent exponent - (d' :: rest).length) :=
      readDecimal_point [d] (d' :: rest) (some exponent) (by simpa using hdigits d (by simp))
        fun c hc => hdigits c (List.mem_cons_of_mem _ hc)
    rw [pointed, List.cons_append, List.cons_append]
    rw [hread, hvalue, hpower]
    congr 2
    simp only [List.length_cons]
    push_cast
    ring

/-- The text of a positive number is read as that number. -/
theorem readDecimal_decimalText {digits : Nat} (hpos : 0 < digits) (exponent : Int) :
    readDecimal (decimalText digits exponent) = digits * 10 ^ exponent := by
  have hdigits : ∀ d ∈ digitsText digits, d.isDigit = true := fun d => mem_digitsText
  have hvalue := readDigits_digitsText digits
  have hzeros : ∀ k, ∀ d ∈ List.replicate k '0', d.isDigit = true := by
    intro k d hd
    rw [List.eq_of_mem_replicate hd]
    rfl
  rw [decimalText]
  obtain ⟨text, htext⟩ : ∃ text, digitsText digits = text := ⟨_, rfl⟩
  rw [htext] at hdigits hvalue ⊢
  split_ifs with hinteger hpoint hsmall
  · have hread := readDecimal_whole (text ++ List.replicate exponent.toNat '0') none
      (List.forall_mem_append.mpr ⟨hdigits, hzeros _⟩)
    simp only [Option.map_none, Option.getD_none, List.append_nil] at hread
    rw [hread, readDigits_append, hvalue, readDigits_zeros, List.length_replicate, readExponent, zpow_zero,
      mul_one]
    push_cast
    rw [add_zero, ← zpow_natCast, Int.toNat_of_nonneg hinteger.1]
  · obtain ⟨k, hk⟩ := Int.eq_ofNat_of_zero_le hpoint.1.le
    have hread := readDecimal_point (text.take k) (text.drop k) none
      (fun d hd => hdigits d (List.mem_of_mem_take hd)) fun d hd => hdigits d (List.mem_of_mem_drop hd)
    simp only [Option.map_none, Option.getD_none, List.append_nil, List.take_append_drop, hvalue] at hread
    rw [hk, Int.toNat_natCast, hread, readExponent, List.length_drop]
    congr 2
    omega
  · have hread := readDecimal_point ['0']
      (List.replicate (-(text.length + exponent)).toNat '0' ++ text) none
      (by simp) (List.forall_mem_append.mpr ⟨hzeros _, hdigits⟩)
    simp only [Option.map_none, Option.getD_none, List.append_nil, List.singleton_append] at hread
    rw [hread, ← List.singleton_append, readDigits_append, readDigits_append, readDigits_zeros, hvalue,
      readExponent, List.length_append, List.length_replicate]
    have hzero : readDigits ['0'] = 0 := rfl
    rw [hzero]
    congr 2
    · ring
    · omega
  · rw [← htext, readDecimal_exponentialText hpos]
    congr 2
    omega

/-- A decimal whose digits do not end in a zero is the only one of its value. -/
theorem decimal_unique {m n : Nat} {e f : Int} (hm : m % 10 ≠ 0) (hn : n % 10 ≠ 0)
    (h : (m : ℚ) * 10 ^ e = n * 10 ^ f) : m = n ∧ e = f := by
  have hle : ∀ {m n : Nat} {e f : Int}, m % 10 ≠ 0 → (m : ℚ) * 10 ^ e = n * 10 ^ f → f ≤ e := by
    intro m n e f hm h
    by_contra hlt
    obtain ⟨k, hk⟩ := Int.eq_ofNat_of_zero_le (Int.sub_nonneg.mpr (not_le.mp hlt).le)
    have hvalue : (m : ℚ) = n * 10 ^ k := by
      have hten : (10 : ℚ) ^ e ≠ 0 := zpow_ne_zero e (by norm_num)
      rw [show f = k + e by omega, zpow_add₀ (by norm_num), zpow_natCast, ← mul_assoc] at h
      exact mul_right_cancel₀ hten h
    have hnat : m = n * 10 ^ k := by exact_mod_cast hvalue
    obtain ⟨j, rfl⟩ : ∃ j, k = j + 1 := ⟨k - 1, by omega⟩
    refine hm ?_
    rw [hnat, pow_succ, ← mul_assoc]
    exact Nat.mul_mod_left _ _
  have hexponent : e = f := le_antisymm (hle hn h.symm) (hle hm h)
  subst hexponent
  have hten : (10 : ℚ) ^ e ≠ 0 := zpow_ne_zero e (by norm_num)
  exact ⟨by exact_mod_cast mul_right_cancel₀ hten h, rfl⟩

/-! ### What a number's text is made of -/

def isNumberChar (c : Char) : Bool := c.isDigit || c == '+' || c == '-' || c == '.' || c == 'e'

theorem isNumberChar_of_isDigit {c : Char} (h : c.isDigit = true) : isNumberChar c = true := by
  simp [isNumberChar, h]

/-- A positive number begins with a digit and has the characters of numbers only. -/
theorem decimalText_spec {digits : Nat} (hpos : 0 < digits) (exponent : Int) :
    (∀ c ∈ decimalText digits exponent, isNumberChar c = true) ∧
      ∃ d rest, decimalText digits exponent = d :: rest ∧ d.isDigit = true := by
  have hdigits : ∀ n, ∀ c ∈ digitsText n, isNumberChar c = true := fun n c hc =>
    isNumberChar_of_isDigit (mem_digitsText hc)
  have hzeros : ∀ k, ∀ c ∈ List.replicate k '0', isNumberChar c = true := by
    intro k c hc
    rw [List.eq_of_mem_replicate hc]
    rfl
  obtain ⟨d, rest, htext⟩ := List.exists_cons_of_ne_nil (digitsText_ne_nil hpos)
  have hfirst : d.isDigit = true := mem_digitsText (n := digits) (by simp [htext])
  rw [decimalText]
  split_ifs with hinteger hpoint hsmall
  · refine ⟨List.forall_mem_append.mpr ⟨hdigits _, hzeros _⟩, ?_⟩
    rw [htext]
    exact ⟨d, _, rfl, hfirst⟩
  · refine ⟨List.forall_mem_append.mpr ⟨fun c hc => hdigits _ c (List.mem_of_mem_take hc),
      List.forall_mem_cons.mpr ⟨rfl, fun c hc => hdigits _ c (List.mem_of_mem_drop hc)⟩⟩, ?_⟩
    obtain ⟨k, hk⟩ : ∃ k, ((digitsText digits).length + exponent : Int).toNat = k + 1 :=
      ⟨((digitsText digits).length + exponent : Int).toNat - 1, by omega⟩
    rw [hk, htext]
    exact ⟨d, _, rfl, hfirst⟩
  · refine ⟨List.forall_mem_cons.mpr ⟨rfl, List.forall_mem_cons.mpr ⟨rfl,
      List.forall_mem_append.mpr ⟨hzeros _, hdigits _⟩⟩⟩, ?_⟩
    exact ⟨'0', _, rfl, rfl⟩
  · have hpointed : ∀ c ∈ pointed (digitsText digits), isNumberChar c = true := by
      have hall := hdigits digits
      rw [htext] at hall ⊢
      cases rest with
      | nil => exact hall
      | cons d' rest =>
        obtain ⟨hd, hrest⟩ := List.forall_mem_cons.mp hall
        exact List.forall_mem_cons.mpr ⟨hd, List.forall_mem_cons.mpr ⟨rfl, hrest⟩⟩
    rw [exponentialText]
    refine ⟨List.forall_mem_append.mpr ⟨hpointed, List.forall_mem_cons.mpr ⟨rfl,
      List.forall_mem_cons.mpr ⟨by split_ifs <;> rfl, hdigits _⟩⟩⟩, ?_⟩
    rw [htext]
    cases rest with
    | nil => exact ⟨d, _, rfl, hfirst⟩
    | cons d' rest => exact ⟨d, _, rfl, hfirst⟩

theorem pos_of_mod_ne_zero {n : Nat} (h : n % 10 ≠ 0) : 0 < n := by
  by_contra hzero
  rw [Nat.eq_zero_of_not_pos hzero] at h
  exact h rfl

theorem mem_numberText {n : JsonNumber} {c : Char} (h : c ∈ numberText n) : isNumberChar c = true := by
  cases n with
  | zero =>
    rw [List.mem_singleton.mp h]
    rfl
  | decimal negative digits exponent shortest =>
    rcases List.mem_append.mp h with hsign | hdecimal
    · cases negative
      · cases hsign
      · rw [List.mem_singleton.mp hsign]
        rfl
    · exact (decimalText_spec (pos_of_mod_ne_zero shortest) exponent).1 c hdecimal

/-- The text of a number begins with a digit or a minus. -/
theorem numberText_eq_cons (n : JsonNumber) :
    ∃ c rest, numberText n = c :: rest ∧ (c.isDigit = true ∨ c = '-') := by
  cases n with
  | zero => exact ⟨'0', [], rfl, Or.inl rfl⟩
  | decimal negative digits exponent shortest =>
    obtain ⟨-, d, rest, htext, hd⟩ := decimalText_spec (pos_of_mod_ne_zero shortest) exponent
    rw [numberText, htext]
    cases negative
    · exact ⟨d, rest, rfl, Or.inl hd⟩
    · exact ⟨'-', d :: rest, rfl, Or.inr rfl⟩

/-- No two numbers have one text. -/
theorem numberText_injective {m n : JsonNumber} (h : numberText m = numberText n) : m = n := by
  have hzero : ∀ {negative digits exponent} (shortest : digits % 10 ≠ 0),
      numberText .zero ≠ numberText (.decimal negative digits exponent shortest) := by
    intro negative digits exponent shortest h
    have hpos := pos_of_mod_ne_zero shortest
    cases negative with
    | true => cases (List.cons.inj h).1
    | false =>
      have hvalue := readDecimal_decimalText hpos exponent
      have htext : decimalText digits exponent = ['0'] := h.symm
      rw [htext] at hvalue
      have hread : readDecimal ['0'] = 0 := by decide +kernel
      rw [hread] at hvalue
      exact (mul_pos (Nat.cast_pos.mpr hpos) (zpow_pos (by norm_num) exponent)).ne hvalue
  have hsign : ∀ {d e : Nat} {x y : Int}, e % 10 ≠ 0 → '-' :: decimalText d x ≠ decimalText e y := by
    intro d e x y he h
    obtain ⟨-, c, rest, htext, hc⟩ := decimalText_spec (pos_of_mod_ne_zero he) y
    rw [htext] at h
    rw [← (List.cons.inj h).1] at hc
    cases hc
  have hdecimal : ∀ {d e : Nat} {x y : Int}, d % 10 ≠ 0 → e % 10 ≠ 0 →
      decimalText d x = decimalText e y → d = e ∧ x = y := by
    intro d e x y hd he h
    refine decimal_unique hd he ?_
    rw [← readDecimal_decimalText (pos_of_mod_ne_zero hd), h,
      readDecimal_decimalText (pos_of_mod_ne_zero he)]
  cases m with
  | zero =>
    cases n with
    | zero => rfl
    | decimal => exact absurd h (hzero _)
  | decimal sign d x hd =>
    cases n with
    | zero => exact absurd h.symm (hzero _)
    | decimal sign' e y he =>
      cases sign <;> cases sign'
      · obtain ⟨rfl, rfl⟩ := hdecimal hd he h
        rfl
      · exact absurd h.symm (hsign hd)
      · exact absurd h (hsign he)
      · obtain ⟨rfl, rfl⟩ := hdecimal hd he (List.cons.inj h).2
        rfl

/-! ### Texts that end where they must -/

/-- What may come after a value: nothing, a comma or a closing bracket. -/
def Closed (t : Text) : Prop := ∀ c ∈ t.head?, c = ',' ∨ c = ']' ∨ c = '}'

/-- The text ends where any of the kind ends that begins like it. -/
def Unique (kind : Text → Prop) (t : Text) : Prop :=
  ∀ u, kind u → ∀ r r', Closed r → Closed r' → t ++ r = u ++ r' → t = u ∧ r = r'

theorem Closed.not_isNumberChar {t : Text} (h : Closed t) : ∀ c ∈ t.head?, isNumberChar c = false := by
  intro c hc
  rcases h c hc with rfl | rfl | rfl
  · rfl
  · rfl
  · rfl

theorem takeWhile_closed {t r : Text} (ht : ∀ c ∈ t, isNumberChar c = true) (hr : Closed r) :
    (t ++ r).takeWhile isNumberChar = t := by
  rw [List.takeWhile_append_of_pos ht]
  cases r with
  | nil => simp
  | cons c r => simp [hr.not_isNumberChar c rfl]

theorem unique_number (n : JsonNumber) : Unique (fun u => ∃ m, numberText m = u) (numberText n) := by
  rintro _ ⟨m, rfl⟩ r r' hr hr' h
  have htext : numberText n = numberText m := by
    rw [← takeWhile_closed (fun c hc => mem_numberText hc) hr, h,
      takeWhile_closed (fun c hc => mem_numberText hc) hr']
  rw [htext] at h
  exact ⟨htext, List.append_cancel_left h⟩

/-- The text before the quote that ends a string, and what comes after it. -/
def splitQuote : Text → Option (Text × Text)
  | [] => none
  | '"' :: rest => some ([], rest)
  | '\\' :: c :: rest => (splitQuote rest).map fun split => ('\\' :: c :: split.1, split.2)
  | c :: rest => (splitQuote rest).map fun split => (c :: split.1, split.2)

attribute [local simp] splitQuote

theorem splitQuote_plain {c : Char} (hquote : c ≠ '"') (hslash : c ≠ '\\') (t : Text) :
    splitQuote (c :: t) = (splitQuote t).map fun split => (c :: split.1, split.2) := by
  rw [splitQuote]
  · exact hquote
  · intro d rest hcons
    exact fun _ => hslash hcons

theorem hexDigit_plain {n : Nat} (h : n < 16) : hexDigit n ≠ '"' ∧ hexDigit n ≠ '\\' := by
  interval_cases n <;> decide

theorem splitQuote_unicodeEscape (u : UInt16) (t : Text) :
    splitQuote (unicodeEscape u ++ t) =
      (splitQuote t).map fun split => (unicodeEscape u ++ split.1, split.2) := by
  have hu := u.toNat_lt
  have hplain : ∀ {n : Nat}, n < 16 → ∀ t : Text, splitQuote (hexDigit n :: t) =
      (splitQuote t).map fun split => (hexDigit n :: split.1, split.2) := fun h =>
    splitQuote_plain (hexDigit_plain h).1 (hexDigit_plain h).2
  simp only [unicodeEscape, List.cons_append, List.nil_append, splitQuote]
  rw [hplain (by omega), hplain (Nat.mod_lt _ (by decide)), hplain (Nat.mod_lt _ (by decide)),
    hplain (Nat.mod_lt _ (by decide))]
  simp only [Option.map_map]
  rfl

theorem splitQuote_jsonUnit (u : UInt16) (t : Text) :
    splitQuote (jsonUnit u ++ t) =
      (splitQuote t).map fun split => (jsonUnit u ++ split.1, split.2) := by
  unfold jsonUnit
  iterate 7
    split
    · rfl
  split
  · exact splitQuote_unicodeEscape u t
  · rename_i hquote hslash _ _ _ _ _ hplain
    rw [not_or] at hplain
    obtain ⟨-, hvalue⟩ := utf16_ofNat hplain.2
    have hne : ∀ c : Char, u ≠ UInt16.ofNat c.toNat → Char.ofNat u.toNat ≠ c := by
      intro c hc h
      exact hc (by rw [← h, hvalue, UInt16.ofNat_toNat])
    exact splitQuote_plain (hne '"' hquote) (hne '\\' hslash) t

theorem splitQuote_jsonBody (s : JsString) (rest : Text) :
    splitQuote (jsonBody s ++ '"' :: rest) = some (jsonBody s, rest) := by
  induction s using jsonBody.induct with
  | case1 => rfl
  | case2 u =>
    rw [jsonBody, splitQuote_jsonUnit]
    simp [splitQuote]
  | case3 u v us hpair ih =>
    obtain ⟨-, hvalue⟩ := utf16_surrogatePair hpair.1 hpair.2
    have hne : ∀ c : Char, c.toNat < 0x10000 → surrogatePair u v ≠ c := by
      intro c hc h
      rw [h] at hvalue
      omega
    rw [jsonBody, if_pos hpair, List.cons_append,
      splitQuote_plain (hne '"' (by decide)) (hne '\\' (by decide)), ih]
    rfl
  | case4 u v us hpair ih =>
    rw [jsonBody, if_neg hpair, List.append_assoc, splitQuote_jsonUnit, ih]
    rfl

/-- A string ends at its quote, whatever comes next, and no two strings have one text. -/
theorem quoted_append_inj {s t : JsString} {r r' : Text} (h : quoted s ++ r = quoted t ++ r') :
    s = t ∧ r = r' := by
  have hbody : jsonBody s ++ '"' :: r = jsonBody t ++ '"' :: r' := by
    simpa [quoted] using h
  have hsplit := splitQuote_jsonBody s r
  rw [hbody, splitQuote_jsonBody, Option.some.injEq, Prod.mk.injEq] at hsplit
  refine ⟨?_, hsplit.2.symm⟩
  have hparse := parseJsonBody_jsonBody s
  rw [← hsplit.1, parseJsonBody_jsonBody, Option.some.injEq] at hparse
  exact hparse.symm

/-! ### Lists -/

/-- `join(",")`. -/
def commaSeparated : List Text → Text
  | [] => []
  | t :: ts => t ++ ts.flatMap fun u => ',' :: u

theorem closed_cons {c : Char} {t : Text} : Closed (c :: t) ↔ c = ',' ∨ c = ']' ∨ c = '}' := by
  simp [Closed]

variable {kind : Text → Prop} {ts us : List Text} {c : Char} {r r' : Text}

theorem closed_rest (hc : c = ']' ∨ c = '}') :
    Closed ((ts.flatMap fun u => ',' :: u) ++ c :: r) := by
  cases ts with
  | nil => exact closed_cons.mpr (Or.inr hc)
  | cons t ts => exact closed_cons.mpr (Or.inl rfl)

theorem rest_unique (hc : c = ']' ∨ c = '}') (hts : ∀ t ∈ ts, Unique kind t)
    (hus : ∀ u ∈ us, kind u)
    (h : (ts.flatMap fun u => ',' :: u) ++ c :: r = (us.flatMap fun u => ',' :: u) ++ c :: r') :
    ts = us ∧ r = r' := by
  have hcomma : c ≠ ',' := by
    rcases hc with rfl | rfl <;> decide
  induction ts generalizing us with
  | nil =>
    cases us with
    | nil => exact ⟨rfl, (List.cons.inj h).2⟩
    | cons u us => exact absurd (List.cons.inj h).1 hcomma
  | cons t ts ih =>
    cases us with
    | nil => exact absurd (List.cons.inj h).1.symm hcomma
    | cons u us =>
      simp only [List.flatMap_cons, List.cons_append, List.append_assoc, List.cons.injEq,
        true_and] at h
      obtain ⟨rfl, hrest⟩ := hts t List.mem_cons_self u (hus u List.mem_cons_self) _ _
        (closed_rest hc) (closed_rest hc) h
      obtain ⟨rfl, hr⟩ := ih (fun t ht => hts t (List.mem_cons_of_mem _ ht))
        (fun u hu => hus u (List.mem_cons_of_mem _ hu)) hrest
      exact ⟨rfl, hr⟩

theorem append_ne_of_open (hc : c = ']' ∨ c = '}') {t : Text} (ht : ¬Closed t) (rest : Text) :
    t ++ rest ≠ c :: r := by
  intro h
  cases t with
  | nil => exact ht fun d hd => nomatch hd
  | cons d t =>
    rw [(List.cons.inj h).1] at ht
    exact ht (closed_cons.mpr (Or.inr hc))

/-- A bracketed list of such texts can be taken apart in one way only. -/
theorem commaSeparated_unique (kind : Text → Prop) (hc : c = ']' ∨ c = '}') (hts : ∀ t ∈ ts, Unique kind t)
    (hus : ∀ u ∈ us, kind u) (hopen : ∀ t ∈ ts ++ us, ¬Closed t)
    (h : commaSeparated ts ++ c :: r = commaSeparated us ++ c :: r') : ts = us ∧ r = r' := by
  cases ts with
  | nil =>
    cases us with
    | nil => exact ⟨rfl, (List.cons.inj h).2⟩
    | cons u us =>
      rw [commaSeparated, commaSeparated, List.append_assoc] at h
      exact absurd h.symm (append_ne_of_open hc (hopen u (by simp)) _)
  | cons t ts =>
    cases us with
    | nil =>
      rw [commaSeparated, commaSeparated, List.append_assoc] at h
      exact absurd h (append_ne_of_open hc (hopen t (by simp)) _)
    | cons u us =>
      rw [commaSeparated, commaSeparated, List.append_assoc, List.append_assoc] at h
      obtain ⟨rfl, hrest⟩ := hts t List.mem_cons_self u (hus u List.mem_cons_self) _ _
        (closed_rest hc) (closed_rest hc) h
      obtain ⟨rfl, hr⟩ := rest_unique hc (fun t ht => hts t (List.mem_cons_of_mem _ ht))
        (fun u hu => hus u (List.mem_cons_of_mem _ hu)) hrest
      exact ⟨rfl, hr⟩

end MarkorbitKnowledge.Contracts
