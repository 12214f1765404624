import MarkorbitKnowledge.Lib.Occurrences
import MarkorbitKnowledge.Scheduler.Cron
import Mathlib.Data.List.Nodup
import Mathlib.Data.List.Perm.Subperm
import Mathlib.Order.Bounds.Basic

/-!
# What a cron expression says

The five-field expressions over numbers, `*`, ranges, steps and lists as a syntax: its texts, its
meaning and the expressions that stay within the bounds of their fields.  `parseCron_text` says that
the parser accepts the text of an expression exactly when it is one of these, and reads its meaning;
`nextCronOccurrence_exact` that the occurrence found is the first minute the meaning admits.
-/

namespace MarkorbitKnowledge.Scheduler

open Contracts Execution Fallible

/-! ### Syntax -/

/-- Decimal digits, at least one of them; leading zeros are allowed. -/
structure Numeral where
  digits : List Char
  nonempty : digits ≠ []
  decimal : digits.all Char.isDigit = true

def Numeral.value (numeral : Numeral) : Nat :=
  numeral.digits.foldl (fun n c => 10 * n + (c.toNat - '0'.toNat)) 0

inductive CronBase where
  | star
  | single (number : Numeral)
  | range (low high : Numeral)

structure CronSegment where
  base : CronBase
  step : Option Numeral

/-- The segments of a field, at least one. -/
structure CronList where
  first : CronSegment
  rest : List CronSegment

def CronList.segments (list : CronList) : List CronSegment := list.first :: list.rest

/-- White space. -/
structure Blank where
  chars : List Char
  space : chars.all isJsSpace = true

/-- The white space between two fields. -/
structure Gap extends Blank where
  nonempty : chars ≠ []

structure CronExpression where
  leading : Blank
  minute : CronList
  afterMinute : Gap
  hour : CronList
  afterHour : Gap
  dayOfMonth : CronList
  afterDayOfMonth : Gap
  month : CronList
  afterMonth : Gap
  dayOfWeek : CronList
  trailing : Blank

def CronBase.text : CronBase → List Char
  | .star => ['*']
  | .single number => number.digits
  | .range low high => low.digits ++ '-' :: high.digits

def CronSegment.text (segment : CronSegment) : List Char :=
  match segment.step with
  | none => segment.base.text
  | some step => segment.base.text ++ '/' :: step.digits

def CronList.text (list : CronList) : List Char :=
  List.intercalate [','] (list.segments.map CronSegment.text)

def CronExpression.text (e : CronExpression) : String :=
  String.ofList (e.leading.chars ++ (e.minute.text ++ (e.afterMinute.chars ++ (e.hour.text ++
    (e.afterHour.chars ++ (e.dayOfMonth.text ++ (e.afterDayOfMonth.chars ++ (e.month.text ++
    (e.afterMonth.chars ++ (e.dayOfWeek.text ++ e.trailing.chars))))))))))

/-! ### Meaning -/

/-- The numbers of a field, and what they stand for. -/
structure FieldDomain where
  minimum : Nat
  maximum : Nat
  normalize : Nat → Nat
  nonempty : minimum ≤ maximum

def minutes : FieldDomain := ⟨0, 59, id, by decide⟩
def hours : FieldDomain := ⟨0, 23, id, by decide⟩
def daysOfMonth : FieldDomain := ⟨1, 31, id, by decide⟩
def months : FieldDomain := ⟨1, 12, id, by decide⟩

/-- The days of the week; 7 is Sunday, as 0 is. -/
def daysOfWeek : FieldDomain := ⟨0, 7, fun value => if value = 7 then 0 else value, by decide⟩

def FieldDomain.Bounds (domain : FieldDomain) (n : Nat) : Prop :=
  domain.minimum ≤ n ∧ n ≤ domain.maximum

namespace CronSegment

variable (domain : FieldDomain) (segment : CronSegment)

/-- Every number is inside the bounds of the field, a range does not decrease, a step is positive. -/
def InBounds : Prop :=
  (match segment.base with
    | .star => True
    | .single number => domain.Bounds number.value
    | .range low high =>
      domain.Bounds low.value ∧ domain.Bounds high.value ∧ low.value ≤ high.value) ∧
    ∀ step ∈ segment.step, 0 < step.value

def low : Nat :=
  match segment.base with
  | .star => domain.minimum
  | .single number => number.value
  | .range low _ => low.value

/-- A single number with a step goes on to the end of the field. -/
def high : Nat :=
  match segment.base with
  | .star => domain.maximum
  | .single number => if segment.step.isSome then domain.maximum else number.value
  | .range _ high => high.value

def stride : Nat := (segment.step.map Numeral.value).getD 1

/-- The segment names the number. -/
def Denotes (n : Nat) : Prop :=
  segment.low domain ≤ n ∧ n ≤ segment.high domain ∧ segment.stride ∣ n - segment.low domain

end CronSegment

namespace CronList

variable (domain : FieldDomain) (list : CronList)

def InBounds : Prop := ∀ segment ∈ list.segments, segment.InBounds domain

/-- Some segment names a number that stands for the value. -/
def Denotes (value : Nat) : Prop :=
  ∃ segment ∈ list.segments, ∃ n, segment.Denotes domain n ∧ domain.normalize n = value

/-- Some value of the field is left out. -/
def Restricted : Prop := ∃ n, domain.Bounds n ∧ ¬ list.Denotes domain (domain.normalize n)

end CronList

namespace CronExpression

variable (e : CronExpression)

def InBounds : Prop :=
  e.minute.InBounds minutes ∧ e.hour.InBounds hours ∧ e.dayOfMonth.InBounds daysOfMonth ∧
    e.month.InBounds months ∧ e.dayOfWeek.InBounds daysOfWeek

/-- The day of the month or the day of the week where both are restricted, otherwise the one that is,
    if any. -/
def MatchesDay (day weekday : Nat) : Prop :=
  (e.dayOfMonth.Restricted daysOfMonth ∧ e.dayOfWeek.Restricted daysOfWeek →
    e.dayOfMonth.Denotes daysOfMonth day ∨ e.dayOfWeek.Denotes daysOfWeek weekday) ∧
  (e.dayOfMonth.Restricted daysOfMonth ∧ ¬ e.dayOfWeek.Restricted daysOfWeek →
    e.dayOfMonth.Denotes daysOfMonth day) ∧
  (¬ e.dayOfMonth.Restricted daysOfMonth ∧ e.dayOfWeek.Restricted daysOfWeek →
    e.dayOfWeek.Denotes daysOfWeek weekday)

/-- The hour of a formatter may be 24 at midnight. -/
def Matches (parts : DateParts) : Prop :=
  e.minute.Denotes minutes parts.minute ∧
    e.hour.Denotes hours (if parts.hour = 24 then 0 else parts.hour) ∧
    e.month.Denotes months parts.month ∧
    e.MatchesDay parts.day (Scheduler.dayOfWeek parts.year parts.month parts.day)

/-- The whole minutes after `after` in the lookahead window whose local parts match. -/
def occurrences (localParts : Timestamp → DateParts) (after : Timestamp) : Set Int :=
  {t | 60000 ∣ t ∧ (after : Int) < t ∧ t ≤ (after : Int) + 60000 * MAX_CRON_LOOKAHEAD_MINUTES ∧
    isDate t = true ∧ e.Matches (localParts t)}

end CronExpression

/-! ### The text of a segment -/

theorem Numeral.isDigit (numeral : Numeral) : ∀ c ∈ numeral.digits, c.isDigit = true :=
  List.all_eq_true.mp numeral.decimal

theorem parseInteger_numeral (numeral : Numeral) (field : String) :
    parseInteger numeral.digits field = .ok numeral.value := by
  simp only [parseInteger, bind_eq_ok, require_eq_ok, pure_eq_ok]
  exact ⟨(), ⟨numeral.nonempty, numeral.decimal⟩, rfl⟩

theorem Numeral.not_mem {numeral : Numeral} {c : Char} (hc : c.isDigit = false) :
    c ∉ numeral.digits := by
  intro hmem
  rw [numeral.isDigit c hmem] at hc
  cases hc

theorem CronBase.mem_text {base : CronBase} {c : Char} (hc : c ∈ base.text) :
    c.isDigit = true ∨ c = '*' ∨ c = '-' := by
  cases base with
  | star => exact Or.inr (Or.inl (List.mem_singleton.mp hc))
  | single number => exact Or.inl (number.isDigit c hc)
  | range low high =>
    rcases List.mem_append.mp hc with hc | hc
    · exact Or.inl (low.isDigit c hc)
    · rcases List.mem_cons.mp hc with rfl | hc
      · exact Or.inr (Or.inr rfl)
      · exact Or.inl (high.isDigit c hc)

theorem CronBase.text_ne_nil (base : CronBase) : base.text ≠ [] := by
  cases base with
  | star => exact List.cons_ne_nil _ _
  | single number => exact number.nonempty
  | range low high => exact List.append_ne_nil_of_right_ne_nil _ (List.cons_ne_nil _ _)

namespace CronSegment

theorem mem_text {segment : CronSegment} {c : Char} (hc : c ∈ segment.text) :
    c.isDigit = true ∨ c = '*' ∨ c = '-' ∨ c = '/' := by
  obtain ⟨base, step⟩ := segment
  cases step with
  | none =>
    rcases CronBase.mem_text hc with h | h | h
    · exact Or.inl h
    · exact Or.inr (Or.inl h)
    · exact Or.inr (Or.inr (Or.inl h))
  | some step =>
    rcases List.mem_append.mp hc with hc | hc
    · rcases CronBase.mem_text hc with h | h | h
      · exact Or.inl h
      · exact Or.inr (Or.inl h)
      · exact Or.inr (Or.inr (Or.inl h))
    · rcases List.mem_cons.mp hc with rfl | hc
      · exact Or.inr (Or.inr (Or.inr rfl))
      · exact Or.inl (step.isDigit c hc)

theorem text_ne_nil (segment : CronSegment) : segment.text ≠ [] := by
  obtain ⟨base, step⟩ := segment
  cases step with
  | none => exact base.text_ne_nil
  | some step => exact List.append_ne_nil_of_left_ne_nil base.text_ne_nil _

theorem slash_not_mem_base (base : CronBase) : '/' ∉ base.text := by
  intro hmem
  rcases CronBase.mem_text hmem with h | h | h <;> revert h <;> decide

/-- The part before the step gives the first and the last number. -/
theorem cronRange_text (domain : FieldDomain) (segment : CronSegment) (name : String) :
    cronRange segment.base.text segment.step.isSome domain.minimum domain.maximum name =
      .ok (segment.low domain, segment.high domain) := by
  obtain ⟨base, step⟩ := segment
  cases base with
  | star => rfl
  | single number =>
    have hstar : number.digits ≠ ['*'] := by
      intro heq
      exact number.not_mem (by decide : ('*').isDigit = false) (by simp [heq])
    have hdash : '-' ∉ number.digits := number.not_mem (by decide)
    simp only [cronRange, CronBase.text, if_neg hstar, if_neg hdash, parseInteger_numeral, ok_bind]
    rfl
  | range low high =>
    have hstar : low.digits ++ '-' :: high.digits ≠ ['*'] := by
      intro heq
      have hmem : '-' ∈ ['*'] := heq ▸ List.mem_append_right _ List.mem_cons_self
      revert hmem
      decide
    have hdash : '-' ∈ low.digits ++ '-' :: high.digits := List.mem_append_right _ List.mem_cons_self
    have hsplit : (low.digits ++ '-' :: high.digits).splitOn '-' = [low.digits, high.digits] := by
      rw [List.splitOn_append_cons_self_of_not_mem (low.not_mem (by decide)),
        List.splitOn_eq_singleton (high.not_mem (by decide))]
    simp only [cronRange, CronBase.text, if_neg hstar, if_pos hdash, hsplit, parseInteger_numeral,
      ok_bind]
    rfl

/-- The checks of the parser, on the first and the last number and the step. -/
theorem inBounds_iff {domain : FieldDomain} {segment : CronSegment} :
    segment.InBounds domain ↔ 0 < segment.stride ∧ domain.minimum ≤ segment.low domain ∧
      segment.low domain ≤ domain.maximum ∧ domain.minimum ≤ segment.high domain ∧
      segment.high domain ≤ domain.maximum ∧ segment.low domain ≤ segment.high domain := by
  obtain ⟨base, step⟩ := segment
  have hdomain := domain.nonempty
  have hstride : (∀ number ∈ step, 0 < number.value) ↔ 0 < (CronSegment.mk base step).stride := by
    cases step <;> simp [stride]
  rw [InBounds, hstride, and_comm]
  refine and_congr_right fun _ => ?_
  cases base with
  | star => simp [low, high, hdomain]
  | single number =>
    cases step with
    | none =>
      simp only [FieldDomain.Bounds, low, high, Option.isSome_none, Bool.false_eq_true, if_false]
      omega
    | some step =>
      simp only [FieldDomain.Bounds, low, high, Option.isSome_some, if_true]
      omega
  | range low high =>
    simp only [FieldDomain.Bounds, CronSegment.low, CronSegment.high]
    omega

/-- The numbers the parser lists for a segment. -/
def values (domain : FieldDomain) (segment : CronSegment) : List Nat :=
  (List.range' (segment.low domain) (segment.high domain + 1 - segment.low domain)).filter
    fun value => (value - segment.low domain) % segment.stride = 0

theorem mem_values {domain : FieldDomain} {segment : CronSegment} {n : Nat} :
    n ∈ segment.values domain ↔ segment.Denotes domain n := by
  simp only [values, List.mem_filter, List.mem_range'_1, decide_eq_true_eq, Denotes,
    Nat.dvd_iff_mod_eq_zero]
  constructor
  · rintro ⟨⟨hlow, hhigh⟩, hstride⟩
    exact ⟨hlow, by omega, hstride⟩
  · rintro ⟨hlow, hhigh, hstride⟩
    exact ⟨⟨hlow, by omega⟩, hstride⟩

theorem cronSegment_text (domain : FieldDomain) (segment : CronSegment) (name : String)
    {numbers : List Nat} :
    cronSegment domain.minimum domain.maximum name segment.text = .ok numbers ↔
      segment.InBounds domain ∧ segment.values domain = numbers := by
  have hne := segment.text_ne_nil
  rw [inBounds_iff]
  cases hstep : segment.step with
  | none =>
    have hsplit : segment.text.splitOn '/' = [segment.base.text] := by
      rw [text, hstep]
      exact List.splitOn_eq_singleton (slash_not_mem_base segment.base)
    have hstride : segment.stride = 1 := by simp [stride, hstep]
    have hrange : cronRange segment.base.text (decide (1 = 2)) domain.minimum domain.maximum name =
        .ok (segment.low domain, segment.high domain) := by
      rw [← cronRange_text domain segment name, hstep]
      rfl
    simp only [cronSegment, hsplit, List.length_singleton, List.headD_cons, bind_eq_ok, require_eq_ok,
      pure_eq_ok, hrange, values, hstride]
    constructor
    · rintro ⟨_, -, _, -, _, rfl, _, hpositive, _, hpair, _, hbounds, rfl⟩
      cases hpair
      exact ⟨⟨hpositive, hbounds⟩, rfl⟩
    · rintro ⟨⟨hpositive, hbounds⟩, rfl⟩
      exact ⟨(), hne, (), by decide, 1, rfl, (), hpositive, _, rfl, (), hbounds, rfl⟩
  | some step =>
    have hsplit : segment.text.splitOn '/' = [segment.base.text, step.digits] := by
      rw [text, hstep]
      change (segment.base.text ++ '/' :: step.digits).splitOn '/' = _
      rw [List.splitOn_append_cons_self_of_not_mem (slash_not_mem_base segment.base),
        List.splitOn_eq_singleton (step.not_mem (by decide))]
    have hstride : segment.stride = step.value := by simp [stride, hstep]
    have hrange : cronRange segment.base.text (decide True) domain.minimum domain.maximum name =
        .ok (segment.low domain, segment.high domain) := by
      rw [← cronRange_text domain segment name, hstep]
      rfl
    simp only [cronSegment, hsplit, List.length_cons, List.length_nil, List.headD_cons,
      parseInteger_numeral, bind_eq_ok, require_eq_ok, pure_eq_ok, hrange, values, hstride]
    constructor
    · rintro ⟨_, -, _, -, _, hvalue, _, hpositive, _, hpair, _, hbounds, rfl⟩
      cases hvalue
      cases hpair
      exact ⟨⟨hpositive, hbounds⟩, rfl⟩
    · rintro ⟨⟨hpositive, hbounds⟩, rfl⟩
      exact ⟨(), hne, (), by decide, _, rfl, (), hpositive, _, rfl, (), hbounds, rfl⟩

end CronSegment

/-! ### The text of a field -/

/-- Of two lists without repetitions, one part of the other, the lengths tell whether they agree. -/
theorem length_eq_iff_subset {part whole : List Nat} (hpart : part.Nodup) (hwhole : whole.Nodup)
    (hsubset : part ⊆ whole) : part.length = whole.length ↔ whole ⊆ part := by
  constructor
  · intro hlength
    exact ((List.subperm_of_subset hpart hsubset).perm_of_length_le hlength.ge).symm.subset
  · intro hother
    exact le_antisymm (List.subperm_of_subset hpart hsubset).length_le
      (List.subperm_of_subset hwhole hother).length_le

namespace CronList

theorem splitOn_text (list : CronList) :
    list.text.splitOn ',' = list.segments.map CronSegment.text := by
  refine List.splitOn_intercalate ',' (fun text htext hmem => ?_) (List.cons_ne_nil _ _)
  obtain ⟨segment, -, rfl⟩ := List.mem_map.mp htext
  rcases CronSegment.mem_text hmem with h | h | h | h <;> revert h <;> decide

theorem text_ne_nil (list : CronList) : list.text ≠ [] := by
  intro hnil
  have hsplit := list.splitOn_text
  rw [hnil] at hsplit
  have hfirst : list.first.text = [] := by
    have hhead := congrArg (List.headD · []) hsplit
    exact hhead.symm
  exact list.first.text_ne_nil hfirst

/-- What the parser reads in a field. -/
structure Reads (domain : FieldDomain) (list : CronList) (field : CronField) : Prop where
  values : ∀ value, value ∈ field.values ↔ list.Denotes domain value
  unrestricted : field.unrestricted = true ↔ ¬ list.Restricted domain

/-- The field the parser makes of a list within bounds. -/
def parsed (domain : FieldDomain) (list : CronList) : CronField :=
  let values := ((list.segments.map (CronSegment.values domain)).flatten.map domain.normalize).eraseDups
  { values
    unrestricted := decide (values.length =
      ((List.range' domain.minimum (domain.maximum + 1 - domain.minimum)).map
        domain.normalize).eraseDups.length) }

theorem cronField_text (domain : FieldDomain) (list : CronList) (name : String) {field : CronField} :
    cronField list.text domain.minimum domain.maximum name domain.normalize = .ok field ↔
      list.InBounds domain ∧ list.parsed domain = field := by
  have hsegments : ∀ {numbers : List (List Nat)},
      (list.segments.map CronSegment.text).mapM
          (cronSegment domain.minimum domain.maximum name) = .ok numbers ↔
        list.InBounds domain ∧ list.segments.map (CronSegment.values domain) = numbers := by
    intro numbers
    rw [List.mapM_map]
    exact mapM_guarded fun segment numbers => segment.cronSegment_text domain name
  simp only [cronField, splitOn_text, bind_eq_ok, require_eq_ok, pure_eq_ok, hsegments]
  constructor
  · rintro ⟨_, -, _, ⟨hbounds, rfl⟩, rfl⟩
    exact ⟨hbounds, rfl⟩
  · rintro ⟨hbounds, rfl⟩
    exact ⟨(), list.text_ne_nil, _, ⟨hbounds, rfl⟩, rfl⟩

theorem reads_parsed {domain : FieldDomain} {list : CronList} (hbounds : list.InBounds domain) :
    Reads domain list (list.parsed domain) := by
  have hvalues : ∀ value, value ∈ (list.parsed domain).values ↔ list.Denotes domain value := by
    intro value
    simp only [parsed, List.mem_eraseDups, List.mem_map, List.mem_flatten, Denotes]
    constructor
    · rintro ⟨n, ⟨_, ⟨segment, hsegment, rfl⟩, hn⟩, hvalue⟩
      exact ⟨segment, hsegment, n, CronSegment.mem_values.mp hn, hvalue⟩
    · rintro ⟨segment, hsegment, n, hn, hvalue⟩
      exact ⟨n, ⟨_, ⟨segment, hsegment, rfl⟩, CronSegment.mem_values.mpr hn⟩, hvalue⟩
  have hdomain : ∀ value, value ∈ ((List.range' domain.minimum
      (domain.maximum + 1 - domain.minimum)).map domain.normalize).eraseDups ↔
        ∃ n, domain.Bounds n ∧ domain.normalize n = value := by
    intro value
    have hle := domain.nonempty
    simp only [List.mem_eraseDups, List.mem_map, List.mem_range'_1, FieldDomain.Bounds]
    constructor <;> rintro ⟨n, hn, hvalue⟩ <;> exact ⟨n, by omega, hvalue⟩
  have hsubset : (list.parsed domain).values ⊆ ((List.range' domain.minimum
      (domain.maximum + 1 - domain.minimum)).map domain.normalize).eraseDups := by
    intro value hvalue
    obtain ⟨segment, hsegment, n, ⟨hlow, hhigh, -⟩, hn⟩ := (hvalues value).mp hvalue
    have hchecks := CronSegment.inBounds_iff.mp (hbounds segment hsegment)
    exact (hdomain value).mpr ⟨n, ⟨by omega, by omega⟩, hn⟩
  refine ⟨hvalues, ?_⟩
  have hlength := length_eq_iff_subset (Occurrences.nodup_eraseDups _) (Occurrences.nodup_eraseDups _) hsubset
  simp only [parsed, decide_eq_true_eq] at hlength ⊢
  rw [hlength, Restricted, not_exists]
  constructor
  · rintro hall n ⟨hn, hnot⟩
    exact hnot ((hvalues _).mp (hall ((hdomain _).mpr ⟨n, hn, rfl⟩)))
  · intro hall value hvalue
    obtain ⟨n, hn, rfl⟩ := (hdomain value).mp hvalue
    by_contra hnot
    exact hall n ⟨hn, fun hdenotes => hnot ((hvalues _).mpr hdenotes)⟩

end CronList

/-! ### The text of an expression -/

/-- The words of a text, as `split(/\s+/)` gives them for a trimmed text. -/
def words (cs : List Char) : List (List Char) :=
  (cs.splitOnP isJsSpace).filter fun word => !word.isEmpty

theorem words_append_cons (xs ys : List Char) {c : Char} (hc : isJsSpace c = true) :
    words (xs ++ c :: ys) = words xs ++ words ys := by
  rw [words, List.splitOnP_append_cons xs ys hc, List.filter_append]
  rfl

theorem words_blank {blank : List Char} (hblank : ∀ c ∈ blank, isJsSpace c = true) :
    words blank = [] := by
  induction blank with
  | nil => rfl
  | cons c rest ih =>
    obtain ⟨hc, hrest⟩ := List.forall_mem_cons.mp hblank
    exact (words_append_cons [] rest hc).trans (ih hrest)

theorem words_append_blank (xs : List Char) {blank : List Char}
    (hblank : ∀ c ∈ blank, isJsSpace c = true) : words (xs ++ blank) = words xs := by
  cases blank with
  | nil => rw [List.append_nil]
  | cons c rest =>
    obtain ⟨hc, hrest⟩ := List.forall_mem_cons.mp hblank
    rw [words_append_cons xs rest hc, words_blank hrest, List.append_nil]

theorem words_blank_append {blank : List Char} (hblank : ∀ c ∈ blank, isJsSpace c = true)
    (xs : List Char) : words (blank ++ xs) = words xs := by
  induction blank with
  | nil => rfl
  | cons c rest ih =>
    obtain ⟨hc, hrest⟩ := List.forall_mem_cons.mp hblank
    exact (words_append_cons [] (rest ++ xs) hc).trans (ih hrest)

theorem words_word {word : List Char} (hne : word ≠ []) (hword : ∀ c ∈ word, isJsSpace c = false) :
    words word = [word] := by
  rw [words, List.splitOnP_eq_singleton hword, List.filter_cons_of_pos (by simpa using hne)]
  rfl

theorem words_trim (text : String) : words (trim text).toList = words text.toList := by
  have hdrop : ∀ cs : List Char, words (cs.dropWhile isJsSpace) = words cs := by
    intro cs
    conv_rhs => rw [← List.takeWhile_append_dropWhile (p := isJsSpace) (l := cs)]
    exact (words_blank_append (List.all_eq_true.mp List.all_takeWhile) _).symm
  have hlast : ∀ cs : List Char, words (cs.reverse.dropWhile isJsSpace).reverse = words cs := by
    intro cs
    have hsplit : cs = (cs.reverse.dropWhile isJsSpace).reverse ++
        (cs.reverse.takeWhile isJsSpace).reverse := by
      rw [← List.reverse_append, List.takeWhile_append_dropWhile, List.reverse_reverse]
    conv_rhs => rw [hsplit]
    refine (words_append_blank _ fun c hc => ?_).symm
    exact List.all_eq_true.mp List.all_takeWhile c (List.mem_reverse.mp hc)
  rw [trim, String.toList_ofList, hlast, hdrop]

theorem mem_intercalate {sep c : Char} {parts : List (List Char)}
    (hc : c ∈ List.intercalate [sep] parts) : c = sep ∨ ∃ part ∈ parts, c ∈ part := by
  induction parts with
  | nil => simp at hc
  | cons part parts ih =>
    by_cases hnil : parts = []
    · subst hnil
      exact Or.inr ⟨part, List.mem_cons_self, by simpa using hc⟩
    · rw [List.intercalate_cons_of_ne_nil hnil] at hc
      simp only [List.mem_append, List.mem_singleton] at hc
      rcases hc with (hc | rfl) | hc
      · exact Or.inr ⟨part, List.mem_cons_self, hc⟩
      · exact Or.inl rfl
      · rcases ih hc with h | ⟨other, hother, h⟩
        · exact Or.inl h
        · exact Or.inr ⟨other, List.mem_cons_of_mem _ hother, h⟩

theorem CronList.words_text (list : CronList) : words list.text = [list.text] := by
  refine words_word list.text_ne_nil fun c hc => ?_
  rcases mem_intercalate hc with rfl | ⟨part, hpart, hc⟩
  · decide
  · obtain ⟨segment, -, rfl⟩ := List.mem_map.mp hpart
    rcases CronSegment.mem_text hc with h | rfl | rfl | rfl
    · exact isJsSpace_of_isAlnum (by simp [isAlnum, isLowerAlnum, h])
    all_goals decide

/-- A field, the gap behind it and the rest of the text. -/
theorem CronList.words_append (list : CronList) (gap : Gap) (rest : List Char) :
    words (list.text ++ (gap.chars ++ rest)) = list.text :: words rest := by
  have hspace := List.all_eq_true.mp gap.space
  obtain ⟨c, chars, hchars⟩ := List.exists_cons_of_ne_nil gap.nonempty
  rw [hchars] at hspace ⊢
  obtain ⟨hc, hrest⟩ := List.forall_mem_cons.mp hspace
  rw [List.cons_append, words_append_cons _ _ hc, list.words_text, words_blank_append hrest]
  rfl

namespace CronExpression

variable (e : CronExpression)

theorem words_text : words (trim e.text).toList =
    [e.minute.text, e.hour.text, e.dayOfMonth.text, e.month.text, e.dayOfWeek.text] := by
  rw [words_trim, text, String.toList_ofList, words_blank_append (List.all_eq_true.mp e.leading.space),
    CronList.words_append, CronList.words_append, CronList.words_append, CronList.words_append,
    words_append_blank _ (List.all_eq_true.mp e.trailing.space), CronList.words_text]

/-- What the parser makes of an expression within bounds. -/
def parsed : CronSpec where
  minute := e.minute.parsed minutes
  hour := e.hour.parsed hours
  dayOfMonth := e.dayOfMonth.parsed daysOfMonth
  month := e.month.parsed months
  dayOfWeek := e.dayOfWeek.parsed daysOfWeek

/-- The parser accepts an expression exactly when it is within bounds. -/
theorem parseCron_text {spec : CronSpec} :
    parseCron e.text = .ok spec ↔ e.InBounds ∧ e.parsed = spec := by
  have hwords := e.words_text
  rw [words] at hwords
  have hminute : ∀ field, cronField e.minute.text 0 59 "minute" id = .ok field ↔ _ := fun _ =>
    e.minute.cronField_text minutes "minute"
  have hhour : ∀ field, cronField e.hour.text 0 23 "hour" id = .ok field ↔ _ := fun _ =>
    e.hour.cronField_text hours "hour"
  have hday : ∀ field, cronField e.dayOfMonth.text 1 31 "day-of-month" id = .ok field ↔ _ := fun _ =>
    e.dayOfMonth.cronField_text daysOfMonth "day-of-month"
  have hmonth : ∀ field, cronField e.month.text 1 12 "month" id = .ok field ↔ _ := fun _ =>
    e.month.cronField_text months "month"
  have hweekday : ∀ field, cronField e.dayOfWeek.text 0 7 "day-of-week"
      (fun value => if value = 7 then 0 else value) = .ok field ↔ _ := fun _ =>
    e.dayOfWeek.cronField_text daysOfWeek "day-of-week"
  simp only [parseCron, hwords, bind_eq_ok, pure_eq_ok, hminute, hhour, hday, hmonth, hweekday]
  constructor
  · rintro ⟨_, ⟨hminute, rfl⟩, _, ⟨hhour, rfl⟩, _, ⟨hday, rfl⟩, _, ⟨hmonth, rfl⟩, _,
      ⟨hweekday, rfl⟩, rfl⟩
    exact ⟨⟨hminute, hhour, hday, hmonth, hweekday⟩, rfl⟩
  · rintro ⟨⟨hminute, hhour, hday, hmonth, hweekday⟩, rfl⟩
    exact ⟨_, ⟨hminute, rfl⟩, _, ⟨hhour, rfl⟩, _, ⟨hday, rfl⟩, _, ⟨hmonth, rfl⟩, _,
      ⟨hweekday, rfl⟩, rfl⟩

/-- The test of the search is the meaning of the expression. -/
theorem cronMatches_parsed (hbounds : e.InBounds) (parts : DateParts) :
    cronMatches e.parsed { parts with hour := if parts.hour = 24 then 0 else parts.hour } = true ↔
      e.Matches parts := by
  obtain ⟨hminute, hhour, hday, hmonth, hweekday⟩ := hbounds
  have hday := CronList.reads_parsed hday
  have hweekday := CronList.reads_parsed hweekday
  have hrestrictedDay := not_iff_not.mpr hday.unrestricted
  have hrestrictedWeekday := not_iff_not.mpr hweekday.unrestricted
  rw [not_not, Bool.not_eq_true] at hrestrictedDay hrestrictedWeekday
  simp only [cronMatches, parsed, Matches, Bool.and_eq_true, List.contains_iff_mem,
    (CronList.reads_parsed hminute).values, (CronList.reads_parsed hhour).values,
    (CronList.reads_parsed hmonth).values, and_assoc]
  refine and_congr_right fun _ => and_congr_right fun _ => and_congr_right fun _ => ?_
  rw [MatchesDay, ← hday.values, ← hweekday.values, ← hrestrictedDay, ← hrestrictedWeekday]
  by_cases hday : (e.dayOfMonth.parsed daysOfMonth).unrestricted = true <;>
    by_cases hweekday : (e.dayOfWeek.parsed daysOfWeek).unrestricted = true <;>
      simp [hday, hweekday]

end CronExpression

/-! ### The first occurrence -/

/-- The minutes of a search that match. -/
def matchingMinutes (P : Int → Prop) (minutes : Nat) (candidate : Int) : Set Int :=
  {t | ∃ i : Nat, i < minutes ∧ t = candidate + 60000 * i ∧ isDate t = true ∧ P t}

theorem matchingMinutes_succ {P : Int → Prop} {minutes : Nat} {candidate t : Int} :
    t ∈ matchingMinutes P (minutes + 1) candidate ↔
      t = candidate ∧ isDate t = true ∧ P t ∨ t ∈ matchingMinutes P minutes (candidate + 60000) := by
  constructor
  · rintro ⟨i, hi, ht, hdate, hp⟩
    cases i with
    | zero => exact Or.inl ⟨by simpa using ht, hdate, hp⟩
    | succ i => exact Or.inr ⟨i, by omega, by push_cast at ht; omega, hdate, hp⟩
  · rintro (⟨ht, hdate, hp⟩ | ⟨i, hi, ht, hdate, hp⟩)
    · exact ⟨0, by omega, by simpa using ht, hdate, hp⟩
    · exact ⟨i + 1, by omega, by push_cast; omega, hdate, hp⟩

theorem le_of_mem_matchingMinutes {P : Int → Prop} {minutes : Nat} {candidate t : Int}
    (ht : t ∈ matchingMinutes P minutes candidate) : candidate ≤ t := by
  obtain ⟨i, -, ht, -⟩ := ht
  omega

/-- The search finds the first matching minute, and fails where there is none.  The induction is on the
    minutes left; an instant that no date can hold ends the search, and no later one is a date. -/
theorem firstOccurrence_spec {spec : CronSpec} {formatter : Timestamp → Option DateParts}
    {P : Int → Prop} (hparts : ∀ t : Int, isDate t = true → ∃ parts,
      localParts formatter t = .ok parts ∧ (cronMatches spec parts = true ↔ P t)) :
    ∀ {minutes : Nat} {candidate : Int}, -8640000000000000 ≤ candidate →
      (∀ next : Int, firstOccurrence spec formatter minutes candidate = .ok next →
        IsLeast (matchingMinutes P minutes candidate) next) ∧
      ∀ error, firstOccurrence spec formatter minutes candidate = .error error →
        matchingMinutes P minutes candidate = ∅ := by
  intro minutes
  induction minutes with
  | zero =>
    intro candidate _
    refine ⟨fun next h => ?_, fun error _ => ?_⟩
    · simp [firstOccurrence] at h
    · refine Set.eq_empty_iff_forall_notMem.mpr ?_
      rintro t ⟨i, hi, -⟩
      exact absurd hi (Nat.not_lt_zero i)
  | succ minutes ih =>
    intro candidate hlow
    obtain ⟨hleast, hnone⟩ := @ih (candidate + 60000) (by omega)
    by_cases hdate : isDate candidate = true
    · obtain ⟨parts, hlocal, hmatches⟩ := hparts candidate hdate
      have hfirst : firstOccurrence spec formatter (minutes + 1) candidate =
          if cronMatches spec parts then pure candidate
          else firstOccurrence spec formatter minutes (candidate + 60000) := by
        rw [firstOccurrence, hlocal, ok_bind]
      rw [hfirst]
      by_cases hmatch : cronMatches spec parts = true
      · rw [if_pos hmatch]
        refine ⟨fun next h => ?_, fun error h => (by cases h)⟩
        rw [pure_eq_ok] at h
        subst h
        refine ⟨matchingMinutes_succ.mpr (Or.inl ⟨rfl, hdate, hmatches.mp hmatch⟩), fun t ht => ?_⟩
        exact le_of_mem_matchingMinutes ht
      · have hsame : matchingMinutes P (minutes + 1) candidate =
            matchingMinutes P minutes (candidate + 60000) := by
          refine Set.ext fun t => matchingMinutes_succ.trans (or_iff_right ?_)
          rintro ⟨rfl, -, hp⟩
          exact hmatch (hmatches.mpr hp)
        rw [if_neg hmatch, hsame]
        exact ⟨hleast, hnone⟩
    · have hthrows : firstOccurrence spec formatter (minutes + 1) candidate =
          .error .invalidTimeValue := by
        rw [firstOccurrence, localParts, require, if_neg hdate]
        rfl
      rw [hthrows]
      refine ⟨fun next h => (by cases h), fun error _ => Set.eq_empty_iff_forall_notMem.mpr ?_⟩
      rintro t ⟨i, -, rfl, hlater, -⟩
      simp only [isDate, decide_eq_true_eq] at hdate hlater
      omega

/-- The minutes of a search that starts behind `after` are the whole minutes of the window. -/
theorem matchingMinutes_after {P : Int → Prop} (after : Int) :
    matchingMinutes P MAX_CRON_LOOKAHEAD_MINUTES (after / 60000 * 60000 + 60000) =
      {t | 60000 ∣ t ∧ after < t ∧ t ≤ after + 60000 * MAX_CRON_LOOKAHEAD_MINUTES ∧
        isDate t = true ∧ P t} := by
  refine Set.ext fun t => ?_
  constructor
  · rintro ⟨i, hi, rfl, hdate, hp⟩
    exact ⟨by omega, by omega, by omega, hdate, hp⟩
  · rintro ⟨⟨k, rfl⟩, hlow, hhigh, hdate, hp⟩
    exact ⟨(k - after / 60000 - 1).toNat, by omega, by omega, hdate, hp⟩

/-- An expression is accepted exactly when it is within the bounds of its fields, and then the next
    occurrence is the first whole minute after `after`, within the lookahead window, whose local parts
    match it; the search throws exactly when there is none. -/
theorem nextCronOccurrence_exact (platform : Platform) (e : CronExpression) (timezone : String)
    (formatter : Timestamp → Option DateParts) (parts : Timestamp → DateParts)
    (htimezone : platform.timezoneFormatter (trim timezone) = some formatter)
    (hparts : ∀ t, isDate t = true → formatter t = some (parts t))
    (after : Timestamp) (hafter : isDate after = true) :
    ((∃ spec, parseCron e.text = .ok spec) ↔ e.InBounds) ∧
    (e.InBounds →
      (∀ next : Int, nextCronOccurrence platform e.text timezone after = .ok next ↔
        IsLeast (e.occurrences parts after) next) ∧
      ((∃ error, nextCronOccurrence platform e.text timezone after = .error error) ↔
        e.occurrences parts after = ∅)) := by
  constructor
  · constructor
    · rintro ⟨spec, hspec⟩
      exact (e.parseCron_text.mp hspec).1
    · intro hbounds
      exact ⟨e.parsed, e.parseCron_text.mpr ⟨hbounds, rfl⟩⟩
  · intro hbounds
    have hsearch : nextCronOccurrence platform e.text timezone after =
        firstOccurrence e.parsed formatter MAX_CRON_LOOKAHEAD_MINUTES
          (after / 60000 * 60000 + 60000) := by
      rw [nextCronOccurrence, e.parseCron_text.mpr ⟨hbounds, rfl⟩, ok_bind]
      simp only [htimezone, orThrow, ok_bind]
    have hlow : ∀ t : Int, t.natAbs ≤ 8640000000000000 →
        -8640000000000000 ≤ t / 60000 * 60000 + 60000 := fun t ht => by omega
    rw [isDate, decide_eq_true_eq] at hafter
    have hlocal : ∀ t : Int, isDate t = true → ∃ date, localParts formatter t = .ok date ∧
        (cronMatches e.parsed date = true ↔ e.Matches (parts t)) := by
      intro t hdate
      refine ⟨_, ?_, e.cronMatches_parsed hbounds (parts t)⟩
      simp only [localParts, bind_eq_ok, require_eq_ok, orThrow_eq_ok, pure_eq_ok]
      exact ⟨(), hdate, parts t, hparts t hdate, rfl⟩
    obtain ⟨hleast, hnone⟩ := @firstOccurrence_spec e.parsed formatter _ hlocal
      MAX_CRON_LOOKAHEAD_MINUTES _ (hlow after hafter)
    rw [matchingMinutes_after] at hleast hnone
    rw [hsearch]
    cases hresult : firstOccurrence e.parsed formatter MAX_CRON_LOOKAHEAD_MINUTES
        (after / 60000 * 60000 + 60000) with
    | error error =>
      have hempty := hnone error hresult
      refine ⟨fun next => ⟨fun h => (by cases h), fun h => ?_⟩, fun _ => hempty, fun _ => ⟨error, rfl⟩⟩
      exact absurd h.1 (Set.eq_empty_iff_forall_notMem.mp hempty next)
    | ok found =>
      have hfound := hleast found hresult
      refine ⟨fun next => ⟨fun h => ?_, fun h => congrArg Except.ok (hfound.unique h)⟩, ?_,
        fun hempty => ?_⟩
      · exact Except.ok.inj h ▸ hfound
      · rintro ⟨_, h⟩
        cases h
      · exact absurd hfound.1 (Set.eq_empty_iff_forall_notMem.mp hempty found)

/-! ### A sample expression -/

def numeral (digits : List Char) (h : digits ≠ [] ∧ digits.all Char.isDigit = true) : Numeral :=
  ⟨digits, h.1, h.2⟩

def everyMonth : CronList := ⟨⟨.star, none⟩, []⟩

def oneSpace : Gap := ⟨⟨[' '], by decide⟩, by decide⟩

/-- `*/5 0-23 15,20 * 7`. -/
def fifteenthOrSunday : CronExpression where
  leading := ⟨[], by decide⟩
  minute := ⟨⟨.star, some (numeral ['5'] (by decide))⟩, []⟩
  afterMinute := oneSpace
  hour := ⟨⟨.range (numeral ['0'] (by decide)) (numeral ['2', '3'] (by decide)), none⟩, []⟩
  afterHour := oneSpace
  dayOfMonth := ⟨⟨.single (numeral ['1', '5'] (by decide)), none⟩,
    [⟨.single (numeral ['2', '0'] (by decide)), none⟩]⟩
  afterDayOfMonth := oneSpace
  month := everyMonth
  afterMonth := oneSpace
  dayOfWeek := ⟨⟨.single (numeral ['7'] (by decide)), none⟩, []⟩
  trailing := ⟨[], by decide⟩

example : fifteenthOrSunday.text = "*/5 0-23 15,20 * 7" := by decide

/-- The wall clock of UTC, which shows midnight as the hour 24. -/
def utcClock (t : Timestamp) : DateParts :=
  let (year, month, day) := civilFromDays (t / 86400000)
  let minutes := (t % 86400000 / 60000).toNat
  { year, month, day, hour := if minutes < 60 then 24 else minutes / 60, minute := minutes % 60 }

def utcPlatform : Platform where
  digestHex := String.length
  hashPayload _ := 0
  hashDescriptor _ := 0
  hashSchedule _ := 0
  parseUrl _ := none
  timezoneFormatter timezone := if timezone = "UTC" then some fun t => some (utcClock t) else none

/-- Half a minute past 23:52 of Saturday, 1970-01-03: the search passes over seven minutes of that day
    and stops at midnight. -/
theorem fifteenthOrSunday_next :
    nextCronOccurrence utcPlatform fifteenthOrSunday.text "UTC" 258750000 = .ok 259200000 := by
  have hbounds : fifteenthOrSunday.InBounds :=
    (fifteenthOrSunday.parseCron_text.mp
      (rfl : parseCron fifteenthOrSunday.text = .ok fifteenthOrSunday.parsed)).1
  have hsunday : fifteenthOrSunday.Matches (utcClock 259200000) :=
    (fifteenthOrSunday.cronMatches_parsed hbounds _).mp (by decide +kernel)
  have hsaturday : ∀ i : Fin 7, cronMatches fifteenthOrSunday.parsed
      { utcClock (60000 * (4313 + (i : Nat))) with
        hour := (if (utcClock (60000 * (4313 + (i : Nat)))).hour = 24 then 0
          else (utcClock (60000 * (4313 + (i : Nat)))).hour) } = false := by
    decide +kernel
  refine ((nextCronOccurrence_exact utcPlatform fifteenthOrSunday "UTC" (fun t => some (utcClock t))
    utcClock rfl (fun _ _ => rfl) 258750000 rfl).2 hbounds).1 259200000 |>.mpr ⟨?_, ?_⟩
  · exact ⟨by decide, by decide, by decide, rfl, hsunday⟩
  · rintro t ⟨⟨k, rfl⟩, hlow, -, -, hmatch⟩
    change (258750000 : Int) < 60000 * k at hlow
    by_contra hearly
    change ¬ (259200000 : Int) ≤ 60000 * k at hearly
    obtain ⟨i, rfl⟩ : ∃ i : Fin 7, k = 4313 + (i : Nat) :=
      ⟨⟨(k - 4313).toNat, by omega⟩, by simp only; omega⟩
    have hfound := (fifteenthOrSunday.cronMatches_parsed hbounds _).mpr hmatch
    rw [hsaturday i] at hfound
    cases hfound

end MarkorbitKnowledge.Scheduler
