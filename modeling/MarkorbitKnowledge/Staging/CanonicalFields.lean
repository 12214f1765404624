import MarkorbitKnowledge.Contracts.Json
import MarkorbitKnowledge.Staging.Canonical
import MarkorbitKnowledge.Staging.Outcome

/-!
# Reading the metadata back

The verifier reads each field of the metadata as it was written, where its value is within the verifier's
limits: no line terminator in it, at most 2000 code units, and for a list at most 32 strings, without a
comma (`parseRaw_canonical`).
-/

namespace MarkorbitKnowledge.Staging

open Contracts Fallible Delimited

/-- A quantifier over the characters of a text is decided along the text, not over all characters. -/
local instance (priority := 2000) decidableFieldText {p : Char → Prop} [DecidablePred p] (t : Text) :
    Decidable (∀ c ∈ t, p c) :=
  List.decidableBAll p t

/-! ### Trimming -/

theorem trimText_eq_self {t : Text} (hfirst : ∀ c ∈ t.head?, isJsSpace c = false)
    (hlast : ∀ c ∈ t.getLast?, isJsSpace c = false) : trimText t = t := by
  have hstart : trimStart t = t := by
    cases t with
    | nil => rfl
    | cons c t => exact List.dropWhile_cons_of_neg (by simpa using hfirst c rfl)
  rw [trimText, hstart, trimEnd, List.rdropWhile_eq_self_iff]
  intro hne
  simpa using hlast _ (List.getLast?_eq_some_getLast hne)

/-- A text that trimming leaves as it is, and not empty. -/
structure Trimmed (t : Text) : Prop where
  first : ∃ c rest, t = c :: rest ∧ isJsSpace c = false
  last : ∃ init c, t = init ++ [c] ∧ isJsSpace c = false

theorem Trimmed.head {t : Text} (h : Trimmed t) : ∀ c ∈ t.head?, isJsSpace c = false := by
  obtain ⟨c, rest, rfl, hc⟩ := h.first
  intro d hd
  rw [← Option.mem_some_iff.mp hd]
  exact hc

theorem Trimmed.getLast {t : Text} (h : Trimmed t) : ∀ c ∈ t.getLast?, isJsSpace c = false := by
  obtain ⟨init, c, rfl, hc⟩ := h.last
  intro d hd
  rw [List.getLast?_concat] at hd
  rw [← Option.mem_some_iff.mp hd]
  exact hc

theorem Trimmed.trimText {t : Text} (h : Trimmed t) : trimText t = t :=
  trimText_eq_self h.head h.getLast

theorem trimText_space {t : Text} (h : Trimmed t) (space : Text)
    (hspace : ∀ c ∈ space, isJsSpace c = true) : trimText (space ++ t) = t := by
  have hstart : trimStart (space ++ t) = trimStart t := List.dropWhile_append_of_pos hspace
  rw [Contracts.trimText, hstart]
  exact h.trimText

/-! ### Scalars -/

theorem trimmed_quoted (s : JsString) : Trimmed (quoted s) :=
  ⟨⟨'"', _, rfl, by decide⟩, ⟨'"' :: jsonBody s, '"', rfl, by decide⟩⟩

theorem trimmed_write (value : MetadataValue) : Trimmed value.write := by
  cases value with
  | quoted value => exact trimmed_quoted value
  | nullableQuoted value =>
    cases value with
    | none => exact ⟨⟨'n', "ull".toList, rfl, by decide⟩, ⟨"nul".toList, 'l', rfl, by decide⟩⟩
    | some value => exact trimmed_quoted value
  | quotedList values =>
    exact ⟨⟨'[', _, rfl, by decide⟩,
      ⟨'[' :: List.intercalate [',', ' '] (values.map quoted), ']', rfl, by decide⟩⟩
  | number value =>
    have hdigit : ∀ c ∈ Nat.toDigits 10 value, isJsSpace c = false := fun c hc =>
      isJsSpace_of_isAlnum (by
        have hc := Nat.isDigit_of_mem_toDigits (by decide) (by decide) hc
        simp [isAlnum, isLowerAlnum, hc])
    have hne : Nat.toDigits 10 value ≠ [] := Nat.toDigits_ne_nil
    constructor
    · obtain ⟨c, rest, hcons⟩ := List.exists_cons_of_ne_nil hne
      exact ⟨c, rest, hcons, hdigit c (hcons ▸ List.mem_cons_self)⟩
    · exact ⟨_, _, (List.dropLast_append_getLast hne).symm, hdigit _ (List.getLast_mem hne)⟩

theorem parseQuoted_quoted (s : JsString) : parseQuoted (quoted s) = some s := by
  have hlast : (quoted s).getLast? = some '"' := by
    rw [quoted, ← List.cons_append, List.getLast?_concat]
  rw [parseQuoted, if_pos ⟨rfl, hlast⟩, parseJson_quoted]

/-! ### Commas in a list -/

theorem splitQuote_append {t : Text} {parts : Text × Text} (rest : Text)
    (h : splitQuote t = some parts) : splitQuote (t ++ rest) = some (parts.1, parts.2 ++ rest) := by
  induction t using splitQuote.induct generalizing parts with
  | case1 => cases h
  | case2 t =>
    obtain rfl := Option.some.inj h
    rfl
  | case3 c t ih =>
    rw [splitQuote, Option.map_eq_some_iff] at h
    obtain ⟨found, hfound, rfl⟩ := h
    rw [List.cons_append, List.cons_append, splitQuote, ih hfound]
    rfl
  | case4 c t hquote hslash ih =>
    by_cases hc : c = '\\'
    · cases t with
      | nil =>
        rw [hc] at h
        cases h
      | cons d t => exact absurd rfl (hslash d t hc)
    · rw [splitQuote_plain hquote hc, Option.map_eq_some_iff] at h
      obtain ⟨found, hfound, rfl⟩ := h
      rw [List.cons_append, splitQuote_plain hquote hc, ih hfound]
      rfl

theorem splitQuote_cons_escaped {c : Char} {t : Text}
    (h : ∃ body, splitQuote t = some (body, [])) :
    ∃ body, splitQuote ('\\' :: c :: t) = some (body, []) := by
  obtain ⟨body, hbody⟩ := h
  exact ⟨'\\' :: c :: body, by rw [splitQuote, hbody]; rfl⟩

theorem hexValue_plain {c : Char} {n : Nat} (h : hexValue c = some n) : c ≠ '"' ∧ c ≠ '\\' := by
  have hnone : hexValue '"' = none ∧ hexValue '\\' = none := by decide
  constructor
  · rintro rfl
    rw [hnone.1] at h
    cases h
  · rintro rfl
    rw [hnone.2] at h
    cases h

/-- What parses as a string ends at its closing quote. -/
theorem splitQuote_of_parse {t : Text} {s : JsString} (h : parseJsonBody t = some s) :
    ∃ body, splitQuote t = some (body, []) := by
  induction t using parseJsonBody.induct generalizing s with
  | case1 => cases h
  | case2 => exact ⟨[], rfl⟩
  | case3 rest hrest =>
    rw [parseJsonBody, if_neg hrest] at h
    cases h
  | case4 h₁ h₂ h₃ h₄ rest ih =>
    rw [parseJsonBody] at h
    simp only [hexUnit, Option.bind_eq_bind, Option.bind_eq_some_iff, Option.map_eq_some_iff] at h
    obtain ⟨u, ⟨a, ha, b, hb, c, hc, d, hd, -⟩, tail, htail, -⟩ := h
    refine splitQuote_cons_escaped ?_
    obtain ⟨body, hbody⟩ := ih htail
    refine ⟨h₁ :: h₂ :: h₃ :: h₄ :: body, ?_⟩
    rw [splitQuote_plain (hexValue_plain ha).1 (hexValue_plain ha).2,
      splitQuote_plain (hexValue_plain hb).1 (hexValue_plain hb).2,
      splitQuote_plain (hexValue_plain hc).1 (hexValue_plain hc).2,
      splitQuote_plain (hexValue_plain hd).1 (hexValue_plain hd).2, hbody]
    rfl
  | case5 e rest hnotHex ih =>
    rw [parseJsonBody.eq_4 _ _ hnotHex] at h
    simp only [Option.bind_eq_some_iff, Option.map_eq_some_iff] at h
    obtain ⟨u, -, tail, htail, -⟩ := h
    exact splitQuote_cons_escaped (ih htail)
  | case6 c rest hquote hnotHex hslash hbad =>
    rw [parseJsonBody.eq_5 _ _ hquote hnotHex hslash, if_pos hbad] at h
    cases h
  | case7 c rest hquote hnotHex hslash hgood ih =>
    rw [parseJsonBody.eq_5 _ _ hquote hnotHex hslash, if_neg hgood, Option.map_eq_some_iff] at h
    obtain ⟨tail, htail, -⟩ := h
    obtain ⟨body, hbody⟩ := ih htail
    exact ⟨c :: body, by rw [splitQuote_plain hquote fun hc => hgood (Or.inl hc), hbody]; rfl⟩

/-- A quoted string that is cut before its end is no quoted string. -/
theorem parseQuoted_cut {s : JsString} {piece rest : Text} (h : quoted s = piece ++ ',' :: rest) :
    parseQuoted (trimText piece) = none := by
  cases piece with
  | nil => exact absurd (List.cons.inj h).1 (by decide)
  | cons c piece =>
    obtain ⟨rfl, hbody⟩ := List.cons.inj h
    have hstart : trimStart ('"' :: piece) = '"' :: piece := List.dropWhile_cons_of_neg (by decide)
    have hne : trimText ('"' :: piece) ≠ [] := by
      rw [trimText, hstart, trimEnd, ne_eq, List.rdropWhile_eq_nil_iff]
      intro hspace
      exact absurd (hspace '"' List.mem_cons_self) (by decide)
    have hprefix : trimText ('"' :: piece) <+: '"' :: piece := by
      rw [trimText, hstart]
      exact List.rdropWhile_prefix _ _
    obtain ⟨d, cut, htrim⟩ := List.exists_cons_of_ne_nil hne
    rw [htrim] at hprefix ⊢
    obtain ⟨rfl, after, rfl⟩ := List.cons_prefix_cons.mp hprefix
    have hparse : parseJsonString ('"' :: cut) = none := by
      rw [Option.eq_none_iff_forall_ne_some]
      intro t ht
      obtain ⟨body, hsplit⟩ := splitQuote_of_parse ht
      -- The quote at which the cut string ends would end the whole string before the comma.
      have hwhole := splitQuote_append (after ++ ',' :: rest) hsplit
      have htext : cut ++ (after ++ ',' :: rest) = jsonBody s ++ ['"'] := by
        rw [hbody]
        simp
      rw [htext, splitQuote_jsonBody, Option.some.injEq, Prod.mk.injEq] at hwhole
      exact absurd hwhole.2 (by simp)
    rw [parseQuoted]
    split_ifs with hquote hsingle
    · exact hparse
    · exact absurd hsingle.1 (by simp)
    · rfl

/-! ### Lists -/

/-- A list of texts without commas, as it is written. -/
theorem splitOn_list {t : Text} {ts : List Text} (h : ∀ u ∈ t :: ts, ',' ∉ u) :
    (List.intercalate [',', ' '] (t :: ts)).splitOn ',' = t :: ts.map (' ' :: ·) := by
  induction ts generalizing t with
  | nil =>
    rw [List.intercalate_singleton, List.splitOn_eq_singleton (h t List.mem_cons_self)]
    rfl
  | cons u ts ih =>
    have hsplit := ih fun v hv => h v (List.mem_cons_of_mem _ hv)
    have hcons : List.intercalate [',', ' '] (t :: u :: ts) =
        t ++ ',' :: ' ' :: List.intercalate [',', ' '] (u :: ts) := by
      rw [List.intercalate_cons_cons]
      simp
    rw [hcons, List.splitOn_append_cons_self_of_not_mem (h t List.mem_cons_self),
      List.splitOn_cons_eq_if_modifyHead, if_neg (by decide), hsplit]
    rfl

/-- Where a text of a list has a comma in it, one of the parts is cut. -/
theorem exists_cut {ts : List Text} {t : Text} (ht : t ∈ ts) (hcomma : ',' ∈ t) :
    ∃ cut rest, t = cut ++ ',' :: rest ∧
      ∃ piece ∈ (List.intercalate [',', ' '] ts).splitOn ',', trimText piece = trimText cut := by
  obtain ⟨cut, rest, rfl, hcut⟩ := List.eq_append_cons_of_mem hcomma
  refine ⟨cut, rest, rfl, ?_⟩
  induction ts with
  | nil => exact absurd ht List.not_mem_nil
  | cons u us ih =>
    have hhead : ∀ more, cut ∈ (cut ++ ',' :: rest ++ more).splitOn ',' := by
      intro more
      rw [List.append_assoc, List.cons_append, List.splitOn_append_cons_self_of_not_mem hcut]
      exact List.mem_cons_self
    rcases List.mem_cons.mp ht with rfl | ht
    · cases us with
      | nil =>
        rw [List.intercalate_singleton]
        exact ⟨cut, by simpa using hhead [], rfl⟩
      | cons v vs =>
        rw [List.intercalate_cons_cons, List.append_assoc]
        exact ⟨cut, hhead _, rfl⟩
    · obtain ⟨piece, hpiece, htrim⟩ := ih ht
      have hcons : List.intercalate [',', ' '] (u :: us) =
          u ++ ',' :: ' ' :: List.intercalate [',', ' '] us := by
        rw [List.intercalate_cons_of_ne_nil (List.ne_nil_of_mem ht)]
        simp
      rw [hcons, List.splitOn_append_cons_self]
      -- The space behind a comma is the first character of the next part.
      obtain ⟨first, parts, hparts⟩ := List.exists_cons_of_ne_nil
        (List.splitOn_ne_nil ',' (List.intercalate [',', ' '] us))
      rw [List.splitOn_cons_eq_if_modifyHead, if_neg (by decide), hparts, List.modifyHead_cons]
      rw [hparts] at hpiece
      rcases List.mem_cons.mp hpiece with rfl | hpiece
      · exact ⟨' ' :: piece, List.mem_append_right _ List.mem_cons_self, htrim⟩
      · exact ⟨piece, List.mem_append_right _ (List.mem_cons_of_mem _ hpiece), htrim⟩

theorem mapM_isSome {α β : Type} {f : α → Option β} {l : List α} {r : List β}
    (h : l.mapM f = some r) : ∀ a ∈ l, f a ≠ none := by
  induction l generalizing r with
  | nil => exact fun _ ha => absurd ha List.not_mem_nil
  | cons a l ih =>
    simp only [List.mapM_cons, Option.bind_eq_bind, Option.bind_eq_some_iff, Option.pure_def,
      Option.some.injEq] at h
    obtain ⟨b, hb, r, hr, -⟩ := h
    intro a' ha'
    rcases List.mem_cons.mp ha' with rfl | ha'
    · simp [hb]
    · exact ih hr a' ha'

theorem mapM_parseQuoted (values : List JsString) :
    (values.map quoted).mapM parseQuoted = some values := by
  induction values with
  | nil => rfl
  | cons value values ih =>
    rw [List.map_cons, List.mapM_cons, parseQuoted_quoted, ih]
    rfl

theorem trimmed_list {values : List JsString} (h : values ≠ []) :
    Trimmed (List.intercalate [',', ' '] (values.map quoted)) := by
  induction values with
  | nil => exact absurd rfl h
  | cons value values ih =>
    cases values with
    | nil =>
      rw [List.map_singleton, List.intercalate_singleton]
      exact trimmed_quoted value
    | cons other values =>
      obtain ⟨-, init, c, hlast, hc⟩ := ih (List.cons_ne_nil _ _)
      have hcons : List.intercalate [',', ' '] ((value :: other :: values).map quoted) =
          quoted value ++ [',', ' '] ++
            List.intercalate [',', ' '] ((other :: values).map quoted) := by
        rw [List.map_cons, List.map_cons, List.intercalate_cons_cons]
      rw [hcons]
      refine ⟨⟨'"', _, rfl, by decide⟩, ⟨quoted value ++ [',', ' '] ++ init, c, ?_, hc⟩⟩
      rw [hlast]
      simp

theorem write_quotedList (values : List JsString) : (MetadataValue.quotedList values).write =
    '[' :: (List.intercalate [',', ' '] (values.map quoted) ++ [']']) := rfl

/-- What stands between the brackets. -/
theorem listBody_write (values : List JsString) :
    ((MetadataValue.quotedList values).write.drop 1).dropLast =
      List.intercalate [',', ' '] (values.map quoted) := by
  rw [write_quotedList, List.drop_one, List.tail_cons, List.dropLast_concat]

/-- A list is read back where it has at most 32 strings and no comma in any. -/
theorem listItems_write (values : List JsString) (hcomma : ∀ value ∈ values, ',' ∉ quoted value) :
    listItems (MetadataValue.quotedList values).write =
      if values.length > MAX_LIST_ITEMS then none else some values := by
  unfold listItems
  simp only [listBody_write]
  cases values with
  | nil => rfl
  | cons value values =>
    have htrimmed := trimmed_list (List.cons_ne_nil value values)
    have hne : List.intercalate [',', ' '] ((value :: values).map quoted) ≠ [] := by
      obtain ⟨c, rest, hcons, -⟩ := htrimmed.first
      rw [hcons]
      exact List.cons_ne_nil _ _
    have hno : ∀ u ∈ quoted value :: values.map quoted, ',' ∉ u := by
      intro u hu
      obtain ⟨v, hv, rfl⟩ := List.mem_map.mp (show u ∈ (value :: values).map quoted from hu)
      exact hcomma v hv
    have hitems : ((List.intercalate [',', ' '] ((value :: values).map quoted)).splitOn ',').map
        trimText = (value :: values).map quoted := by
      rw [List.map_cons, splitOn_list hno, List.map_cons, List.map_map,
        (trimmed_quoted value).trimText]
      refine congrArg _ (List.ext_getElem (by simp) fun i h₁ h₂ => ?_)
      simp only [List.getElem_map, Function.comp_apply]
      exact trimText_space (trimmed_quoted _) [' '] (by decide)
    rw [htrimmed.trimText, if_neg hne]
    simp only [hitems, List.length_map, mapM_parseQuoted]

/-- A list with a comma in one of its strings is not read. -/
theorem listItems_comma {values : List JsString} {value : JsString} (hvalue : value ∈ values)
    (hcomma : ',' ∈ quoted value) : listItems (MetadataValue.quotedList values).write = none := by
  obtain ⟨cut, rest, hcut, piece, hpiece, htrim⟩ := exists_cut (List.mem_map_of_mem hvalue) hcomma
  have htrimmed := trimmed_list (List.ne_nil_of_mem hvalue)
  have hne : List.intercalate [',', ' '] (values.map quoted) ≠ [] := by
    obtain ⟨c, more, hcons, -⟩ := htrimmed.first
    rw [hcons]
    exact List.cons_ne_nil _ _
  unfold listItems
  simp only [listBody_write, htrimmed.trimText, if_neg hne]
  split_ifs with hmany
  · rfl
  · rw [Option.eq_none_iff_forall_ne_some]
    intro items hitems
    refine mapM_isSome hitems (trimText piece) (List.mem_map_of_mem hpiece) ?_
    rw [htrim]
    exact parseQuoted_cut hcut

/-! ### Values -/

/-- The value the verifier reads for a value of the metadata. -/
def MetadataValue.scalar : MetadataValue → Scalar × FrontmatterValueType
  | .quoted value => (.text value, .string)
  | .nullableQuoted none => (.null, .null)
  | .nullableQuoted (some value) => (.text value, .string)
  | .quotedList values => (.list values, .stringList)
  | .number value => (.number (Nat.toDigits 10 value), .number)

/-- The strings of a list are few, and none has a comma. -/
def MetadataValue.ListFits : MetadataValue → Prop
  | .quotedList values =>
    values.length ≤ MAX_LIST_ITEMS ∧ ∀ value ∈ values, ',' ∉ Contracts.quoted value
  | _ => True

theorem scalar_quoted {s : JsString} (h : textLength (quoted s) ≤ MAX_SCALAR_LENGTH) :
    Staging.scalar (quoted s) = some (.text s, .string) := by
  rw [Staging.scalar, if_neg (by omega), parseQuoted_quoted]

theorem parseQuoted_none {c : Char} {rest : Text} (hdouble : c ≠ '"') (hsingle : c ≠ '\'') :
    parseQuoted (c :: rest) = none := by
  rw [parseQuoted]
  split_ifs with h h'
  · exact absurd (Option.some.inj h.1) hdouble
  · exact absurd (Option.some.inj h'.1) hsingle
  · rfl

theorem toDigits_head {n : Nat} (h : 0 < n) :
    ∃ c rest, Nat.toDigits 10 n = c :: rest ∧ c ≠ '0' := by
  induction n using Nat.strongRecOn with
  | ind n ih =>
    by_cases hsmall : n < 10
    · refine ⟨n.digitChar, [], Nat.toDigits_of_lt_base hsmall, ?_⟩
      interval_cases n <;> decide
    · obtain ⟨c, rest, hdigits, hc⟩ := ih (n / 10) (by omega) (by omega)
      refine ⟨c, rest ++ [(n % 10).digitChar], ?_, hc⟩
      rw [Nat.toDigits_of_base_le (by decide) (by omega), hdigits]
      rfl

theorem isNumeral_toDigits (n : Nat) : isNumeral (Nat.toDigits 10 n) = true := by
  rcases Nat.eq_zero_or_pos n with rfl | hpos
  · rfl
  · obtain ⟨c, rest, hdigits, hc⟩ := toDigits_head hpos
    have hall : ∀ d ∈ Nat.toDigits 10 n, d.isDigit = true :=
      fun d hd => Nat.isDigit_of_mem_toDigits (by decide) (by decide) hd
    rw [hdigits] at hall ⊢
    have hdigit := hall c List.mem_cons_self
    have hrest : rest.dropWhile Char.isDigit = [] :=
      List.dropWhile_eq_nil_iff.mpr fun d hd => hall d (List.mem_cons_of_mem _ hd)
    have hminus : c ≠ '-' := by
      rintro rfl
      exact absurd hdigit (by decide)
    unfold isNumeral
    split
    · rename_i heq
      exact absurd (List.cons.inj heq).1 hminus
    · simp only
      rw [hdigit, hrest]
      rfl

theorem scalar_number {n : Nat} (h : textLength (Nat.toDigits 10 n) ≤ MAX_SCALAR_LENGTH) :
    Staging.scalar (Nat.toDigits 10 n) = some (.number (Nat.toDigits 10 n), .number) := by
  obtain ⟨c, rest, hcons⟩ := List.exists_cons_of_ne_nil (Nat.toDigits_ne_nil : Nat.toDigits 10 n ≠ [])
  have hc : c.isDigit = true :=
    Nat.isDigit_of_mem_toDigits (by decide) (by decide) (hcons ▸ List.mem_cons_self)
  have hne : ∀ d : Char, d.isDigit = false → c ≠ d := by
    rintro d hd rfl
    rw [hc] at hd
    cases hd
  have hnumeral := isNumeral_toDigits n
  rw [hcons] at h hnumeral ⊢
  have hword : ∀ d tail, d.isDigit = false → c :: rest ≠ d :: tail :=
    fun d tail hd heq => hne d hd (List.cons.inj heq).1
  have hnull : ¬(c :: rest = "null".toList ∨ c :: rest = "~".toList) := by
    rintro (heq | heq)
    · exact hword 'n' _ (by decide) heq
    · exact hword '~' _ (by decide) heq
  have hboolean : ¬(c :: rest = "true".toList ∨ c :: rest = "false".toList) := by
    rintro (heq | heq)
    · exact hword 't' _ (by decide) heq
    · exact hword 'f' _ (by decide) heq
  rw [Staging.scalar, if_neg (by omega), parseQuoted_none (hne '"' (by decide))
    (hne '\'' (by decide))]
  simp only [if_neg hnull, if_neg hboolean, hnumeral, if_true]

theorem scalar_list {values : List JsString}
    (h : textLength (MetadataValue.quotedList values).write ≤ MAX_SCALAR_LENGTH) :
    Staging.scalar (MetadataValue.quotedList values).write =
      (listItems (MetadataValue.quotedList values).write).map fun items =>
        (.list items, .stringList) := by
  obtain ⟨t, ht⟩ : ∃ t, (MetadataValue.quotedList values).write = '[' :: t := ⟨_, rfl⟩
  have hlast : (MetadataValue.quotedList values).write.getLast? = some ']' := by
    rw [write_quotedList, ← List.cons_append, List.getLast?_concat]
  rw [ht] at h hlast ⊢
  have hnull : ¬('[' :: t = "null".toList ∨ '[' :: t = "~".toList) := by
    rintro (heq | heq)
    · exact absurd (List.cons.inj heq).1 (by decide)
    · exact absurd (List.cons.inj heq).1 (by decide)
  have hboolean : ¬('[' :: t = "true".toList ∨ '[' :: t = "false".toList) := by
    rintro (heq | heq)
    · exact absurd (List.cons.inj heq).1 (by decide)
    · exact absurd (List.cons.inj heq).1 (by decide)
  have hnumeral : isNumeral ('[' :: t) = false := rfl
  have hdate : isDateText ('[' :: t) = false := by
    unfold isDateText
    split
    · rename_i heq
      rw [← (List.cons.inj heq).1]
      rfl
    · rfl
  rw [Staging.scalar, if_neg (by omega), parseQuoted_none (by decide) (by decide)]
  simp only [if_neg hnull, if_neg hboolean, hnumeral, hdate, Bool.false_eq_true, if_false]
  rw [if_pos ⟨rfl, hlast⟩]

/-- A value is read back where it is short enough and, as a list, fits. -/
theorem scalar_write (value : MetadataValue) :
    (textLength value.write ≤ MAX_SCALAR_LENGTH ∧ value.ListFits →
      Staging.scalar value.write = some value.scalar) ∧
    (Staging.scalar value.write ≠ none →
      textLength value.write ≤ MAX_SCALAR_LENGTH ∧ value.ListFits) := by
  have hlong : Staging.scalar value.write ≠ none → textLength value.write ≤ MAX_SCALAR_LENGTH := by
    intro h
    by_contra hlong
    exact h (by rw [Staging.scalar, if_pos (by omega)])
  cases value with
  | quoted value => exact ⟨fun h => scalar_quoted h.1, fun h => ⟨hlong h, trivial⟩⟩
  | nullableQuoted value =>
    cases value with
    | none => exact ⟨fun _ => rfl, fun h => ⟨hlong h, trivial⟩⟩
    | some value => exact ⟨fun h => scalar_quoted h.1, fun h => ⟨hlong h, trivial⟩⟩
  | number value => exact ⟨fun h => scalar_number h.1, fun h => ⟨hlong h, trivial⟩⟩
  | quotedList values =>
    constructor
    · rintro ⟨hlength, hcount, hcomma⟩
      rw [scalar_list hlength, listItems_write values hcomma, if_neg (by omega)]
      rfl
    · intro h
      have hlength := hlong h
      rw [scalar_list hlength] at h
      have hcomma : ∀ value ∈ values, ',' ∉ quoted value := by
        intro value hvalue hmem
        exact h (by rw [listItems_comma hvalue hmem]; rfl)
      refine ⟨hlength, ?_, hcomma⟩
      by_contra hmany
      exact h (by rw [listItems_write values hcomma, if_pos (by omega)]; rfl)

/-! ### Lines -/

/-- A value on one line. -/
def MetadataValue.OneLine (value : MetadataValue) : Prop := value.write.any isLineTerminator = false

/-- The names of the metadata are keys. -/
def IsKey (name : Text) : Prop :=
  name ≠ [] ∧ (∀ c ∈ name, isKeyChar c = true) ∧ textLength name ≤ MAX_KEY_LENGTH

theorem isJsSpace_of_isKeyChar {c : Char} (h : isKeyChar c = true) : isJsSpace c = false := by
  simp only [isKeyChar, Bool.or_eq_true, beq_iff_eq] at h
  rcases h with ((halnum | rfl) | rfl) | rfl
  · exact isJsSpace_of_isAlnum halnum
  all_goals decide

theorem trimmed_field {name : Text} (hkey : IsKey name) (value : MetadataValue) :
    Trimmed (name ++ ':' :: ' ' :: value.write) := by
  obtain ⟨hne, hchars, -⟩ := hkey
  obtain ⟨init, c, hlast, hc⟩ := (trimmed_write value).last
  obtain ⟨d, rest, rfl⟩ := List.exists_cons_of_ne_nil hne
  refine ⟨⟨d, _, rfl, isJsSpace_of_isKeyChar (hchars d List.mem_cons_self)⟩,
    ⟨d :: rest ++ ':' :: ' ' :: init, c, ?_, hc⟩⟩
  rw [hlast]
  simp

theorem trimStart_space {t : Text} (h : Trimmed t) (space : Text)
    (hspace : ∀ c ∈ space, isJsSpace c = true) : trimStart (space ++ t) = t := by
  obtain ⟨c, rest, rfl, hc⟩ := h.first
  rw [trimStart, List.dropWhile_append_of_pos hspace, List.dropWhile_cons_of_neg (by simp [hc])]

theorem fieldLine_layout {field : String × MetadataValue} (hkey : IsKey field.1.toList) :
    trimText (fieldLine field) = field.1.toList ++ ':' :: ' ' :: field.2.write ∧
      indentOf (fieldLine field) = 2 ∧ isSkipped (fieldLine field) = false := by
  have htrimmed := trimmed_field hkey field.2
  have hspace : ∀ c ∈ [' ', ' '], isJsSpace c = true := by decide
  have htext := trimText_space htrimmed [' ', ' '] hspace
  have hstart := trimStart_space htrimmed [' ', ' '] hspace
  obtain ⟨hne, hchars, -⟩ := hkey
  refine ⟨htext, ?_, ?_⟩
  · rw [indentOf, fieldLine, hstart, textLength_append, Nat.add_sub_cancel]
    rfl
  · rw [isSkipped, fieldLine, htext, hstart]
    obtain ⟨d, rest, hcons⟩ := List.exists_cons_of_ne_nil hne
    have hd : d ≠ '#' := by
      rintro rfl
      exact absurd (hchars '#' (hcons ▸ List.mem_cons_self)) (by decide)
    simp [hcons, hd]

/-- The entry of a line of the metadata. -/
theorem entryOf_fieldLine {field : String × MetadataValue} (hkey : IsKey field.1.toList) :
    entryOf (fieldLine field) =
      if field.2.write.any isLineTerminator then none
      else some { indent := 2, key := field.1.toList, text := field.2.write } := by
  obtain ⟨htext, hindent, hskipped⟩ := fieldLine_layout hkey
  obtain ⟨hne, hchars, -⟩ := hkey
  have hcolon : ¬isKeyChar ':' = true := by decide
  have hdrop : (field.1.toList ++ ':' :: ' ' :: field.2.write).dropWhile isKeyChar =
      ':' :: ' ' :: field.2.write := by
    rw [List.dropWhile_append_of_pos hchars, List.dropWhile_cons_of_neg hcolon]
  have htake : (field.1.toList ++ ':' :: ' ' :: field.2.write).takeWhile isKeyChar =
      field.1.toList := by
    rw [List.takeWhile_append_of_pos hchars, List.takeWhile_cons_of_neg hcolon, List.append_nil]
  have hvalue := trimText_space (trimmed_write field.2) [' '] (by decide)
  have hmatch : matchField (field.1.toList ++ ':' :: ' ' :: field.2.write) =
      if field.2.write.any isLineTerminator then none
      else some (field.1.toList, ' ' :: field.2.write) := by
    have hspace : isLineTerminator ' ' = false := by decide
    rw [matchField, hdrop]
    simp only [htake, hne, ne_eq, not_false_eq_true, List.any_cons, hspace, Bool.false_or, true_and]
    cases field.2.write.any isLineTerminator <;> rfl
  rw [entryOf, if_neg (by rw [hskipped]; decide), htext, hmatch, hindent]
  cases field.2.write.any isLineTerminator with
  | true => rfl
  | false =>
    rw [List.singleton_append] at hvalue
    simp [hvalue]

theorem wellFormed_fieldLine {field : String × MetadataValue} (hkey : IsKey field.1.toList) :
    WellFormed (fieldLine field) ↔ field.2.OneLine := by
  have hentry := entryOf_fieldLine hkey
  obtain ⟨-, -, hskipped⟩ := fieldLine_layout hkey
  rw [MetadataValue.OneLine]
  cases hline : field.2.write.any isLineTerminator with
  | true =>
    rw [hline, if_pos rfl] at hentry
    exact ⟨fun h => absurd hentry (h.isEntry hskipped), fun h => by cases h⟩
  | false =>
    rw [hline] at hentry
    refine ⟨fun _ => rfl, fun _ => (wellFormed_entry hentry).mpr ⟨(by decide : 2 % 2 = 0 ∧ 2 ≤ MAX_DEPTH * 2), hkey.2.2⟩⟩

/-! ### The metadata -/

theorem isKey_fields (m : CanonicalMarkdownMetadata) : ∀ field ∈ m.fields, IsKey field.1.toList := by
  have hnames : ∀ name ∈ m.fields.map (·.1), name.toList ≠ [] ∧
      name.toList.all isKeyChar = true ∧ textLength name.toList ≤ MAX_KEY_LENGTH := by
    simp only [CanonicalMarkdownMetadata.fields, List.map_cons, List.map_nil]
    decide +kernel
  intro field hfield
  obtain ⟨hne, hall, hlength⟩ := hnames field.1 (List.mem_map_of_mem hfield)
  exact ⟨hne, List.all_eq_true.mp hall, hlength⟩

/-- The path of a field of the metadata. -/
def reservedPath (name : String) : Text := "markorbit".toList ++ '.' :: name.toList

/-- The field that the verifier reads for a field of the metadata. -/
def readField (field : String × MetadataValue) : ParsedField :=
  { path := reservedPath field.1, value := field.2.scalar.1, valueType := field.2.scalar.2 }

/-- A value within the limits of the verifier. -/
structure MetadataValue.Fits (value : MetadataValue) : Prop where
  oneLine : value.OneLine
  short : textLength value.write ≤ MAX_SCALAR_LENGTH
  list : value.ListFits

def fieldEntry (field : String × MetadataValue) : Entry :=
  { indent := 2, key := field.1.toList, text := field.2.write }

def fieldDeclaration (field : String × MetadataValue) : Declaration :=
  { path := reservedPath field.1, text := field.2.write }

/-- The block that the metadata is in. -/
def reservedBlock : Text := "markorbit".toList

theorem entries_fields {fields : List (String × MetadataValue)}
    (hkeys : ∀ field ∈ fields, IsKey field.1.toList) (hline : ∀ field ∈ fields, field.2.OneLine)
    (more : List Text) :
    entries (fields.map fieldLine ++ more) = fields.map fieldEntry ++ entries more := by
  induction fields with
  | nil => rfl
  | cons field fields ih =>
    have hentry : entryOf (fieldLine field) = some (fieldEntry field) := by
      rw [entryOf_fieldLine (hkeys field List.mem_cons_self), hline field List.mem_cons_self]
      rfl
    rw [List.map_cons, List.cons_append, entries_cons_some hentry,
      ih (fun f h => hkeys f (List.mem_cons_of_mem _ h)) fun f h => hline f (List.mem_cons_of_mem _ h)]
    rfl

theorem declarations_fields (parent : Text) (fields : List (String × MetadataValue))
    (es : List Entry) :
    declarations (some parent) (fields.map fieldEntry ++ es) =
      (fields.map fun field => ⟨parent ++ '.' :: field.1.toList, field.2.write⟩) ++
        declarations (some parent) es := by
  induction fields with
  | nil => rfl
  | cons field fields ih => exact congrArg _ ih

theorem nested_fields (parent : Text) (fields : List (String × MetadataValue)) (es : List Entry) :
    Nested (some parent) (fields.map fieldEntry ++ es) ↔ Nested (some parent) es := by
  induction fields with
  | nil => exact Iff.rfl
  | cons field fields ih =>
    refine Iff.trans ?_ ih
    exact ⟨fun h => h.2, fun h => ⟨Or.inr (by simp), h⟩⟩

theorem lastParent_fields (parent : Text) (fields : List (String × MetadataValue))
    (es : List Entry) :
    lastParent (some parent) (fields.map fieldEntry ++ es) = lastParent (some parent) es := by
  induction fields with
  | nil => rfl
  | cons field fields ih => exact ih

theorem mapM_read_fields {fields : List (String × MetadataValue)} {ds : List Declaration}
    {read : List ParsedField} :
    (fields.map fieldDeclaration ++ ds).mapM Declaration.read = some read ↔
      (∀ field ∈ fields, textLength field.2.write ≤ MAX_SCALAR_LENGTH ∧ field.2.ListFits) ∧
        ∃ more, ds.mapM Declaration.read = some more ∧ read = fields.map readField ++ more := by
  induction fields generalizing read with
  | nil => simp
  | cons field fields ih =>
    have hread : ∀ parsed, (fieldDeclaration field).read = some parsed ↔
        (textLength field.2.write ≤ MAX_SCALAR_LENGTH ∧ field.2.ListFits) ∧
          parsed = readField field := by
      intro parsed
      obtain ⟨hfits, hnone⟩ := scalar_write field.2
      rw [Declaration.read]
      constructor
      · intro h
        have hscalar : scalar field.2.write ≠ none := by
          intro hnone
          rw [fieldDeclaration, hnone] at h
          cases h
        refine ⟨hnone hscalar, ?_⟩
        rw [fieldDeclaration, hfits (hnone hscalar)] at h
        exact (Option.some.inj h).symm
      · rintro ⟨h, rfl⟩
        rw [fieldDeclaration, hfits h]
        rfl
    rw [List.map_cons, List.cons_append, List.mapM_cons]
    simp only [Option.bind_eq_bind, Option.bind_eq_some_iff, Option.pure_def, Option.some.injEq, hread,
      ih, List.forall_mem_cons]
    constructor
    · rintro ⟨parsed, ⟨hfield, rfl⟩, rest, ⟨hrest, more, hmore, rfl⟩, rfl⟩
      exact ⟨⟨hfield, hrest⟩, more, hmore, rfl⟩
    · rintro ⟨⟨hfield, hrest⟩, more, hmore, rfl⟩
      exact ⟨_, ⟨hfield, rfl⟩, _, ⟨hrest, more, hmore, rfl⟩, rfl⟩

/-- The state behind the metadata. -/
def CanonicalMarkdownMetadata.state (m : CanonicalMarkdownMetadata) : LineState :=
  { parent := some reservedBlock, fields := m.fields.map readField }

theorem accepts_canonical {m : CanonicalMarkdownMetadata} {es : List Entry} {state : LineState} :
    Accepts { parent := none, fields := [] }
        ({ indent := 0, key := reservedBlock, text := [] } :: (m.fields.map fieldEntry ++ es)) state ↔
      (∀ field ∈ m.fields, textLength field.2.write ≤ MAX_SCALAR_LENGTH ∧ field.2.ListFits) ∧
        Accepts m.state es state := by
  have hpaths : m.state.paths = (m.fields.map fieldDeclaration).map (·.path) := by
    rw [LineState.paths, CanonicalMarkdownMetadata.state, List.map_map, List.map_map]
    rfl
  have hdeclarations : declarations (some reservedBlock) (m.fields.map fieldEntry ++ es) =
      m.fields.map fieldDeclaration ++ declarations (some reservedBlock) es :=
    declarations_fields reservedBlock m.fields es
  rw [Accepts.parent_iff rfl, accepts_iff, accepts_iff]
  have hafter : Entry.after { indent := 0, key := reservedBlock, text := [] } none =
      some reservedBlock := rfl
  simp only [hafter, hdeclarations, nested_fields, lastParent_fields, mapM_read_fields, hpaths,
    List.map_append, List.length_append, List.length_map]
  constructor
  · rintro ⟨hnested, hdistinct, hroom, read, ⟨hfits, more, hmore, rfl⟩, rfl⟩
    refine ⟨hfits, hnested, hdistinct, ?_, more, hmore, rfl⟩
    simpa [CanonicalMarkdownMetadata.state] using hroom
  · rintro ⟨hfits, hnested, hdistinct, hroom, more, hmore, rfl⟩
    refine ⟨hnested, hdistinct, ?_, _, ⟨hfits, more, hmore, rfl⟩, rfl⟩
    simpa [CanonicalMarkdownMetadata.state] using hroom

/-- What the verifier accepts of a frontmatter that begins with the metadata. -/
theorem parseRaw_canonical {m : CanonicalMarkdownMetadata} {raw : Text} {more : List Text}
    (hraw : raw.splitOn '\n' = m.lines ++ more) {state : LineState} :
    parseRaw raw = .ok state ↔ utf8Length raw ≤ MAX_FRONTMATTER_BYTES ∧
      containsForbiddenYamlSyntax raw = false ∧ (∀ field ∈ m.fields, field.2.Fits) ∧
      (∀ line ∈ more, WellFormed line) ∧ Accepts m.state (entries more) state := by
  have hblock : entryOf "markorbit:".toList =
      some { indent := 0, key := reservedBlock, text := [] } := by decide +kernel
  have hwell : WellFormed "markorbit:".toList :=
    (wellFormed_entry hblock).mpr (by decide : (0 % 2 = 0 ∧ 0 ≤ MAX_DEPTH * 2) ∧ _ ≤ _)
  have hlines : (∀ line ∈ m.lines ++ more, WellFormed line) ↔
      (∀ field ∈ m.fields, field.2.OneLine) ∧ ∀ line ∈ more, WellFormed line := by
    rw [List.forall_mem_append, CanonicalMarkdownMetadata.lines, List.forall_mem_cons,
      List.forall_mem_map]
    refine and_congr_left fun _ => ?_
    constructor
    · rintro ⟨-, h⟩ field hfield
      exact (wellFormed_fieldLine (isKey_fields m field hfield)).mp (h field hfield)
    · intro h
      exact ⟨hwell, fun field hfield =>
        (wellFormed_fieldLine (isKey_fields m field hfield)).mpr (h field hfield)⟩
  have hentries : (∀ field ∈ m.fields, field.2.OneLine) →
      entries (m.lines ++ more) = { indent := 0, key := reservedBlock, text := [] } ::
        (m.fields.map fieldEntry ++ entries more) := by
    intro h
    rw [CanonicalMarkdownMetadata.lines, List.cons_append, entries_cons_some hblock,
      entries_fields (isKey_fields m) h]
  rw [parseRaw_eq_ok, hraw, hlines]
  constructor
  · rintro ⟨hbytes, hsyntax, ⟨hline, hmore⟩, haccepts⟩
    rw [hentries hline, accepts_canonical] at haccepts
    exact ⟨hbytes, hsyntax, fun field h => ⟨hline field h, (haccepts.1 field h).1,
      (haccepts.1 field h).2⟩, hmore, haccepts.2⟩
  · rintro ⟨hbytes, hsyntax, hfits, hmore, haccepts⟩
    have hline : ∀ field ∈ m.fields, field.2.OneLine := fun field h => (hfits field h).oneLine
    refine ⟨hbytes, hsyntax, ⟨hline, hmore⟩, ?_⟩
    rw [hentries hline, accepts_canonical]
    exact ⟨fun field h => ⟨(hfits field h).short, (hfits field h).list⟩, haccepts⟩

end MarkorbitKnowledge.Staging
