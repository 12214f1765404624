import MarkorbitKnowledge.Staging.Provenance

/-!
# What the converter produces

The check of the worker service accepts every document the converter produces (`convert_accepted`).  Whether
the verifier passes it depends on the metadata, whose values must be within the limits and agree with the
descriptor, and on the frontmatter of the source that is taken over (`convert_verifies_iff`).
-/

namespace MarkorbitKnowledge.Staging

open Contracts Fallible Delimited

/-- A quantifier over the characters of a text is decided along the text, not over all characters. -/
local instance (priority := 2000) decidableConvertedText {p : Char → Prop} [DecidablePred p] (t : Text) :
    Decidable (∀ c ∈ t, p c) :=
  List.decidableBAll p t

/-! ### The frontmatter of the source -/

/-- What stands behind the metadata in the frontmatter of the output. -/
def LeadingFrontmatter.appended (parsed : LeadingFrontmatter) : Text :=
  match parsed.yaml with
  | none => []
  | some yaml => if trimText yaml = [] then [] else '\n' :: yaml

/-- A frontmatter that is taken over. -/
structure TakenOver (yaml : Text) : Prop where
  kept : redefinesReserved true yaml = false
  mergeable : isMergeableSourceFrontmatter yaml = true

theorem takenOver_of_split {markdown yaml : Text} {parsed : LeadingFrontmatter}
    (h : splitLeadingFrontmatter markdown = .ok parsed) (hyaml : parsed.yaml = some yaml) :
    TakenOver yaml := by
  unfold splitLeadingFrontmatter at h
  split at h
  · split at h
    · split at h
      · cases h
      · cases h
        cases hyaml
    · split at h
      · cases h
      · rename_i hkept
        split at h
        · rename_i hmergeable
          cases h
          obtain rfl := Option.some.inj hyaml
          exact ⟨by simpa using hkept, hmergeable⟩
        · cases h
          cases hyaml
  · cases h
    cases hyaml

theorem startsReserved_newline (t : Text) : startsReserved ('\n' :: t) = false := by
  have hbegins : ¬"markorbit".toList <+: '\n' :: t := by
    intro h
    exact absurd (List.cons_prefix_cons.mp h).1 (by decide)
  rw [startsReserved, decide_eq_false hbegins, Bool.false_and]

namespace TakenOver

variable {yaml : Text}

/-- No line of it is the fence, which is no field. -/
theorem fence_notMem (h : TakenOver yaml) : fence ∉ yaml.splitOn '\n' := by
  intro hfence
  have hmergeable := h.mergeable
  rw [isMergeableSourceFrontmatter, Bool.and_eq_true] at hmergeable
  have hfield := List.all_eq_true.mp hmergeable.2 fence
    (List.mem_filter.mpr ⟨hfence, by decide⟩)
  exact absurd hfield (by decide)

end TakenOver

/-! ### The document it produces -/

theorem trimText_eq_nil {t : Text} : trimText t = [] ↔ ∀ c ∈ t, isJsSpace c = true := by
  rw [trimText, trimEnd, List.rdropWhile_eq_nil_iff]
  constructor
  · intro h c hc
    rw [← List.takeWhile_append_dropWhile (p := isJsSpace) (l := t)] at hc
    rcases List.mem_append.mp hc with hc | hc
    · exact List.mem_takeWhile_imp hc
    · exact h c hc
  · intro h c hc
    exact h c ((List.dropWhile_sublist _).subset hc)

/-- A document of the converter, which is made of the metadata, the frontmatter it takes over and the
    body. -/
structure Converted (m : CanonicalMarkdownMetadata) (parsed : LeadingFrontmatter) (text body : Text) :
    Prop where
  appends : Appends m text parsed.appended body
  body : trimText body = [] ↔ trimText parsed.body = []

theorem appends_of_takenOver {m : CanonicalMarkdownMetadata} {parsed : LeadingFrontmatter}
    (h : ∀ yaml, parsed.yaml = some yaml → TakenOver yaml) (body : Text) :
    Appends m (opening ++ (m.raw ++ parsed.appended ++ delimiter '\n' fence ++ body)) parsed.appended
      body := by
  refine ⟨rfl, ?_, ?_, ?_⟩
  all_goals
    unfold LeadingFrontmatter.appended
    split
  · exact Or.inl rfl
  · split
    · exact Or.inl rfl
    · exact Or.inr rfl
  · decide
  · rename_i yaml hyaml
    split
    · decide
    · rw [tail_splitOn_cons, if_pos rfl]
      exact (h yaml hyaml).fence_notMem
  · rfl
  · rename_i yaml hyaml
    split
    · rfl
    · have hnewline : isLineTerminator '\n' = true := by decide
      rw [redefinesReserved, startsReserved_newline, Bool.and_false, Bool.false_or, hnewline]
      exact (h yaml hyaml).kept

theorem converted_layout {dateParses : JsString → Bool} {m : CanonicalMarkdownMetadata}
    {markdown canonical : Text}
    (h : canonicalMarkdownWithMergedFrontmatter dateParses m markdown = .ok canonical) :
    ∃ parsed frontmatter body, splitLeadingFrontmatter markdown = .ok parsed ∧
      canonicalMarkdownFrontmatter dateParses m = .ok frontmatter ∧
      canonical = opening ++ (m.raw ++ parsed.appended ++ delimiter '\n' fence ++ body) ∧
      (body = parsed.body ∨ body = '\n' :: parsed.body) := by
  simp only [canonicalMarkdownWithMergedFrontmatter, bind_eq_ok] at h
  obtain ⟨parsed, hparsed, frontmatter, hfrontmatter, h⟩ := h
  have hlayout := frontmatter_layout hfrontmatter
  refine ⟨parsed, frontmatter, ?_⟩
  cases hyaml : parsed.yaml with
  | none =>
    simp only [hyaml, pure_eq_ok] at h
    refine ⟨parsed.body, hparsed, hfrontmatter, ?_, Or.inl rfl⟩
    rw [← h, hlayout, LeadingFrontmatter.appended, hyaml]
    simp
  | some yaml =>
    by_cases hblank : trimText yaml = []
    · simp only [hyaml, hblank, if_true, pure_eq_ok] at h
      refine ⟨parsed.body, hparsed, hfrontmatter, ?_, Or.inl rfl⟩
      rw [← h, hlayout, LeadingFrontmatter.appended, hyaml]
      simp [hblank]
    · have hclosed : beforeLast (delimiter '\n' fence) frontmatter = some (opening ++ m.raw) := by
        rw [hlayout]
        exact beforeLast_append (by decide) _
      simp only [hyaml, hblank, if_false, bind_eq_ok, orThrow_eq_ok, hclosed, Option.some.injEq,
        exists_eq_left', pure_eq_ok] at h
      refine ⟨'\n' :: parsed.body, hparsed, hfrontmatter, ?_, Or.inr rfl⟩
      rw [← h, LeadingFrontmatter.appended, hyaml]
      simp [hblank]

section Convert

variable {dateParses : JsString → Bool} {m : CanonicalMarkdownMetadata} {outputLimit : Nat}
  {input output : ByteArray}

/-- What the converter produces, where it produces something. -/
theorem convert_spec (h : convertProductionMarkdownToStaging dateParses m outputLimit input = .ok output) :
    ∃ markdown parsed frontmatter text body, decodeUtf8 input = some markdown ∧
      trimText markdown ≠ [] ∧ splitLeadingFrontmatter markdown = .ok parsed ∧
      canonicalMarkdownFrontmatter dateParses m = .ok frontmatter ∧ output = encodeText text ∧
      Converted m parsed text body := by
  simp only [convertProductionMarkdownToStaging, bind_eq_ok, require_eq_ok, orThrow_eq_ok,
    pure_eq_ok, exists_and_left] at h
  obtain ⟨-, -, -, -, markdown, hmarkdown, hbody, -, canonical, hcanonical, -, -, rfl⟩ := h
  obtain ⟨parsed, frontmatter, body, hparsed, hfrontmatter, hlayout, hkept⟩ :=
    converted_layout hcanonical
  have htaken : ∀ yaml, parsed.yaml = some yaml → TakenOver yaml :=
    fun yaml hyaml => takenOver_of_split hparsed hyaml
  have hnewline : isJsSpace '\n' = true := by decide
  have hblank : trimText body = [] ↔ trimText parsed.body = [] := by
    rcases hkept with rfl | rfl
    · exact Iff.rfl
    · simp only [trimText_eq_nil, List.forall_mem_cons, hnewline, true_and]
  refine ⟨markdown, parsed, frontmatter, _, body ++ if canonical.getLast? = some '\n' then [] else ['\n'],
    hmarkdown, hbody, hparsed, hfrontmatter, rfl, ?_, ?_⟩
  · have happends := appends_of_takenOver htaken (m := m)
      (body ++ if canonical.getLast? = some '\n' then [] else ['\n'])
    have htext : (if canonical.getLast? = some '\n' then canonical else canonical ++ ['\n']) =
        opening ++ (m.raw ++ parsed.appended ++ delimiter '\n' fence ++
          (body ++ if canonical.getLast? = some '\n' then [] else ['\n'])) := by
      split
      · rw [List.append_nil, ← hlayout]
      · rw [hlayout]
        simp
    rw [htext]
    exact happends
  · rw [← hblank]
    split
    · rw [List.append_nil]
    · simp only [trimText_eq_nil, List.forall_mem_append, List.mem_singleton, forall_eq, hnewline,
        and_true]

theorem decodeFatal_appends {text appended body : Text} (h : Appends m text appended body) :
    decodeFatal (encodeText text) = some text := by
  refine decodeFatal_encodeText ?_
  rw [h.layout]
  exact (by decide : some '-' ≠ some '\uFEFF')

/-- A document with frontmatter of its own. -/
def sampleMarkdown : Text := "---\ntitle: A\n---\nBody".toList

theorem convert_sample : ∃ output, convertProductionMarkdownToStaging (fun s => s = sampleDate)
    sampleMetadata 5000000 (encodeText sampleMarkdown) = .ok output := by
  have hvalid : isCanonicalMarkdownMetadataV1 (fun s => s = sampleDate) sampleMetadata = true := by
    decide +kernel
  have hsize : (encodeText sampleMarkdown).size ≤ maximumInputBytes := by
    rw [size_encodeText]
    decide
  have htext : decodeUtf8 (encodeText sampleMarkdown) = some sampleMarkdown := by
    rw [decodeUtf8, decodeFatal_encodeText (by decide)]
    decide
  have hmerged : (canonicalMarkdownWithMergedFrontmatter (fun s => s = sampleDate) sampleMetadata
      sampleMarkdown).toOption.any (fun t => decide (utf8Length t ≤ 4000)) = true := by
    decide +kernel
  cases hcanonical : canonicalMarkdownWithMergedFrontmatter (fun s => s = sampleDate) sampleMetadata
    sampleMarkdown with
  | error e =>
    rw [hcanonical] at hmerged
    cases hmerged
  | ok canonical =>
    rw [hcanonical] at hmerged
    have hlength : utf8Length canonical ≤ 4000 := of_decide_eq_true hmerged
    have hend : utf8Length (if canonical.getLast? = some '\n' then canonical else canonical ++ ['\n']) ≤
        4001 := by
      split
      · omega
      · rw [utf8Length_append]
        have hone : utf8Length ['\n'] = 1 := by decide
        omega
    simp only [convertProductionMarkdownToStaging, bind_eq_ok, require_eq_ok, orThrow_eq_ok, pure_eq_ok]
    refine ⟨_, (), hvalid, (), hsize, sampleMarkdown, htext, (), by decide, canonical, hcanonical, (),
      ?_, rfl⟩
    rw [size_encodeText]
    exact Nat.le_trans hend (by decide)

/-- What the converter produces, the worker service accepts for the same metadata. -/
theorem convert_accepted
    (h : convertProductionMarkdownToStaging dateParses m outputLimit input = .ok output) :
    ∃ frontmatter, canonicalMarkdownFrontmatter dateParses m = .ok frontmatter ∧
      assertCanonicalMarkdown output frontmatter = .ok () := by
  obtain ⟨markdown, parsed, frontmatter, text, body, -, -, -, hfrontmatter, rfl, hconverted⟩ :=
    convert_spec h
  exact ⟨frontmatter, hfrontmatter, (assertCanonicalMarkdown_eq_ok hfrontmatter).mpr
    ⟨text, parsed.appended, body, decodeFatal_appends hconverted.appends, hconverted.appends⟩⟩

theorem convert_accepted_sample : ∃ output frontmatter,
    canonicalMarkdownFrontmatter (fun s => s = sampleDate) sampleMetadata = .ok frontmatter ∧
      assertCanonicalMarkdown output frontmatter = .ok () := by
  obtain ⟨output, houtput⟩ := convert_sample
  exact ⟨output, convert_accepted houtput⟩

end Convert

/-! ### Forbidden syntax -/

/-- The scan for forbidden syntax passes over a text, and is not inside of a quote behind it. -/
def PassedOver (t : Text) : Prop :=
  ∀ previous rest, ∃ previous', forbiddenFrom { quote := none, previous, skip := false } (t ++ rest) =
    forbiddenFrom { quote := none, previous := previous', skip := false } rest

theorem PassedOver.append {t u : Text} (ht : PassedOver t) (hu : PassedOver u) :
    PassedOver (t ++ u) := by
  intro previous rest
  obtain ⟨between, hbetween⟩ := ht previous (u ++ rest)
  obtain ⟨previous', hprevious⟩ := hu between rest
  exact ⟨previous', by rw [List.append_assoc, hbetween, hprevious]⟩

/-- No quote, and nothing that forbidden syntax begins with. -/
def isHarmless (c : Char) : Bool := !"\"'&*!<".toList.contains c

theorem forbiddenFrom_quote (previous : Option Char) (rest : Text) :
    forbiddenFrom { quote := none, previous, skip := false } ('"' :: rest) =
      forbiddenFrom { quote := some '"', previous := some '"', skip := false } rest := rfl

/-- A character inside of a double quote: a backslash, the closing quote, or any other. -/
theorem forbiddenFrom_quoted (c : Char) (previous : Option Char) (rest : Text) :
    forbiddenFrom { quote := some '"', previous, skip := false } (c :: rest) =
      if c = '\\' then forbiddenFrom { quote := some '"', previous := some c, skip := true } rest
      else if c = '"' then forbiddenFrom { quote := none, previous := some c, skip := false } rest
      else forbiddenFrom { quote := some '"', previous := some c, skip := false } rest := by
  rw [forbiddenFrom]
  simp

theorem forbiddenFrom_skipped (quote previous : Option Char) (c : Char) (rest : Text) :
    forbiddenFrom { quote, previous, skip := true } (c :: rest) =
      forbiddenFrom { quote, previous := some c, skip := false } rest := rfl

theorem forbiddenFrom_harmless {c : Char} (h : isHarmless c = true) (previous : Option Char)
    (rest : Text) :
    forbiddenFrom { quote := none, previous, skip := false } (c :: rest) =
      forbiddenFrom { quote := none, previous := some c, skip := false } rest := by
  obtain ⟨hdouble, hsingle, hanchor, halias, htag, hmerge⟩ :
      c ≠ '"' ∧ c ≠ '\'' ∧ c ≠ '&' ∧ c ≠ '*' ∧ c ≠ '!' ∧ c ≠ '<' := by
    simpa [isHarmless] using h
  rw [forbiddenFrom]
  simp [hdouble, hsingle, hanchor, halias, htag, hmerge.symm]

theorem isHarmless_of_isKeyChar {c : Char} (h : isKeyChar c = true) : isHarmless c = true := by
  have hspecial : ∀ d ∈ "\"'&*!<".toList, isKeyChar d = false := by decide
  cases hc : "\"'&*!<".toList.contains c with
  | false => rw [isHarmless, hc, Bool.not_false]
  | true =>
    rw [hspecial c (List.contains_iff_mem.mp hc)] at h
    cases h

theorem passedOver_harmless {t : Text} (h : ∀ c ∈ t, isHarmless c = true) : PassedOver t := by
  induction t with
  | nil => exact fun previous rest => ⟨previous, rfl⟩
  | cons c t ih =>
    intro previous rest
    obtain ⟨previous', hprevious⟩ := ih (fun d hd => h d (List.mem_cons_of_mem _ hd)) (some c) rest
    exact ⟨previous', by
      rw [List.cons_append, forbiddenFrom_harmless (h c List.mem_cons_self), hprevious]⟩

/-- The scan inside of a double quote passes over a text. -/
def PassedInQuote (t : Text) : Prop :=
  ∀ previous rest, ∃ previous',
    forbiddenFrom { quote := some '"', previous, skip := false } (t ++ rest) =
      forbiddenFrom { quote := some '"', previous := previous', skip := false } rest

theorem PassedInQuote.append {t u : Text} (ht : PassedInQuote t) (hu : PassedInQuote u) :
    PassedInQuote (t ++ u) := by
  intro previous rest
  obtain ⟨between, hbetween⟩ := ht previous (u ++ rest)
  obtain ⟨previous', hprevious⟩ := hu between rest
  exact ⟨previous', by rw [List.append_assoc, hbetween, hprevious]⟩

theorem passedInQuote_plain {c : Char} (hquote : c ≠ '"') (hslash : c ≠ '\\') :
    PassedInQuote [c] := by
  intro previous rest
  refine ⟨some c, ?_⟩
  rw [List.singleton_append, forbiddenFrom_quoted, if_neg hslash, if_neg hquote]

theorem passedInQuote_escape (c : Char) : PassedInQuote ['\\', c] := by
  intro previous rest
  refine ⟨some c, ?_⟩
  rw [List.cons_append, List.singleton_append, forbiddenFrom_quoted, if_pos rfl,
    forbiddenFrom_skipped]

theorem passedInQuote_unicodeEscape (u : UInt16) : PassedInQuote (unicodeEscape u) := by
  have hdigit : ∀ {n : Nat}, n < 16 → PassedInQuote [hexDigit n] := by
    intro n hn
    have hplain : hexDigit n ≠ '"' ∧ hexDigit n ≠ '\\' := by
      interval_cases n <;> decide
    exact passedInQuote_plain hplain.1 hplain.2
  have hu := u.toNat_lt
  exact (passedInQuote_escape 'u').append <| (hdigit (by omega)).append <|
    (hdigit (Nat.mod_lt _ (by decide))).append <| (hdigit (Nat.mod_lt _ (by decide))).append
      (hdigit (Nat.mod_lt _ (by decide)))

theorem passedInQuote_jsonUnit (u : UInt16) : PassedInQuote (jsonUnit u) := by
  unfold jsonUnit
  split
  · exact passedInQuote_escape '"'
  rename_i hquote
  split
  · exact passedInQuote_escape '\\'
  rename_i hslash
  iterate 5
    split
    · exact passedInQuote_escape _
  split
  · exact passedInQuote_unicodeEscape u
  · rename_i hplain
    rw [not_or] at hplain
    have hvalue := (utf16_ofNat hplain.2).2
    refine passedInQuote_plain ?_ ?_
    · intro h
      rw [h] at hvalue
      exact hquote (UInt16.toNat_inj.mp hvalue.symm)
    · intro h
      rw [h] at hvalue
      exact hslash (UInt16.toNat_inj.mp hvalue.symm)

theorem passedInQuote_jsonBody (s : JsString) : PassedInQuote (jsonBody s) := by
  induction s using jsonBody.induct with
  | case1 => exact fun previous rest => ⟨previous, rfl⟩
  | case2 u =>
    rw [jsonBody]
    exact passedInQuote_jsonUnit u
  | case3 u v us hpair ih =>
    obtain ⟨-, hvalue⟩ := utf16_surrogatePair hpair.1 hpair.2
    rw [jsonBody, if_pos hpair]
    refine PassedInQuote.append (t := [surrogatePair u v]) (passedInQuote_plain ?_ ?_) ih
    · intro h
      rw [h] at hvalue
      exact absurd hvalue (by decide)
    · intro h
      rw [h] at hvalue
      exact absurd hvalue (by decide)
  | case4 u v us hpair ih =>
    rw [jsonBody, if_neg hpair]
    exact (passedInQuote_jsonUnit u).append ih

theorem passedOver_quoted (s : JsString) : PassedOver (quoted s) := by
  intro previous rest
  obtain ⟨inside, hinside⟩ := passedInQuote_jsonBody s (some '"') ('"' :: rest)
  refine ⟨some '"', ?_⟩
  have hopen : forbiddenFrom { quote := none, previous, skip := false } (quoted s ++ rest) =
      forbiddenFrom { quote := some '"', previous := some '"', skip := false }
        (jsonBody s ++ '"' :: rest) := by
    rw [quoted, List.cons_append, forbiddenFrom_quote, List.append_assoc, List.singleton_append]
  rw [hopen, hinside, forbiddenFrom_quoted, if_neg (by decide), if_pos rfl]

theorem passedOver_intercalate {sep : Text} (hsep : PassedOver sep) {ts : List Text}
    (hts : ∀ t ∈ ts, PassedOver t) : PassedOver (List.intercalate sep ts) := by
  induction ts with
  | nil => exact fun previous rest => ⟨previous, rfl⟩
  | cons t ts ih =>
    have ht := hts t List.mem_cons_self
    have ih := ih fun u hu => hts u (List.mem_cons_of_mem _ hu)
    by_cases hnil : ts = []
    · rw [hnil, List.intercalate_singleton]
      exact ht
    · rw [List.intercalate_cons_of_ne_nil hnil]
      exact (ht.append hsep).append ih

theorem passedOver_write (value : MetadataValue) : PassedOver value.write := by
  cases value with
  | quoted value => exact passedOver_quoted value
  | nullableQuoted value =>
    cases value with
    | none => exact passedOver_harmless (by decide)
    | some value => exact passedOver_quoted value
  | number value =>
    refine passedOver_harmless fun c hc => isHarmless_of_isKeyChar ?_
    have hdigit := Nat.isDigit_of_mem_toDigits (by decide) (by decide) hc
    simp [isKeyChar, isAlnum, isLowerAlnum, hdigit]
  | quotedList values =>
    have hsep : PassedOver [',', ' '] := passedOver_harmless (by decide)
    have hopen : PassedOver ['['] := passedOver_harmless (by decide)
    have hlist := passedOver_intercalate hsep
      (List.forall_mem_map.mpr fun (s : JsString) (_ : s ∈ values) => passedOver_quoted s)
    exact hopen.append (hlist.append (passedOver_harmless (by decide)))

theorem passedOver_raw (m : CanonicalMarkdownMetadata) : PassedOver m.raw := by
  refine passedOver_intercalate (passedOver_harmless (by decide)) fun line hline => ?_
  rcases List.mem_cons.mp hline with rfl | hline
  · exact passedOver_harmless (by decide)
  · obtain ⟨field, hfield, rfl⟩ := List.mem_map.mp hline
    have hindent : PassedOver [' ', ' '] := passedOver_harmless (by decide)
    have hname : PassedOver field.1.toList := passedOver_harmless fun c hc =>
      isHarmless_of_isKeyChar ((isKey_fields m field hfield).2.1 c hc)
    have hcolon : PassedOver [':', ' '] := passedOver_harmless (by decide)
    have hline := hindent.append (hname.append (hcolon.append (passedOver_write field.2)))
    simpa [fieldLine] using hline

/-- There is nothing forbidden in the metadata. -/
theorem forbidden_appended (m : CanonicalMarkdownMetadata) (parsed : LeadingFrontmatter) :
    containsForbiddenYamlSyntax (m.raw ++ parsed.appended) =
      containsForbiddenYamlSyntax parsed.appended.tail := by
  obtain ⟨previous, hprevious⟩ := passedOver_raw m none parsed.appended
  rw [containsForbiddenYamlSyntax, hprevious]
  have happended : parsed.appended = [] ∨ ∃ yaml, parsed.appended = '\n' :: yaml := by
    unfold LeadingFrontmatter.appended
    split
    · exact Or.inl rfl
    · split
      · exact Or.inl rfl
      · exact Or.inr ⟨_, rfl⟩
  rcases happended with hnil | ⟨yaml, hyaml⟩
  · rw [hnil]
    rfl
  · rw [hyaml, List.tail_cons, forbiddenFrom_harmless (by decide), containsForbiddenYamlSyntax]
    cases yaml with
    | nil => rfl
    | cons c yaml =>
      have hnewline : Option.all isJsSpace (some '\n') = true := by decide
      rw [forbiddenFrom, forbiddenFrom, hnewline]
      rfl

/-! ### What the verifier makes of it -/

/-- The verifier accepts the frontmatter of the source behind the metadata. -/
structure LeadingFrontmatter.Accepted (parsed : LeadingFrontmatter) (m : CanonicalMarkdownMetadata) :
    Prop where
  plain : containsForbiddenYamlSyntax parsed.appended.tail = false
  lines : ∀ line ∈ (parsed.appended.splitOn '\n').tail, WellFormed line
  fields : ∃ state, Accepts m.state (appendedEntries parsed.appended) state

/-- The documents of the converter that the verifier passes: the values of the metadata are within its
    limits, and it accepts what is taken over from the source, whose body is not blank. -/
theorem convert_verifies_iff {dateParses : JsString → Bool} {m : CanonicalMarkdownMetadata}
    {outputLimit : Nat} {input output : ByteArray}
    (h : convertProductionMarkdownToStaging dateParses m outputLimit input = .ok output)
    {platform : StagingPlatform} {fuel : Nat} {d : StagingDocumentDescriptor} {run : ConversionRun}
    {e : Evaluation} (hevaluate : evaluate platform fuel d run output = some e) :
    ∃ markdown parsed, decodeUtf8 input = some markdown ∧
      splitLeadingFrontmatter markdown = .ok parsed ∧
      (e.outcome ≠ .fail ↔ utf8Length (m.raw ++ parsed.appended) ≤ MAX_FRONTMATTER_BYTES ∧
        (∀ field ∈ m.fields, field.2.Fits) ∧ m.BoundTo d run.input.sha256 ∧ parsed.Accepted m ∧
        trimText parsed.body ≠ []) := by
  obtain ⟨markdown, parsed, frontmatter, text, body, hmarkdown, -, hparsed, -, rfl, hconverted⟩ :=
    convert_spec h
  have happends := hconverted.appends
  refine ⟨markdown, parsed, hmarkdown, hparsed, ?_⟩
  rw [passes_appends happends (decodeFatal_appends happends) hevaluate]
  have hraw := fun (state : LineState) =>
    @parseRaw_canonical m _ _ (splitOn_raw happends.separated) state
  simp only [forbidden_appended] at hraw
  simp only [hraw]
  constructor
  · rintro ⟨⟨state, hbytes, hplain, hfits, hlines, haccepts⟩, hbound, hbody⟩
    exact ⟨hbytes, hfits, hbound, ⟨hplain, hlines, state, haccepts⟩,
      fun hblank => hbody (hconverted.body.mpr hblank)⟩
  · rintro ⟨hbytes, hfits, hbound, ⟨hplain, hlines, state, haccepts⟩, hbody⟩
    exact ⟨⟨state, hbytes, hplain, hfits, hlines, haccepts⟩, hbound,
      fun hblank => hbody (hconverted.body.mp hblank)⟩

theorem convert_verifies_sample : ∃ output fuel e, evaluate sizePlatform fuel sampleDescriptor
      sampleRun output = some e ∧
    ∃ markdown parsed, decodeUtf8 (encodeText sampleMarkdown) = some markdown ∧
      splitLeadingFrontmatter markdown = .ok parsed ∧
      (e.outcome ≠ .fail ↔ utf8Length (sampleMetadata.raw ++ parsed.appended) ≤ MAX_FRONTMATTER_BYTES ∧
        (∀ field ∈ sampleMetadata.fields, field.2.Fits) ∧
        sampleMetadata.BoundTo sampleDescriptor sampleRun.input.sha256 ∧
        parsed.Accepted sampleMetadata ∧ trimText parsed.body ≠ []) := by
  obtain ⟨output, houtput⟩ := convert_sample
  obtain ⟨e, fuel, -, hfuel⟩ := evaluate_total hasSuffixes_sizePlatform sampleDescriptor sampleRun
    output
  have hevaluate := hfuel fuel (Nat.le_refl fuel)
  exact ⟨output, fuel, e, hevaluate, convert_verifies_iff houtput hevaluate⟩

end MarkorbitKnowledge.Staging
