import MarkorbitKnowledge.Staging.CanonicalFields
import MarkorbitKnowledge.Staging.Decision

/-!
# Reserved provenance

What `assertCanonicalMarkdown` accepts is the metadata with more YAML behind it, and the verifier reads
both as one frontmatter.  It reads the fields of the metadata with their values, and no other field of
`markorbit` if and only if the appended YAML stays out of that block (`provenance_unforged_iff`).
-/

namespace MarkorbitKnowledge.Staging

open Contracts Fallible Delimited

/-! ### The text of the metadata -/

def CanonicalMarkdownMetadata.raw (m : CanonicalMarkdownMetadata) : Text :=
  List.intercalate ['\n'] m.lines

theorem intercalate_append {sep : Text} {ts us : List Text} (hts : ts ≠ []) (hus : us ≠ []) :
    List.intercalate sep (ts ++ us) = List.intercalate sep ts ++ sep ++ List.intercalate sep us := by
  induction ts with
  | nil => exact absurd rfl hts
  | cons t ts ih =>
    cases ts with
    | nil =>
      rw [List.singleton_append, List.intercalate_singleton, List.intercalate_cons_of_ne_nil hus]
    | cons t' ts =>
      have hne : t' :: ts ++ us ≠ [] := List.cons_ne_nil _ _
      rw [List.cons_append, List.intercalate_cons_of_ne_nil hne, ih (List.cons_ne_nil _ _),
        List.intercalate_cons_cons]
      simp

theorem frontmatter_layout {dateParses : JsString → Bool} {m : CanonicalMarkdownMetadata}
    {frontmatter : Text} (h : canonicalMarkdownFrontmatter dateParses m = .ok frontmatter) :
    frontmatter = opening ++ m.raw ++ delimiter '\n' fence := by
  simp only [canonicalMarkdownFrontmatter, bind_eq_ok, pure_eq_ok] at h
  obtain ⟨-, -, rfl⟩ := h
  have hlines : m.lines ≠ [] := List.cons_ne_nil _ _
  rw [List.intercalate_cons_of_ne_nil (by simp), intercalate_append hlines (by simp),
    CanonicalMarkdownMetadata.raw]
  simp [opening, fence, delimiter, List.intercalate]

/-- Where a text ends in a marker, that is the last one. -/
theorem beforeLast_append {marker : Text} (hne : marker ≠ []) (t : Text) :
    beforeLast marker (t ++ marker) = some t := by
  have hreverse : marker.reverse ≠ [] := by simpa using hne
  obtain ⟨c, rest, hcons⟩ := List.exists_cons_of_ne_nil hreverse
  rw [beforeLast, List.reverse_append, hcons, List.cons_append, cut,
    if_pos (by rw [← List.cons_append]; exact List.prefix_append _ _)]
  simp

theorem newline_notMem_unicodeEscape (u : UInt16) : '\n' ∉ unicodeEscape u := by
  have hdigit : ∀ {n : Nat}, n < 16 → '\n' ≠ hexDigit n := by
    intro n hn
    interval_cases n <;> decide
  have hu := u.toNat_lt
  simp only [unicodeEscape, List.mem_cons, List.not_mem_nil, or_false, not_or]
  exact ⟨by decide, by decide, hdigit (by omega), hdigit (Nat.mod_lt _ (by decide)),
    hdigit (Nat.mod_lt _ (by decide)), hdigit (Nat.mod_lt _ (by decide))⟩

theorem newline_notMem_jsonUnit (u : UInt16) : '\n' ∉ jsonUnit u := by
  unfold jsonUnit
  iterate 7
    split
    · decide
  split
  · exact newline_notMem_unicodeEscape u
  · rename_i hplain
    rw [not_or] at hplain
    intro h
    have hvalue := (utf16_ofNat hplain.2).2
    rw [← List.mem_singleton.mp h] at hvalue
    exact hplain.1 (by rw [← hvalue]; decide)

theorem newline_notMem_jsonBody (s : JsString) : '\n' ∉ jsonBody s := by
  induction s using jsonBody.induct with
  | case1 => exact List.not_mem_nil
  | case2 u =>
    rw [jsonBody]
    exact newline_notMem_jsonUnit u
  | case3 u v us hpair ih =>
    obtain ⟨-, hvalue⟩ := utf16_surrogatePair hpair.1 hpair.2
    rw [jsonBody, if_pos hpair, List.mem_cons, not_or]
    refine ⟨fun h => ?_, ih⟩
    rw [← h] at hvalue
    exact absurd hvalue (by decide)
  | case4 u v us hpair ih =>
    rw [jsonBody, if_neg hpair, List.mem_append, not_or]
    exact ⟨newline_notMem_jsonUnit u, ih⟩

theorem newline_notMem_quoted (s : JsString) : '\n' ∉ quoted s := by
  simp only [quoted, List.mem_cons, List.mem_append, List.not_mem_nil, or_false, not_or]
  exact ⟨by decide, newline_notMem_jsonBody s, by decide⟩

theorem newline_notMem_write (value : MetadataValue) : '\n' ∉ value.write := by
  cases value with
  | quoted value => exact newline_notMem_quoted value
  | nullableQuoted value =>
    cases value with
    | none => decide
    | some value => exact newline_notMem_quoted value
  | number value =>
    intro h
    exact absurd (Nat.isDigit_of_mem_toDigits (by decide) (by decide) h) (by decide)
  | quotedList values =>
    have hlist : '\n' ∉ List.intercalate [',', ' '] (values.map quoted) := by
      induction values with
      | nil => exact List.not_mem_nil
      | cons value values ih =>
        by_cases hnil : values = []
        · rw [hnil, List.map_singleton, List.intercalate_singleton]
          exact newline_notMem_quoted value
        · rw [List.map_cons, List.intercalate_cons_of_ne_nil (by simpa using hnil)]
          simp only [List.mem_append, not_or]
          exact ⟨⟨newline_notMem_quoted value, by decide⟩, ih⟩
    simp only [MetadataValue.write, List.mem_cons, List.mem_append, List.not_mem_nil, or_false, not_or]
    exact ⟨by decide, hlist, by decide⟩

theorem newline_notMem_lines (m : CanonicalMarkdownMetadata) : ∀ line ∈ m.lines, '\n' ∉ line := by
  intro line hline
  rcases List.mem_cons.mp hline with rfl | hline
  · decide
  · obtain ⟨field, hfield, rfl⟩ := List.mem_map.mp hline
    have hname : '\n' ∉ field.1.toList := by
      intro h
      exact absurd ((isKey_fields m field hfield).2.1 '\n' h) (by decide)
    simp only [fieldLine, List.mem_append, List.mem_cons, List.not_mem_nil, or_false, not_or]
    exact ⟨by decide, hname, by decide, by decide, newline_notMem_write field.2⟩

/-- The lines of a frontmatter that begins with the metadata. -/
theorem splitOn_raw {m : CanonicalMarkdownMetadata} {appended : Text}
    (h : appended = [] ∨ appended.head? = some '\n') :
    (m.raw ++ appended).splitOn '\n' = m.lines ++ (appended.splitOn '\n').tail := by
  have hraw : m.raw.splitOn '\n' = m.lines :=
    List.splitOn_intercalate '\n' (newline_notMem_lines m) (List.cons_ne_nil _ _)
  rcases h with rfl | h
  · rw [List.append_nil, hraw]
    simp
  · cases appended with
    | nil => cases h
    | cons c appended =>
      obtain rfl := Option.some.inj h
      have htail : (('\n' :: appended).splitOn '\n').tail = appended.splitOn '\n' := by
        rw [List.splitOn_cons_eq_if_modifyHead, if_pos (by decide)]
        rfl
      rw [List.splitOn_append_cons_self, hraw, htail]

theorem fence_notMem_lines (m : CanonicalMarkdownMetadata) : fence ∉ m.lines.tail := by
  intro h
  obtain ⟨field, -, hfield⟩ := List.mem_map.mp h
  exact absurd (List.cons.inj hfield).1 (by decide)

/-! ### What the check accepts -/

/-- A document that begins with the metadata, and the YAML behind that. -/
structure Appends (m : CanonicalMarkdownMetadata) (text appended body : Text) : Prop where
  layout : text = opening ++ (m.raw ++ appended ++ delimiter '\n' fence ++ body)
  separated : appended = [] ∨ appended.head? = some '\n'
  closed : fence ∉ (appended.splitOn '\n').tail
  kept : redefinesReserved true appended = false

theorem assertCanonicalMarkdown_eq_ok {dateParses : JsString → Bool} {m : CanonicalMarkdownMetadata}
    {frontmatter : Text} (h : canonicalMarkdownFrontmatter dateParses m = .ok frontmatter)
    {content : ByteArray} {u : Unit} :
    assertCanonicalMarkdown content frontmatter = .ok u ↔
      ∃ text appended body, decodeFatal content = some text ∧ Appends m text appended body := by
  have hlast : beforeLast (delimiter '\n' fence) frontmatter = some (opening ++ m.raw) := by
    rw [frontmatter_layout h]
    exact beforeLast_append (by decide) _
  have hdocument : assertCanonicalMarkdown content frontmatter = .ok u ↔
      ∃ text, decodeFatal content = some text ∧ opening ++ m.raw <+: text ∧ ∃ parts,
        cut (delimiter '\n' fence) (text.drop (opening ++ m.raw).length) = some parts ∧
          (parts.1 = [] ∨ parts.1.head? = some '\n') ∧ redefinesReserved true parts.1 = false := by
    simp only [assertCanonicalMarkdown, bind_eq_ok, orThrow_eq_ok, require_eq_ok, exists_and_left,
      hlast, Option.some.injEq, exists_eq_left', exists_const]
  rw [hdocument]
  constructor
  · rintro ⟨text, htext, hbegins, parts, hcut, hseparated, hkept⟩
    refine ⟨text, parts.1, parts.2, htext, ?_, hseparated, ?_, hkept⟩
    · have hdoc := List.prefix_append_drop hbegins
      rw [eq_append_of_cut hcut] at hdoc
      rw [hdoc]
      simp
    · rw [eq_append_of_cut hcut] at hcut
      exact (cut_append_iff newline_notMem_fence _ _).mp hcut
  · rintro ⟨text, appended, body, htext, happends⟩
    have hlayout : text = opening ++ m.raw ++ (appended ++ delimiter '\n' fence ++ body) := by
      rw [happends.layout]
      simp
    refine ⟨text, htext, ⟨_, hlayout.symm⟩, (appended, body), ?_, happends.separated, happends.kept⟩
    rw [hlayout, List.drop_left']
    · exact (cut_append_iff newline_notMem_fence _ _).mpr happends.closed
    · rfl

/-- What the verifier makes of a document that begins with the metadata. -/
theorem parseFrontmatter_appends {m : CanonicalMarkdownMetadata} {text appended body : Text}
    (h : Appends m text appended body) {fields : List ParsedField} {body' : Text} :
    parseFrontmatter text = .parsed fields body' ↔
      ∃ state, parseRaw (m.raw ++ appended) = .ok state ∧ state.fields = fields ∧ body = body' := by
  have hfence : fence ∉ ((m.raw ++ appended).splitOn '\n').tail := by
    have hlines : m.lines ≠ [] := List.cons_ne_nil _ _
    rw [splitOn_raw h.separated, List.tail_append_of_ne_nil hlines, List.mem_append, not_or]
    exact ⟨fence_notMem_lines m, h.closed⟩
  have hdrop : text.drop 4 = m.raw ++ appended ++ delimiter '\n' fence ++ body := by
    rw [h.layout]
    rfl
  have hopening : opening <+: text := by
    rw [h.layout]
    exact List.prefix_append _ _
  rw [parseFrontmatter, if_pos hopening, hdrop,
    (cut_append_iff newline_notMem_fence _ _).mpr hfence]
  cases hparse : parseRaw (m.raw ++ appended) with
  | error failure => simp [hparse]
  | ok state => simp [hparse]

/-! ### Staying out of the block -/

/-- A path or a key begins with `markorbit.`. -/
def isReserved (path : Text) : Bool := decide (reservedPrefix <+: path)

/-- No entry declares a field of `markorbit`: where the entries begin inside that block (or under a key
    that begins with `markorbit.`), the first one is not indented, and no entry that is not indented has
    such a key, or opens such a block for an indented one. -/
def unforged : (inside : Bool) → List Entry → Bool
  | _, [] => true
  | inside, e :: es =>
    if e.indent = 0 then
      (e.text.isEmpty || !isReserved e.key) &&
        unforged (e.text.isEmpty && (e.key = reservedBlock || isReserved e.key)) es
    else !inside && unforged inside es

theorem prefix_block {name parent : Text} {c : Char} (hname : c ∉ name) (key : Text) :
    name ++ [c] <+: parent ++ c :: key ↔ parent = name ∨ name ++ [c] <+: parent := by
  induction name generalizing parent with
  | nil =>
    cases parent with
    | nil => simp
    | cons d parent => simp
  | cons n name ih =>
    have hn : n ≠ c := fun hn => hname (hn ▸ List.mem_cons_self)
    cases parent with
    | nil => simp [hn]
    | cons d parent =>
      rw [List.cons_append, List.cons_append, List.cons_prefix_cons, List.cons_prefix_cons,
        ih fun h => hname (List.mem_cons_of_mem _ h), List.cons.injEq]
      constructor
      · rintro ⟨rfl, rfl | h⟩
        · exact Or.inl ⟨rfl, rfl⟩
        · exact Or.inr ⟨rfl, h⟩
      · rintro (⟨rfl, rfl⟩ | ⟨rfl, h⟩)
        · exact ⟨rfl, Or.inl rfl⟩
        · exact ⟨rfl, Or.inr h⟩

theorem isReserved_nested (parent key : Text) :
    isReserved (parent ++ '.' :: key) = (parent = reservedBlock || isReserved parent) := by
  have hbegins : reservedPrefix = reservedBlock ++ ['.'] := by decide
  rw [isReserved, isReserved, hbegins, Bool.eq_iff_iff]
  simp only [decide_eq_true_eq, Bool.or_eq_true]
  exact prefix_block (by decide) key

/-- What is indented is inside the block. -/
def insideBlock (parent : Option Text) : Bool :=
  parent.any fun parent => parent = reservedBlock || isReserved parent

theorem unforged_iff {parent : Option Text} {es : List Entry} (hnested : Nested parent es) :
    unforged (insideBlock parent) es = true ↔
      ∀ d ∈ declarations parent es, isReserved d.path = false := by
  induction es generalizing parent with
  | nil => simp [unforged, declarations]
  | cons e es ih =>
    obtain ⟨hhere, hnested⟩ := hnested
    have ih := ih hnested
    rw [unforged, declarations]
    by_cases hindent : e.indent = 0
    · rw [if_pos hindent]
      cases htext : e.text with
      | nil =>
        have hparent : e.isParent = true := by simp [Entry.isParent, hindent, htext]
        have hafter : e.after parent = some e.key := by
          rw [Entry.after, if_pos hindent, if_pos htext]
        rw [if_pos hparent, ← ih, hafter]
        simp [insideBlock]
      | cons c text =>
        have hparent : e.isParent = false := by simp [Entry.isParent, htext]
        have hafter : e.after parent = none := by
          rw [Entry.after, if_pos hindent, if_neg (by simp [htext])]
        have hpath : e.path parent = e.key := by rw [Entry.path, if_pos hindent, fieldPath]
        rw [hafter] at ih
        rw [if_neg (by simp [hparent]), List.forall_mem_cons, hafter, hpath, ← ih]
        simp [insideBlock]
    · have hparent : e.isParent = false := by simp [Entry.isParent, hindent]
      have hafter : e.after parent = parent := by rw [Entry.after, if_neg hindent]
      obtain ⟨p, rfl⟩ := Option.ne_none_iff_exists'.mp (hhere.resolve_left hindent)
      have hpath : e.path (some p) = p ++ '.' :: e.key := by
        rw [Entry.path, if_neg hindent, fieldPath]
      rw [hafter] at ih
      rw [if_neg hindent, if_neg (by simp [hparent]), List.forall_mem_cons, hafter, hpath, ← ih,
        isReserved_nested]
      simp [insideBlock]

/-! ### The fields the verifier reads -/

theorem paths_of_read {ds : List Declaration} {fields : List ParsedField}
    (h : ds.mapM Declaration.read = some fields) : fields.map (·.path) = ds.map (·.path) := by
  induction ds generalizing fields with
  | nil =>
    cases h
    rfl
  | cons d ds ih =>
    simp only [List.mapM_cons, Option.bind_eq_bind, Option.bind_eq_some_iff, Option.pure_def,
      Option.some.injEq] at h
    obtain ⟨field, hfield, rest, hrest, rfl⟩ := h
    rw [List.map_cons, List.map_cons, ih hrest, Declaration.path_read hfield]

/-- The YAML that is appended to the metadata, line by line. -/
def appendedEntries (appended : Text) : List Entry := entries (appended.splitOn '\n').tail

/-- What is read of a document that begins with the metadata: its fields with their values, and
    behind them others, which are no fields of `markorbit` if the appended YAML stays out of the
    block. -/
theorem fields_appends {m : CanonicalMarkdownMetadata} {text appended body body' : Text}
    {fields : List ParsedField} (happends : Appends m text appended body)
    (hparse : parseFrontmatter text = .parsed fields body') :
    m.fields.map readField <+: fields ∧ (fields.map (·.path)).Nodup ∧
      ((∀ field, field ∈ fields ∧ isReserved field.path = true ↔ field ∈ m.fields.map readField) ↔
        unforged true (appendedEntries appended) = true) := by
  obtain ⟨state, hraw, rfl, rfl⟩ := (parseFrontmatter_appends happends).mp hparse
  obtain ⟨-, -, -, -, haccepts⟩ := (parseRaw_canonical (splitOn_raw happends.separated)).mp hraw
  obtain ⟨hnested, hdistinct, -, more, hmore, rfl⟩ := haccepts
  have hpaths : more.map (·.path) =
      (declarations m.state.parent (appendedEntries appended)).map (·.path) := paths_of_read hmore
  have hreserved : ∀ field ∈ m.state.fields, isReserved field.path = true := by
    intro field hfield
    obtain ⟨named, -, rfl⟩ := List.mem_map.mp hfield
    exact decide_eq_true ⟨named.1.toList, rfl⟩
  have hnodup : ((m.state.fields ++ more).map (·.path)).Nodup := by
    rw [List.map_append, hpaths]
    exact hdistinct
  refine ⟨List.prefix_append _ _, hnodup, ?_⟩
  have hunforged : unforged true (appendedEntries appended) = true ↔
      ∀ d ∈ declarations m.state.parent (appendedEntries appended), isReserved d.path = false :=
    unforged_iff hnested
  rw [hunforged]
  constructor
  · intro hexact d hd
    by_contra hforged
    have hforged : isReserved d.path = true := by simpa using hforged
    -- The field that a forged declaration is read as repeats a path of the metadata.
    have hpath : d.path ∈ more.map (·.path) := hpaths ▸ List.mem_map_of_mem hd
    obtain ⟨field, hfield, hfieldPath⟩ := List.mem_map.mp hpath
    have hown := (hexact field).mp ⟨List.mem_append_right _ hfield, hfieldPath ▸ hforged⟩
    rw [List.map_append, List.nodup_append] at hnodup
    exact hnodup.2.2 _ (List.mem_map_of_mem hown) _ (List.mem_map_of_mem hfield) rfl
  · intro hplain field
    constructor
    · rintro ⟨hfield, hfieldReserved⟩
      rcases List.mem_append.mp hfield with hown | hother
      · exact hown
      · have hpath : field.path ∈ more.map (·.path) := List.mem_map_of_mem hother
        rw [hpaths] at hpath
        obtain ⟨d, hd, hdPath⟩ := List.mem_map.mp hpath
        rw [← hdPath, hplain d hd] at hfieldReserved
        cases hfieldReserved
    · intro hown
      exact ⟨List.mem_append_left _ hown, hreserved field hown⟩

/-- The metadata agrees with what the verifier compares it to. -/
structure CanonicalMarkdownMetadata.BoundTo (m : CanonicalMarkdownMetadata)
    (d : StagingDocumentDescriptor) (inputSha256 : Digest) : Prop where
  workspaceId : m.workspaceId = Text.units (idText "wsp" d.workspaceId).toList
  sourceId : m.sourceId = Text.units (idText "src" d.sourceId).toList
  rawArtifactId : m.rawArtifactId = Text.units (idText "art" d.rawArtifactId).toList
  conversionRunId : m.conversionRunId = Text.units (idText "cvr" d.conversionRunId).toList
  converterId : m.converterId = Text.units d.converter.converterId.toList
  converterVersion : m.converterVersion = Text.units d.converter.version.toList
  inputSha256 : m.inputSha256 = Text.units (digestText inputSha256)

/-- The value at a path that occurs once. -/
theorem valueAt_of_mem {fields : List ParsedField} (hdistinct : (fields.map (·.path)).Nodup)
    {field : ParsedField} (hfield : field ∈ fields) {path : String} (hpath : field.path = path.toList) :
    valueAt fields path = some field.value := by
  rw [valueAt]
  cases hfind : fields.find? fun field => field.path = path.toList with
  | none =>
    have hother := List.find?_eq_none.mp hfind field hfield
    exact absurd hpath (by simpa using hother)
  | some found =>
    have hfound : found.path = path.toList := by simpa using List.find?_some hfind
    have hsame : found = field := List.inj_on_of_nodup_map hdistinct (List.mem_of_find?_eq_some hfind)
      hfield (hfound.trans hpath.symm)
    rw [Option.map_some, hsame]

theorem isBound_iff {m : CanonicalMarkdownMetadata} {fields : List ParsedField}
    (hbegins : m.fields.map readField <+: fields) (hdistinct : (fields.map (·.path)).Nodup)
    {name : String} {value : JsString} (i : Nat) (hfield : m.fields[i]? = some (name, .quoted value))
    (path : String) (hpath : reservedPath name = path.toList) (text : Text) :
    isBound fields path text = true ↔ value = Text.units text := by
  have hmem := List.mem_map_of_mem (f := readField) (List.mem_of_getElem? hfield)
  have hvalue : valueAt fields path = some (.text value) :=
    valueAt_of_mem hdistinct (hbegins.subset hmem) hpath
  rw [isBound, hvalue, decide_eq_true_eq, Option.some.injEq, Scalar.text.injEq]

theorem bound_iff {m : CanonicalMarkdownMetadata} {d : StagingDocumentDescriptor}
    {inputSha256 : Digest} {fields : List ParsedField} (hbegins : m.fields.map readField <+: fields)
    (hdistinct : (fields.map (·.path)).Nodup) :
    Bound d inputSha256 fields ↔ m.BoundTo d inputSha256 := by
  have hbound := @isBound_iff m fields hbegins hdistinct
  have hworkspace := hbound 3 rfl "markorbit.workspaceId" (by decide)
  have hsource := hbound 4 rfl "markorbit.sourceId" (by decide)
  have hartifact := hbound 10 rfl "markorbit.rawArtifactId" (by decide)
  have hrun := hbound 19 rfl "markorbit.conversionRunId" (by decide)
  have hconverter := hbound 20 rfl "markorbit.converterId" (by decide)
  have hversion := hbound 21 rfl "markorbit.converterVersion" (by decide)
  have hhash := hbound 22 rfl "markorbit.inputSha256" (by decide)
  simp only [Bound, bindings, List.forall_mem_cons, List.not_mem_nil, false_implies, implies_true,
    and_true, hworkspace, hsource, hartifact, hrun, hconverter, hversion, hhash]
  constructor
  · rintro ⟨hworkspace, hsource, hartifact, hrun, hconverter, hversion, hhash⟩
    exact ⟨hworkspace, hsource, hartifact, hrun, hconverter, hversion, hhash⟩
  · rintro ⟨hworkspace, hsource, hartifact, hrun, hconverter, hversion, hhash⟩
    exact ⟨hworkspace, hsource, hartifact, hrun, hconverter, hversion, hhash⟩

/-- Which documents that begin with the metadata pass the verifier. -/
theorem passes_appends {m : CanonicalMarkdownMetadata} {text appended body : Text}
    (happends : Appends m text appended body) {bytes : ByteArray} (htext : decodeFatal bytes = some text)
    {platform : StagingPlatform} {fuel : Nat} {d : StagingDocumentDescriptor} {run : ConversionRun}
    {e : Evaluation} (hevaluate : evaluate platform fuel d run bytes = some e) :
    e.outcome ≠ .fail ↔ (∃ state, parseRaw (m.raw ++ appended) = .ok state) ∧
      m.BoundTo d run.input.sha256 ∧ trimText body ≠ [] := by
  rw [evaluate_passes hevaluate, htext]
  constructor
  · rintro ⟨_, fields, body', hsame, hparse, hbound, hbody⟩
    obtain rfl := Option.some.inj hsame
    obtain ⟨hbegins, hdistinct, -⟩ := fields_appends happends hparse
    obtain ⟨state, hstate, rfl, rfl⟩ := (parseFrontmatter_appends happends).mp hparse
    exact ⟨⟨state, hstate⟩, (bound_iff hbegins hdistinct).mp hbound, hbody⟩
  · rintro ⟨⟨state, hstate⟩, hbound, hbody⟩
    have hparse := (parseFrontmatter_appends happends).mpr ⟨state, hstate, rfl, rfl⟩
    obtain ⟨hbegins, hdistinct, -⟩ := fields_appends happends hparse
    exact ⟨text, state.fields, body, rfl, hparse, (bound_iff hbegins hdistinct).mpr hbound, hbody⟩

/-- Of a document that is accepted for the metadata and passes the verifier, the fields of `markorbit`
    are those of the metadata, with its values, if and only if the appended YAML stays out of the
    block; the metadata is always read first, and with its values. -/
theorem provenance_unforged_iff {dateParses : JsString → Bool} {m : CanonicalMarkdownMetadata}
    {frontmatter : Text} (hm : canonicalMarkdownFrontmatter dateParses m = .ok frontmatter)
    {content : ByteArray} (haccepted : assertCanonicalMarkdown content frontmatter = .ok ())
    {platform : StagingPlatform} {fuel : Nat} {d : StagingDocumentDescriptor} {run : ConversionRun}
    {e : Evaluation} (hevaluate : evaluate platform fuel d run content = some e)
    (hpasses : e.outcome ≠ .fail) :
    ∃ text appended body fields, decodeFatal content = some text ∧ Appends m text appended body ∧
      parseFrontmatter text = .parsed fields body ∧ m.fields.map readField <+: fields ∧
      (fields.map (·.path)).Nodup ∧
      ((∀ field, field ∈ fields ∧ isReserved field.path = true ↔ field ∈ m.fields.map readField) ↔
        unforged true (appendedEntries appended) = true) := by
  obtain ⟨text, appended, body, htext, happends⟩ := (assertCanonicalMarkdown_eq_ok hm).mp haccepted
  obtain ⟨text', fields, body', htext', hparse, -, -⟩ := (evaluate_passes hevaluate).mp hpasses
  obtain rfl : text = text' := Option.some.inj (htext.symm.trans htext')
  have hbody : body = body' := by
    obtain ⟨-, -, -, hbody⟩ := (parseFrontmatter_appends happends).mp hparse
    exact hbody
  subst hbody
  exact ⟨text, appended, body, fields, htext, happends, hparse, fields_appends happends hparse⟩

/-! ### A forged field -/

def sampleDate : JsString := literalUnits "2026-01-01T00:00:00.000Z"

def sampleMetadata : CanonicalMarkdownMetadata where
  schemaVersion := literalUnits "1.0"
  objectType := literalUnits "CANONICAL_MARKDOWN_METADATA"
  documentId := literalUnits "doc-1"
  workspaceId := Text.units (idText "wsp" 1).toList
  sourceId := Text.units (idText "src" 1).toList
  sourceName := literalUnits "Registry"
  sourceCategory := literalUnits "OFFICIAL_AUTHORITY"
  authorityLevel := literalUnits "PRIMARY_OFFICIAL"
  jurisdictions := [literalUnits "EU"]
  languages := []
  rawArtifactId := Text.units (idText "art" 1).toList
  logicalDocumentId := none
  artifactVersion := 1
  artifactKind := literalUnits "MARKDOWN"
  originalName := literalUnits "a.md"
  canonicalUri := none
  sourceUri := literalUnits "https://registry.test/a.md"
  capturedAt := sampleDate
  publishedAt := none
  conversionRunId := Text.units (idText "cvr" 1).toList
  converterId := literalUnits "markdown"
  converterVersion := literalUnits "1.0.0"
  inputSha256 := Text.units (digestText 7)

theorem frontmatter_sample : ∃ frontmatter,
    canonicalMarkdownFrontmatter (fun s => s = sampleDate) sampleMetadata = .ok frontmatter := by
  have hvalid : isCanonicalMarkdownMetadataV1 (fun s => s = sampleDate) sampleMetadata = true := by
    decide +kernel
  refine ⟨List.intercalate ['\n'] (fence :: (sampleMetadata.lines ++ [fence, []])), ?_⟩
  rw [canonicalMarkdownFrontmatter, bind_eq_ok]
  exact ⟨(), require_eq_ok.mpr hvalid, rfl⟩

theorem boundTo_sample : sampleMetadata.BoundTo sampleDescriptor sampleRun.input.sha256 :=
  ⟨rfl, rfl, rfl, rfl, rfl, rfl, rfl⟩

/-- The YAML of a document that declares a field of `markorbit` itself. -/
def forgedYaml : Text := "\nmarkorbit.reviewed: true".toList

def forgedText : Text :=
  opening ++ (sampleMetadata.raw ++ forgedYaml ++ delimiter '\n' fence ++ "Body\n".toList)

theorem appends_forged : Appends sampleMetadata forgedText forgedYaml "Body\n".toList where
  layout := rfl
  separated := Or.inr (by decide)
  closed := by decide
  kept := by decide

theorem parseRaw_forged : ∃ state, parseRaw (sampleMetadata.raw ++ forgedYaml) = .ok state := by
  have hok : (parseRaw (sampleMetadata.raw ++ forgedYaml)).isOk = true := by decide +kernel
  cases hparse : parseRaw (sampleMetadata.raw ++ forgedYaml) with
  | error failure =>
    rw [hparse] at hok
    cases hok
  | ok state => exact ⟨state, rfl⟩

/-- The document with the forged field is accepted and passes, so that the verifier reads a field of
    `markorbit` that the metadata does not have. -/
theorem provenance_forged_sample :
    unforged true (appendedEntries forgedYaml) = false ∧
    ∃ frontmatter content fuel e,
      canonicalMarkdownFrontmatter (fun s => s = sampleDate) sampleMetadata = .ok frontmatter ∧
      assertCanonicalMarkdown content frontmatter = .ok () ∧
      evaluate sizePlatform fuel sampleDescriptor sampleRun content = some e ∧ e.outcome ≠ .fail ∧
      ∃ text appended body fields, decodeFatal content = some text ∧
        Appends sampleMetadata text appended body ∧ parseFrontmatter text = .parsed fields body ∧
        sampleMetadata.fields.map readField <+: fields ∧ (fields.map (·.path)).Nodup ∧
        ((∀ field, field ∈ fields ∧ isReserved field.path = true ↔
            field ∈ sampleMetadata.fields.map readField) ↔
          unforged true (appendedEntries appended) = true) := by
  refine ⟨by decide, ?_⟩
  obtain ⟨frontmatter, hm⟩ := frontmatter_sample
  have htext : decodeFatal (encodeText forgedText) = some forgedText :=
    decodeFatal_encodeText (by decide)
  have haccepted : assertCanonicalMarkdown (encodeText forgedText) frontmatter = .ok () :=
    (assertCanonicalMarkdown_eq_ok hm).mpr ⟨forgedText, forgedYaml, _, htext, appends_forged⟩
  obtain ⟨e, fuel, -, hfuel⟩ := evaluate_total hasSuffixes_sizePlatform sampleDescriptor sampleRun
    (encodeText forgedText)
  have hevaluate := hfuel fuel (Nat.le_refl fuel)
  have hpasses : e.outcome ≠ .fail := (passes_appends appends_forged htext hevaluate).mpr
    ⟨parseRaw_forged, boundTo_sample, by decide⟩
  exact ⟨frontmatter, _, fuel, e, hm, haccepted, hevaluate, hpasses,
    provenance_unforged_iff hm haccepted hevaluate hpasses⟩

end MarkorbitKnowledge.Staging
