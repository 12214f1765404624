import MarkorbitKnowledge.Staging.Evaluation
import MarkorbitKnowledge.Staging.Fields

/-!
# What an evaluation decides

The evaluation of a document fails if it is not text, if its frontmatter does not parse, if one of
the bindings is wrong, or if it has no body; in every other case it passes, with a warning if there
are fields nobody reads.  A failed parse is always one of the standard checks, with a message that
fits into a descriptor.
-/

namespace MarkorbitKnowledge.Staging

open Contracts Fallible Delimited

/-! ### Failures -/

/-- A failure that a descriptor can record. -/
structure ParseFailure.IsCheck (failure : ParseFailure) : Prop where
  code : failure.code ∈ standardChecks
  message : isShortText failure.message = true

theorem textLength_append (s t : Text) : textLength (s ++ t) = textLength s + textLength t := by
  simp [textLength]

theorem textLength_cons (c : Char) (t : Text) :
    textLength (c :: t) = (if c.toNat < 0x10000 then 1 else 2) + textLength t := rfl

theorem ParseFailure.isCheck_const {code : String} {message : Text}
    (h : (standardChecks.contains code && isShortText message) = true) :
    ParseFailure.IsCheck { code, message } := by
  rw [Bool.and_eq_true] at h
  exact ⟨by simpa using h.1, h.2⟩

/-- The parent is a key within the limit. -/
def LineState.ShortParent (state : LineState) : Prop :=
  ∀ parent, state.parent = some parent → textLength parent ≤ MAX_KEY_LENGTH

theorem textLength_fieldPath {parent : Option Text} {key : Text}
    (hkey : textLength key ≤ MAX_KEY_LENGTH)
    (hparent : ∀ p, parent = some p → textLength p ≤ MAX_KEY_LENGTH) :
    textLength (fieldPath parent key) ≤ 2 * MAX_KEY_LENGTH + 1 := by
  unfold fieldPath
  cases parent with
  | none =>
    simp only
    omega
  | some parent =>
    have := hparent parent rfl
    have hdot : ('.').toNat < 0x10000 := by decide
    rw [textLength_append, textLength_cons, if_pos hdot]
    omega

/-- A message that ends with a path. -/
theorem ParseFailure.isCheck_path {code : String} {name path : Text}
    (h : (standardChecks.contains code && isShortText name && decide (textLength name ≤ 30)) = true)
    (hpath : textLength path ≤ 2 * MAX_KEY_LENGTH + 1) :
    ParseFailure.IsCheck { code, message := name ++ path } := by
  simp only [Bool.and_eq_true, decide_eq_true_eq, isShortText, MAX_KEY_LENGTH] at h hpath
  refine ⟨by simpa using h.1.1, ?_⟩
  rw [isShortText, Bool.and_eq_true, decide_eq_true_eq, decide_eq_true_eq, textLength_append]
  omega

theorem parseLine_raises {state : LineState} (hstate : state.ShortParent) (line : Text) :
    Raises ParseFailure.IsCheck (parseLine state line) := by
  unfold parseLine
  split
  · exact Raises.pure _
  · refine Raises.bind (Raises.require (ParseFailure.isCheck_const (by decide))) fun _ _ => ?_
    refine Raises.bind (Raises.orThrow (ParseFailure.isCheck_const (by decide))) ?_
    intro parts _
    refine Raises.bind (Raises.require (ParseFailure.isCheck_const (by decide))) ?_
    intro _ hkey
    rw [require_eq_ok] at hkey
    split
    · exact Raises.pure _
    · have hpath : textLength (fieldPath (if indentOf line = 0 then none else state.parent)
          parts.1) ≤ 2 * MAX_KEY_LENGTH + 1 := by
        refine textLength_fieldPath hkey ?_
        intro p hp
        split at hp
        · cases hp
        · exact hstate p hp
      refine Raises.bind (Raises.require (ParseFailure.isCheck_const (by decide))) fun _ _ => ?_
      refine Raises.bind (Raises.require (ParseFailure.isCheck_path (by decide) hpath)) fun _ _ => ?_
      refine Raises.bind (Raises.require (ParseFailure.isCheck_const (by decide))) fun _ _ => ?_
      refine Raises.bind (Raises.orThrow (ParseFailure.isCheck_path (by decide) hpath)) fun _ _ => ?_
      exact Raises.pure _

theorem shortParent_parseLine {state state' : LineState} {line : Text} (hstate : state.ShortParent)
    (h : parseLine state line = .ok state') : state'.ShortParent := by
  obtain ⟨hline, h⟩ := parseLine_eq_ok.mp h
  cases hentry : entryOf line with
  | none =>
    rw [hentry] at h
    exact h ▸ hstate
  | some e =>
    have hafter : ∀ p, e.after state.parent = some p → textLength p ≤ MAX_KEY_LENGTH := by
      intro p hp
      unfold Entry.after at hp
      split at hp
      · split at hp
        · exact Option.some.inj hp ▸ (hline.limits e hentry).2
        · cases hp
      · exact hstate p hp
    simp only [hentry] at h
    split at h
    · rw [h]
      exact hafter
    · obtain ⟨_, -, rfl⟩ := h.field
      exact hafter

theorem parseRaw_raises (raw : Text) : Raises ParseFailure.IsCheck (parseRaw raw) := by
  unfold parseRaw
  refine Raises.bind (Raises.require (ParseFailure.isCheck_const (by decide))) fun _ _ => ?_
  refine Raises.bind (Raises.require (ParseFailure.isCheck_const (by decide))) fun _ _ => ?_
  refine Raises.foldlM (I := LineState.ShortParent) ?_ ?_
  · intro state line hstate
    exact ⟨parseLine_raises hstate line, fun _ h => shortParent_parseLine hstate h⟩
  · intro p hp
    cases hp

/-- A frontmatter that does not parse fails one of the standard checks. -/
theorem isCheck_of_failed {text body : Text} {failure : ParseFailure}
    (h : parseFrontmatter text = .failed failure body) : failure.IsCheck := by
  unfold parseFrontmatter at h
  split at h
  · split at h
    · cases h
      exact ParseFailure.isCheck_const (by decide)
    · split at h
      · cases h
      · rename_i hraw
        cases h
        exact parseRaw_raises _ _ hraw
  · cases h
    exact ParseFailure.isCheck_const (by decide)

/-! ### Documents that parse -/

theorem newline_notMem_fence : '\n' ∉ fence := by decide

theorem opening_prefix_iff {text : Text} :
    opening <+: text ↔ text = opening ++ text.drop 4 := by
  constructor
  · intro h
    exact (List.prefix_append_drop h)
  · intro h
    exact ⟨_, h.symm⟩

theorem parseFrontmatter_eq_parsed {text body : Text} {fields : List ParsedField} :
    parseFrontmatter text = .parsed fields body ↔
      ∃ raw state, text = opening ++ (raw ++ delimiter '\n' fence ++ body) ∧
        fence ∉ (raw.splitOn '\n').tail ∧ parseRaw raw = .ok state ∧ state.fields = fields := by
  constructor
  · intro h
    unfold parseFrontmatter at h
    split at h
    · rename_i hopening
      split at h
      · cases h
      · rename_i raw body' hcut
        have hdoc := eq_append_of_cut hcut
        split at h
        · rename_i state hraw
          cases h
          refine ⟨raw, state, ?_, ?_, hraw, rfl⟩
          · rw [← hdoc]
            exact opening_prefix_iff.mp hopening
          · rw [hdoc] at hcut
            exact (cut_append_iff newline_notMem_fence raw body).mp hcut
        · cases h
    · cases h
  · rintro ⟨raw, state, rfl, hfence, hraw, rfl⟩
    have hdrop : (opening ++ (raw ++ delimiter '\n' fence ++ body)).drop 4 =
        raw ++ delimiter '\n' fence ++ body := rfl
    rw [parseFrontmatter, if_pos (List.prefix_append _ _), hdrop,
      (cut_append_iff newline_notMem_fence raw body).mpr hfence]
    simp only [hraw]

/-! ### Documents that pass -/

/-- The fields that are bound to the document, the run and the converter, with their values. -/
def bindings (d : StagingDocumentDescriptor) (inputSha256 : Digest) : List (String × Text) :=
  [("markorbit.workspaceId", (idText "wsp" d.workspaceId).toList),
    ("markorbit.sourceId", (idText "src" d.sourceId).toList),
    ("markorbit.rawArtifactId", (idText "art" d.rawArtifactId).toList),
    ("markorbit.conversionRunId", (idText "cvr" d.conversionRunId).toList),
    ("markorbit.converterId", d.converter.converterId.toList),
    ("markorbit.converterVersion", d.converter.version.toList),
    ("markorbit.inputSha256", digestText inputSha256)]

/-- Every bound field has its value. -/
def Bound (d : StagingDocumentDescriptor) (inputSha256 : Digest) (fields : List ParsedField) :
    Prop :=
  ∀ binding ∈ bindings d inputSha256, isBound fields binding.1 binding.2 = true

theorem check_status_ne_fail {code : String} {passes : Bool} :
    (check code passes).status ≠ .fail ↔ passes = true := by
  cases passes <;> simp [check]

theorem isSome_of_isBound {fields : List ParsedField} {path : String} {text : Text}
    (h : isBound fields path text = true) : (valueAt fields path).isSome = true := by
  rw [isBound, decide_eq_true_eq] at h
  rw [h]
  rfl

theorem bindingChecks_pass_iff {d : StagingDocumentDescriptor} {inputSha256 : Digest}
    {fields : List ParsedField} :
    (∀ c ∈ bindingChecks d inputSha256 fields, c.status ≠ .fail) ↔ Bound d inputSha256 fields := by
  simp only [bindingChecks, Bound, bindings, List.forall_mem_cons, List.not_mem_nil, false_implies,
    implies_true, and_true, check_status_ne_fail, Bool.and_eq_true]
  constructor
  · rintro ⟨-, hworkspace, hsource, hartifact, hrun, ⟨hconverter, hversion⟩, hhash⟩
    exact ⟨hworkspace, hsource, hartifact, hrun, hconverter, hversion, hhash⟩
  · rintro ⟨hworkspace, hsource, hartifact, hrun, hconverter, hversion, hhash⟩
    refine ⟨?_, hworkspace, hsource, hartifact, hrun, ⟨hconverter, hversion⟩, hhash⟩
    -- A field that has its value is present.
    simp only [requiredKeys, List.all_cons, List.all_nil, Bool.and_true, Bool.and_eq_true]
    exact ⟨isSome_of_isBound hworkspace, isSome_of_isBound hsource, isSome_of_isBound hartifact,
      isSome_of_isBound hrun, isSome_of_isBound hconverter, isSome_of_isBound hversion,
      isSome_of_isBound hhash⟩

theorem outcome_ne_fail_iff {checks : List StagingValidationCheck} :
    outcome checks ≠ .fail ↔ ∀ c ∈ checks, c.status ≠ .fail := by
  unfold outcome
  constructor
  · intro h c hc hfail
    rw [if_pos (List.any_eq_true.mpr ⟨c, hc, by simpa using hfail⟩)] at h
    exact h rfl
  · intro h
    have hany : ¬(checks.any (·.status = .fail)) = true := by
      rw [List.any_eq_true]
      rintro ⟨c, hc, hfail⟩
      exact h c hc (by simpa using hfail)
    rw [if_neg hany]
    split <;> simp

theorem textChecks_pass_iff {d : StagingDocumentDescriptor} {inputSha256 : Digest} {text : Text} :
    (∀ c ∈ textChecks d inputSha256 (parseFrontmatter text), c.status ≠ .fail) ↔
      ∃ fields body, parseFrontmatter text = .parsed fields body ∧ Bound d inputSha256 fields ∧
        trimText body ≠ [] := by
  cases hparse : parseFrontmatter text with
  | failed failure body =>
    constructor
    · intro h
      -- The check that failed is among the standard ones.
      have hcheck : { code := failure.code, status := .fail, message := some failure.message } ∈
          failureChecks failure := by
        refine List.mem_map.mpr ⟨failure.code, (isCheck_of_failed hparse).code, ?_⟩
        rw [if_pos rfl]
      exact absurd rfl (h _ (List.mem_append_left _ hcheck))
    · rintro ⟨_, _, h, -⟩
      cases h
  | parsed fields body =>
    have hstandard : ∀ c ∈ standardChecks.map (check · true), c.status ≠ .fail := by
      intro c hc
      obtain ⟨code, -, rfl⟩ := List.mem_map.mp hc
      exact check_status_ne_fail.mpr rfl
    have hwarnings : ∀ c ∈ (extraFieldsWarning fields).map (fun warning =>
        ({ code := "FRONTMATTER_EXTRA_FIELDS", status := .warn, message := some warning } :
          StagingValidationCheck)), c.status ≠ .fail := by
      intro c hc
      obtain ⟨warning, -, rfl⟩ := List.mem_map.mp hc
      simp
    have hbody : (bodyCheck body).status ≠ .fail ↔ trimText body ≠ [] := by
      rw [bodyCheck, check_status_ne_fail]
      simp
    simp only [textChecks, List.forall_mem_append, List.mem_singleton, forall_eq,
      bindingChecks_pass_iff, hbody, ParseResult.parsed.injEq]
    constructor
    · rintro ⟨⟨⟨-, hbound⟩, hbody⟩, -⟩
      exact ⟨fields, body, ⟨rfl, rfl⟩, hbound, hbody⟩
    · rintro ⟨_, _, ⟨rfl, rfl⟩, hbound, hbody⟩
      exact ⟨⟨⟨hstandard, hbound⟩, hbody⟩, hwarnings⟩

variable {platform : StagingPlatform} {fuel : Nat} {d : StagingDocumentDescriptor}
  {run : ConversionRun} {bytes : ByteArray} {e : Evaluation}

/-- Which documents pass, with or without a warning. -/
theorem evaluate_passes (h : evaluate platform fuel d run bytes = some e) :
    e.outcome ≠ .fail ↔ ∃ text fields body, decodeFatal bytes = some text ∧
      parseFrontmatter text = .parsed fields body ∧ Bound d run.input.sha256 fields ∧
      trimText body ≠ [] := by
  unfold evaluate at h
  cases htext : decodeFatal bytes with
  | none =>
    simp only [htext, Option.some.injEq] at h
    subst h
    simp [evaluation, outcome]
  | some text =>
    have houtcome : e.outcome = outcome ([check "STAGING_CAS_INTEGRITY" true,
        check "MARKDOWN_UTF8_VALID" true] ++
        textChecks d run.input.sha256 (parseFrontmatter text)) := by
      simp only [htext] at h
      split at h
      · rw [← Option.some.inj h]
        rfl
      · rw [Option.map_eq_some_iff] at h
        obtain ⟨summary, -, rfl⟩ := h
        rfl
    rw [houtcome, outcome_ne_fail_iff, List.forall_mem_append, textChecks_pass_iff]
    simp [check]

end MarkorbitKnowledge.Staging
