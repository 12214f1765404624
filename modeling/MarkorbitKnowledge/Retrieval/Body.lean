import MarkorbitKnowledge.Execution.Store
import MarkorbitKnowledge.Staging.Decision

/-!
# The body that is indexed

`retrieval-index.ts` decodes the bytes of a verified document a second time, rewrites its line ends,
and looks for the end of the frontmatter in the rewritten text.  The verifier looked for it in the
text as it was.
-/

namespace MarkorbitKnowledge.Retrieval

open Contracts Fallible Delimited
open Execution (RegistryError)
open Staging

/-- `replace(/\r\n?/g, "\n")`. -/
def normalizeNewlines : Text → Text
  | [] => []
  | '\r' :: '\n' :: rest => '\n' :: normalizeNewlines rest
  | '\r' :: rest => '\n' :: normalizeNewlines rest
  | c :: rest => c :: normalizeNewlines rest

attribute [local simp] normalizeNewlines

/-- `decodeUtf8`. -/
def decodeUtf8 (bytes : ByteArray) : Except RegistryError Text := do
  let text ← orThrow (decodeFatal bytes)
    (.validation "Indexed canonical Markdown must be valid UTF-8")
  pure (normalizeNewlines text)

def canonicalBody (markdown : Text) : Except RegistryError Text := do
  require (opening <+: markdown)
    (.validation "Canonical Markdown must begin with YAML frontmatter")
  let parts ← orThrow (cut (delimiter '\n' fence) (markdown.drop 4))
    (.validation "Canonical Markdown frontmatter is not terminated")
  let body := trimText parts.2
  require (body ≠ []) (.validation "Canonical Markdown body must not be empty")
  pure body

/-! ### Line ends -/

theorem normalizeNewlines_cons {c : Char} (hc : c ≠ '\r') (rest : Text) :
    normalizeNewlines (c :: rest) = c :: normalizeNewlines rest := by
  rw [normalizeNewlines]
  · intro _ h
    exact absurd h hc
  · exact hc

theorem normalizeNewlines_cr {rest : Text} (hrest : ∀ more, rest ≠ '\n' :: more) :
    normalizeNewlines ('\r' :: rest) = '\n' :: normalizeNewlines rest := by
  rw [normalizeNewlines]
  intro more h
  exact hrest more h

/-- Rewriting the line ends of a text that has a line feed in it.  A carriage return right before the
    line feed is part of the same line end. -/
theorem normalizeNewlines_append (raw : Text) :
    ∃ before, (∀ rest, normalizeNewlines (raw ++ '\n' :: rest) =
        before ++ '\n' :: normalizeNewlines rest) ∧
      (normalizeNewlines raw = before ∨ normalizeNewlines raw = before ++ ['\n']) := by
  induction raw using normalizeNewlines.induct with
  | case1 => exact ⟨[], fun rest => normalizeNewlines_cons (by decide) rest, Or.inl rfl⟩
  | case2 rest ih =>
    obtain ⟨before, happend, hraw⟩ := ih
    refine ⟨'\n' :: before, fun more => ?_, ?_⟩
    · simp [normalizeNewlines, happend]
    · rcases hraw with h | h <;> simp [normalizeNewlines, h]
  | case3 rest hrest ih =>
    cases rest with
    | nil => exact ⟨[], fun rest => by simp [normalizeNewlines], Or.inr rfl⟩
    | cons c rest =>
      have hfirst : ∀ tail more : Text, c :: tail ≠ '\n' :: more := by
        intro tail more h
        exact hrest rest (by rw [(List.cons.inj h).1])
      obtain ⟨before, happend, hraw⟩ := ih
      refine ⟨'\n' :: before, fun more => ?_, ?_⟩
      · rw [List.cons_append, List.cons_append, normalizeNewlines_cr (hfirst _), ← List.cons_append,
          happend]
        rfl
      · rw [normalizeNewlines_cr (hfirst _)]
        rcases hraw with h | h <;> simp [h]
  | case4 c rest hcrlf hcr ih =>
    obtain ⟨before, happend, hraw⟩ := ih
    have hc : c ≠ '\r' := fun h => hcr h
    refine ⟨c :: before, fun more => ?_, ?_⟩
    · rw [List.cons_append, normalizeNewlines_cons hc, happend]
      rfl
    · rw [normalizeNewlines_cons hc]
      rcases hraw with h | h <;> simp [h]

/-- The lines of a text after its first, whatever ends them. -/
def laterLines (t : Text) : List Text := ((normalizeNewlines t).splitOn '\n').tail

/-- The rewritten document, and where its frontmatter ends. -/
theorem normalizeNewlines_document (raw body : Text) :
    ∃ before, normalizeNewlines (opening ++ (raw ++ delimiter '\n' fence ++ body)) =
        opening ++ (before ++ delimiter '\n' fence ++ normalizeNewlines body) ∧
      (fence ∈ (before.splitOn '\n').tail ↔ fence ∈ laterLines raw) := by
  obtain ⟨before, happend, hraw⟩ := normalizeNewlines_append raw
  refine ⟨before, ?_, ?_⟩
  · have hbody : ∀ t : Text, normalizeNewlines ('-' :: '-' :: '-' :: '\n' :: t) =
        '-' :: '-' :: '-' :: '\n' :: normalizeNewlines t := by
      intro t
      simp [normalizeNewlines]
    have hraw : raw ++ delimiter '\n' fence ++ body =
        raw ++ '\n' :: ('-' :: '-' :: '-' :: '\n' :: body) := by
      simp [delimiter, fence]
    rw [hraw]
    show normalizeNewlines ('-' :: '-' :: '-' :: '\n' ::
      (raw ++ '\n' :: ('-' :: '-' :: '-' :: '\n' :: body))) = _
    rw [hbody, happend, hbody]
    simp [delimiter, fence, opening]
  · rw [laterLines]
    rcases hraw with h | h
    · rw [h]
    · have hne : fence ≠ [] := by decide
      rw [h, List.splitOn_append_cons_self, List.splitOn_nil,
        List.tail_append_of_ne_nil (List.splitOn_ne_nil _ _), List.mem_append, List.mem_singleton]
      simp [hne]

/-! ### White space -/

/-- The characters of a text that trimming cannot take away. -/
def visible (t : Text) : Text := t.filter fun c => !isJsSpace c

theorem visible_trimText (t : Text) : visible (trimText t) = visible t := by
  have hstart : ∀ t : Text, visible (t.dropWhile isJsSpace) = visible t := by
    intro t
    induction t with
    | nil => rfl
    | cons c t ih =>
      rw [List.dropWhile_cons]
      split
      · rename_i hc
        rw [ih]
        simp [visible, hc]
      · rfl
  have hend : ∀ t : Text, visible (trimEnd t) = visible t := by
    intro t
    have := hstart t.reverse
    rw [trimEnd, List.rdropWhile, visible, List.filter_reverse, ← visible, this, visible,
      List.filter_reverse, List.reverse_reverse]
    rfl
  rw [trimText, hend, trimStart, hstart]

theorem trimText_eq_nil_iff {t : Text} : trimText t = [] ↔ visible t = [] := by
  constructor
  · intro h
    rw [← visible_trimText, h]
    rfl
  · intro h
    have hall : ∀ c ∈ t, isJsSpace c = true := by
      intro c hc
      by_contra hspace
      have : c ∈ visible t := List.mem_filter.mpr ⟨hc, by simp [hspace]⟩
      rw [h] at this
      cases this
    rw [trimText, trimStart, List.dropWhile_eq_nil_iff.mpr hall]
    rfl

theorem visible_normalizeNewlines (t : Text) : visible (normalizeNewlines t) = visible t := by
  have hcr : isJsSpace '\r' = true := by decide
  have hlf : isJsSpace '\n' = true := by decide
  induction t using normalizeNewlines.induct with
  | case1 => rfl
  | case2 rest ih =>
    rw [normalizeNewlines]
    simpa [visible, hcr, hlf] using ih
  | case3 rest hrest ih =>
    rw [normalizeNewlines_cr (fun more h => hrest more h)]
    simpa [visible, hcr, hlf] using ih
  | case4 c rest hcrlf hcr' ih =>
    rw [normalizeNewlines_cons (fun h => hcr' h)]
    unfold visible at ih ⊢
    rw [List.filter_cons, List.filter_cons, ih]

/-! ### The two bodies -/

/-- The body of a document, from its bytes. -/
def indexedBody (bytes : ByteArray) : Except RegistryError Text :=
  decodeUtf8 bytes >>= canonicalBody

theorem canonicalBody_opening {t : Text} {parts : Text × Text}
    (hcut : cut (delimiter '\n' fence) t = some parts) (hbody : visible parts.2 ≠ []) :
    canonicalBody (opening ++ t) = .ok (trimText parts.2) := by
  have htrim : trimText parts.2 ≠ [] := fun h => hbody (trimText_eq_nil_iff.mp h)
  have hdrop : (opening ++ t).drop 4 = t := rfl
  simp only [canonicalBody, bind_eq_ok, require_eq_ok, orThrow_eq_ok, pure_eq_ok, hdrop]
  exact ⟨(), List.prefix_append _ _, parts, hcut, (), htrim, rfl⟩

theorem visible_append (s t : Text) : visible (s ++ t) = visible s ++ visible t :=
  List.filter_append _ _

/-- Trimming does not bring a text with more visible characters down to another one. -/
theorem trimText_ne_of_visible {s t : Text} (h : (visible s).length ≠ (visible t).length) :
    trimText s ≠ trimText t := by
  intro heq
  apply h
  rw [← visible_trimText s, ← visible_trimText t, heq]

variable {platform : StagingPlatform} {fuel : Nat} {d : StagingDocumentDescriptor}
  {run : ConversionRun} {bytes : ByteArray} {e : Evaluation}

/-- The body that is indexed is the one the verifier separated, up to line ends and white space around
    it, if and only if no line of the frontmatter after its first is a fence, where a carriage return
    ends a line too. -/
theorem indexedBody_document {raw body : Text}
    (hdecode : decodeFatal bytes = some (opening ++ (raw ++ delimiter '\n' fence ++ body)))
    (hbody : trimText body ≠ []) :
    ∃ indexed, indexedBody bytes = .ok indexed ∧
      (indexed = trimText (normalizeNewlines body) ↔ fence ∉ laterLines raw) := by
  obtain ⟨before, hdocument, hlater⟩ := normalizeNewlines_document raw body
  have hdecoded : decodeUtf8 bytes =
      .ok (opening ++ (before ++ delimiter '\n' fence ++ normalizeNewlines body)) := by
    simp only [decodeUtf8, bind_eq_ok, orThrow_eq_ok, pure_eq_ok]
    exact ⟨_, hdecode, hdocument⟩
  have hvisible : visible (normalizeNewlines body) ≠ [] := by
    rw [visible_normalizeNewlines]
    exact fun h => hbody (trimText_eq_nil_iff.mpr h)
  rw [indexedBody, hdecoded, ok_bind]
  rcases cut_append newline_notMem_fence before (normalizeNewlines body) with
    ⟨hcut, hout⟩ | ⟨hin, first, more, hcut⟩
  · refine ⟨_, canonicalBody_opening hcut hvisible, ?_⟩
    rw [hlater] at hout
    exact iff_of_true rfl hout
  · -- The fence that the verifier found is now part of the body.
    have hmore : (visible (more ++ (fence ++ ['\n']) ++ normalizeNewlines body)).length =
        (visible more).length + 3 + (visible (normalizeNewlines body)).length := by
      rw [visible_append, visible_append, List.length_append, List.length_append]
      rfl
    have hne : (visible (more ++ (fence ++ ['\n']) ++ normalizeNewlines body)).length ≠
        (visible (normalizeNewlines body)).length := by omega
    refine ⟨_, canonicalBody_opening hcut ?_, ?_⟩
    · intro hnil
      rw [hnil, List.length_nil] at hmore
      omega
    · exact iff_of_false (trimText_ne_of_visible hne) (not_not_intro (hlater.mp hin))

/-- A document that passes its verification always has a body to index, and it is the verified one
    if and only if the frontmatter has no fence among its later lines. -/
theorem indexedBody_eq_iff (h : evaluate platform fuel d run bytes = some e)
    (hpass : e.outcome ≠ .fail) :
    ∃ raw fields body, decodeFatal bytes = some (opening ++ (raw ++ delimiter '\n' fence ++ body)) ∧
      parseFrontmatter (opening ++ (raw ++ delimiter '\n' fence ++ body)) = .parsed fields body ∧
      ∃ indexed, indexedBody bytes = .ok indexed ∧
        (indexed = trimText (normalizeNewlines body) ↔ fence ∉ laterLines raw) := by
  obtain ⟨text, fields, body, hdecode, hparse, -, hbody⟩ := (evaluate_passes h).mp hpass
  obtain ⟨raw, state, rfl, -, -, -⟩ := parseFrontmatter_eq_parsed.mp hparse
  exact ⟨raw, fields, body, hdecode, hparse, indexedBody_document hdecode hbody⟩

/-! ### A comment with carriage returns -/

/-- A frontmatter with the bound fields and some lines more. -/
def boundFrontmatter (more : Text) : Text :=
  "markorbit:".toList ++
    ((bindings sampleDescriptor sampleRun.input.sha256).flatMap fun binding =>
      "\n  ".toList ++ binding.1.toList.drop 10 ++ ": \"".toList ++ binding.2 ++ ['"']) ++ more

/-- A document whose frontmatter is bound and ends with some lines more. -/
def boundDocument (more : Text) : Text :=
  opening ++ (boundFrontmatter more ++ delimiter '\n' fence ++ "\nBody\n".toList)

def passes (text : Text) : Bool :=
  match parseFrontmatter text with
  | .parsed fields body =>
    (bindings sampleDescriptor sampleRun.input.sha256).all (fun binding =>
      isBound fields binding.1 binding.2) && body == "\nBody\n".toList
  | .failed _ _ => false

theorem decode_boundDocument (more : Text) :
    decodeFatal (encodeText (boundDocument more)) = some (boundDocument more) :=
  decodeFatal_encodeText (by simp [boundDocument, opening])

theorem evaluate_boundDocument {more : Text} (h : passes (boundDocument more) = true) :
    ∃ e fuel fields, evaluate sizePlatform fuel sampleDescriptor sampleRun
        (encodeText (boundDocument more)) = some e ∧ e.outcome ≠ .fail ∧
      parseFrontmatter (boundDocument more) = .parsed fields "\nBody\n".toList := by
  obtain ⟨e, n, -, hfuel⟩ := evaluate_total hasSuffixes_sizePlatform sampleDescriptor sampleRun
    (encodeText (boundDocument more))
  have heval := hfuel n (Nat.le_refl n)
  unfold passes at h
  split at h
  · rename_i fields body hparse
    rw [Bool.and_eq_true, List.all_eq_true, beq_iff_eq] at h
    obtain ⟨hbound, rfl⟩ := h
    refine ⟨e, n, fields, heval, (evaluate_passes heval).mpr ?_, hparse⟩
    exact ⟨_, fields, _, decode_boundDocument more, hparse, hbound, by decide⟩
  · cases h

/-- The comment `note`, a fence between carriage returns, and a rest. -/
def hiddenFence : Text := "\n# note\r---\rrest".toList

theorem passes_hiddenFence : passes (boundDocument hiddenFence) = true := by decide +kernel

theorem indexedBody_bound :
    ∃ e fuel, evaluate sizePlatform fuel sampleDescriptor sampleRun
        (encodeText (boundDocument hiddenFence)) = some e ∧ e.outcome ≠ .fail ∧
      ∃ raw fields body,
        decodeFatal (encodeText (boundDocument hiddenFence)) =
          some (opening ++ (raw ++ delimiter '\n' fence ++ body)) ∧
        parseFrontmatter (opening ++ (raw ++ delimiter '\n' fence ++ body)) =
          .parsed fields body ∧
        ∃ indexed, indexedBody (encodeText (boundDocument hiddenFence)) = .ok indexed ∧
          (indexed = trimText (normalizeNewlines body) ↔ fence ∉ laterLines raw) := by
  obtain ⟨e, fuel, -, heval, hpass, -⟩ := evaluate_boundDocument passes_hiddenFence
  exact ⟨e, fuel, heval, hpass, indexedBody_eq_iff heval hpass⟩

/-- The fence in the comment ends the frontmatter for the index, though not for the verifier. -/
theorem indexedBody_hiddenFence :
    isStagingDocumentDescriptor sampleDescriptor = true ∧ isConversionRun sampleRun = true ∧
      ∃ e fuel fields indexed, evaluate sizePlatform fuel sampleDescriptor sampleRun
          (encodeText (boundDocument hiddenFence)) = some e ∧ e.outcome ≠ .fail ∧
        parseFrontmatter (boundDocument hiddenFence) = .parsed fields "\nBody\n".toList ∧
        indexedBody (encodeText (boundDocument hiddenFence)) = .ok indexed ∧
        indexed ≠ trimText (normalizeNewlines "\nBody\n".toList) := by
  have hdescriptor : isStagingDocumentDescriptor sampleDescriptor = true := by decide
  have hrun : isConversionRun sampleRun = true := by decide
  obtain ⟨e, fuel, fields, heval, hpass, hparse⟩ := evaluate_boundDocument passes_hiddenFence
  have hdecode : decodeFatal (encodeText (boundDocument hiddenFence)) = some (opening ++
      (boundFrontmatter hiddenFence ++ delimiter '\n' fence ++ "\nBody\n".toList)) :=
    decode_boundDocument hiddenFence
  obtain ⟨indexed, hindexed, hiff⟩ := indexedBody_document hdecode (by decide)
  have hlater : fence ∈ laterLines (boundFrontmatter hiddenFence) := by decide
  exact ⟨hdescriptor, hrun, e, fuel, fields, indexed, heval, hpass, hparse, hindexed,
    fun heq => hiff.mp heq hlater⟩

end MarkorbitKnowledge.Retrieval
