import MarkorbitKnowledge.Conversion.OutputReady
import MarkorbitKnowledge.Lib.Placeholders
import Mathlib.Data.List.SplitBy

/-!
# The target path of a conversion run

The template of a run is checked twice before the run is stored, by the profile and by the run, and
its expansion is checked when a worker claims the run.  `slots` reads the placeholders of a template
as the four replacements of `expandTargetPath` do, so what the claim checks of the expansion is a
condition on the template, `TemplateIsPath`, which does not depend on the ids that are filled in.
`expandTargetPath_eq_some` is the result.
-/

namespace MarkorbitKnowledge.Conversion

open Contracts Fallible Placeholders Tables Transitions
open Execution (RegistryError)

/-! ### Placeholders -/

/-- What a placeholder of a template stands for. -/
inductive PathSlot where
  | artifactId | runId
deriving DecidableEq

abbrev PathPiece := Piece Char PathSlot

abbrev PathPieces := List PathPiece

/-- One replacement of `expandTargetPath`, before the ids are known. -/
def markSlot (pattern : String) (slot : PathSlot) (pieces : PathPieces) : PathPieces :=
  Placeholders.replaceFrom (letters pattern.toList) [.slot slot] 0 pieces

/-- The placeholders of a template, in the order `expandTargetPath` replaces them. -/
def slots (template : String) : PathPieces :=
  markSlot "\x7brunId\x7d" .runId (markSlot "\x7b\x7brunId\x7d\x7d" .runId
    (markSlot "\x7bartifactId\x7d" .artifactId (markSlot "\x7b\x7bartifactId\x7d\x7d" .artifactId
      (letters template.toList))))

def slotText (artifactId runId : Id) : PathSlot → Text
  | .artifactId => (idText "art" artifactId).toList
  | .runId => (idText "cvr" runId).toList

theorem mem_idText {idPrefix : String} {id : Id} (hleading : idPrefix.toList.all isAlnum = true) :
    ∀ c ∈ (idText idPrefix id).toList, isAlnum c = true ∨ c = '_' := by
  intro c hc
  rw [toList_idText, List.mem_append, List.mem_cons] at hc
  rcases hc with hc | rfl | hc
  · exact Or.inl (List.all_eq_true.mp hleading c hc)
  · exact Or.inr rfl
  · exact Or.inl (isAlnum_of_crockford (mem_encodeBase32 c hc))

theorem mem_slotText (artifactId runId : Id) (slot : PathSlot) :
    ∀ c ∈ slotText artifactId runId slot, isAlnum c = true ∨ c = '_' := by
  cases slot
  · exact mem_idText (by decide)
  · exact mem_idText (by decide)

theorem notMem_slotText {c : Char} (halnum : isAlnum c = false) (hne : c ≠ '_') (artifactId runId : Id)
    (slot : PathSlot) : c ∉ slotText artifactId runId slot := by
  intro hc
  rcases mem_slotText artifactId runId slot c hc with h | h
  · exact absurd (halnum.symm.trans h) (by decide)
  · exact hne h

theorem underscore_mem_slotText (artifactId runId : Id) (slot : PathSlot) :
    '_' ∈ slotText artifactId runId slot := by
  cases slot <;> simp [slotText, toList_idText]

theorem other_slotText (artifactId runId : Id) {text : Text} (htext : '_' ∉ text) (slot : PathSlot) :
    ∃ c ∈ slotText artifactId runId slot, c ∉ text :=
  ⟨'_', underscore_mem_slotText artifactId runId slot, htext⟩

/-- A placeholder in braces shares no letter's place with an id. -/
theorem apart_slotText (artifactId runId : Id) {pattern : Text} (hfirst : pattern.head? = some '\x7b')
    (hlast : pattern.getLast? = some '\x7d') (hpattern : '_' ∉ pattern) :
    Apart pattern (slotText artifactId runId) where
  first slot c hc := by
    obtain rfl := Option.some.inj (hfirst.symm.trans hc)
    exact notMem_slotText (by decide) (by decide) artifactId runId slot
  last slot c hc := by
    obtain rfl := Option.some.inj (hlast.symm.trans hc)
    exact notMem_slotText (by decide) (by decide) artifactId runId slot
  other := other_slotText artifactId runId hpattern

theorem replaceFrom_eq (pattern replacement : Text) (text : Text) : ∀ covered,
    Contracts.replaceFrom pattern replacement covered text =
      Placeholders.replaceFrom pattern replacement covered text := by
  induction text with
  | nil =>
    intro covered
    rw [Contracts.replaceFrom, Placeholders.replaceFrom]
  | cons c text ih =>
    intro covered
    cases covered with
    | zero => rw [Contracts.replaceFrom, Placeholders.replaceFrom, ih, ih]
    | succ covered => rw [Contracts.replaceFrom, Placeholders.replaceFrom, ih]

theorem replaceAll_fill (artifactId runId : Id) {pattern : String}
    (hfirst : pattern.toList.head? = some '\x7b') (hlast : pattern.toList.getLast? = some '\x7d')
    (hpattern : '_' ∉ pattern.toList) (slot : PathSlot) (pieces : PathPieces) :
    replaceAll (fill (slotText artifactId runId) pieces) pattern.toList
        (slotText artifactId runId slot) =
      fill (slotText artifactId runId) (markSlot pattern slot pieces) := by
  have hne : pattern.toList ≠ [] := by
    intro hnil
    rw [hnil] at hfirst
    cases hfirst
  rw [replaceAll, replaceFrom_eq,
    replaceFrom_fill (apart_slotText artifactId runId hfirst hlast hpattern) hne, markSlot]

/-- The four replacements of a template fill its placeholders. -/
theorem expandTargetPath_eq (template : String) (artifactId runId : Id) :
    expandTargetPath template artifactId runId =
      normalizeStagingTargetPath (fill (slotText artifactId runId) (slots template)) := by
  have hartifact : (idText "art" artifactId).toList = slotText artifactId runId .artifactId := rfl
  have hrun : (idText "cvr" runId).toList = slotText artifactId runId .runId := rfl
  have hstart : template.toList = fill (slotText artifactId runId) (letters template.toList) :=
    (fill_letters _).symm
  rw [expandTargetPath, hartifact, hrun, slots]
  conv_lhs => rw [hstart]
  rw [replaceAll_fill artifactId runId (by decide) (by decide) (by decide) .artifactId,
    replaceAll_fill artifactId runId (by decide) (by decide) (by decide) .artifactId,
    replaceAll_fill artifactId runId (by decide) (by decide) (by decide) .runId,
    replaceAll_fill artifactId runId (by decide) (by decide) (by decide) .runId]

/-! ### The path rule -/

/-- The UTF-16 code units of a piece; an id has thirty. -/
def pieceUnits : PathPiece → Nat
  | .letter c => if c.toNat < 0x10000 then 1 else 2
  | .slot _ => 30

def dropDot (pieces : PathPieces) : PathPieces :=
  if letters ['.', '/'] <+: pieces then pieces.drop 2 else pieces

/-- The path rule of the runtime protocol, for a path with placeholders. -/
@[mk_iff] structure IsPath (pieces : PathPieces) : Prop where
  length : (pieces.map pieceUnits).sum ≤ 500
  markdown : letters ".md".toList <:+ pieces
  drive : Piece.letter ':' ∉ pieces
  control : ∀ piece ∈ pieces, (piece.text fun _ => []).any isControl = false
  segments : ∀ segment ∈ segments '/' pieces,
    segment ≠ [] ∧ segment ≠ letters ['.'] ∧ segment ≠ letters ['.', '.']
  vault : ¬ letters "vault/".toList <+: pieces
  obsidian : ¬ letters ".obsidian/".toList <+: pieces
  stem : Piece.letter '.' ∉ ((Placeholders.segments '/' pieces).getLastD []).take
    (((Placeholders.segments '/' pieces).getLastD []).length - 3)

instance (pieces : PathPieces) : Decidable (IsPath pieces) := decidable_of_iff _ (isPath_iff pieces).symm

/-- The template is a relative path to a Markdown file, with each placeholder taken for an id. -/
def TemplateIsPath (template : String) : Prop := IsPath (dropDot (slots template))

instance (template : String) : Decidable (TemplateIsPath template) :=
  inferInstanceAs (Decidable (IsPath _))

section Fill

variable (artifactId runId : Id)

theorem jsLength_idText {idPrefix : String} (hleading : idPrefix.toList.all isAlnum = true) (id : Id) :
    jsLength (idText idPrefix id) = idPrefix.length + 27 := by
  have hplain : ∀ c ∈ (idText idPrefix id).toList, (if c.toNat < 0x10000 then 1 else 2) = 1 := by
    intro c hc
    have hsmall : c.toNat < 0x10000 := by
      rcases mem_idText hleading c hc with h | rfl
      · simp only [isAlnum, isLowerAlnum, Char.isDigit, Bool.or_eq_true, Bool.and_eq_true,
          decide_eq_true_eq] at h
        rcases h with (⟨-, h⟩ | ⟨-, h⟩) | ⟨-, h⟩
        · exact lt_of_le_of_lt (show c.toNat ≤ 57 from h) (by decide)
        · exact lt_of_le_of_lt (show c.toNat ≤ 122 from h) (by decide)
        · exact lt_of_le_of_lt (show c.toNat ≤ 90 from h) (by decide)
      · decide
    exact if_pos hsmall
  have hlength : (idText idPrefix id).toList.length = idPrefix.length + 27 := by
    simp [toList_idText, length_encodeBase32, String.length_toList]
  rw [jsLength, List.map_congr_left hplain, List.map_const', List.sum_replicate_nat, hlength, mul_one]

theorem textLength_slotText (slot : PathSlot) : textLength (slotText artifactId runId slot) = 30 := by
  cases slot
  · exact jsLength_idText (by decide) artifactId
  · exact jsLength_idText (by decide) runId

theorem textLength_fill (pieces : PathPieces) :
    textLength (fill (slotText artifactId runId) pieces) = (pieces.map pieceUnits).sum := by
  induction pieces with
  | nil => rfl
  | cons piece pieces ih =>
    cases piece with
    | letter c =>
      rw [fill_letter, List.map_cons, List.sum_cons, ← ih]
      simp [textLength, pieceUnits]
    | slot slot =>
      rw [fill_slot, List.map_cons, List.sum_cons, ← ih]
      have hword := textLength_slotText artifactId runId slot
      rw [textLength] at hword
      simp [textLength, pieceUnits, hword]

/-- The last segment of a filled Markdown path, without its extension. -/
theorem stem_fill {pieces : PathPieces} (hmarkdown : letters ".md".toList <:+ pieces) :
    let filled := (fill (slotText artifactId runId) pieces).splitOn '/'
    let last := (segments '/' pieces).getLastD []
    '.' ∈ (filled.getLastD []).take ((filled.getLastD []).length - 3) ↔
      Piece.letter '.' ∈ last.take (last.length - 3) := by
  intro filled last
  obtain ⟨text, rfl⟩ := hmarkdown
  have hending : (Piece.letter '/' : PathPiece) ∉ letters ".md".toList := by decide
  obtain ⟨earlier, stem, hsegments⟩ := segments_append text hending
  have hslash : ∀ slot, '/' ∉ slotText artifactId runId slot :=
    notMem_slotText (by decide) (by decide) artifactId runId
  have hfilled : filled.getLastD [] = fill (slotText artifactId runId) stem ++ ".md".toList := by
    have hsplit := splitOn_fill hslash (text ++ letters ".md".toList)
    rw [hsegments] at hsplit
    simp only [filled, hsplit, List.map_append, List.map_singleton, List.getLastD_concat, fill_append,
      fill_letters]
  have hlast : last = stem ++ letters ".md".toList := by
    simp only [last, hsegments, List.getLastD_concat]
  have hdrop : ∀ {β : Type} (xs ys : List β), ys.length = 3 →
      (xs ++ ys).take ((xs ++ ys).length - 3) = xs := by
    intro β xs ys hys
    rw [List.length_append, hys, Nat.add_sub_cancel, List.take_left]
  rw [hfilled, hlast, hdrop _ _ rfl, hdrop _ _ rfl]
  exact mem_fill (notMem_slotText (by decide) (by decide) artifactId runId)

theorem control_fill (pieces : PathPieces) :
    (∀ c ∈ fill (slotText artifactId runId) pieces, isControl c = false) ↔
      ∀ piece ∈ pieces, (piece.text fun _ => []).any isControl = false := by
  have hword : ∀ slot, ∀ c ∈ slotText artifactId runId slot, isControl c = false := by
    intro slot c hc
    by_contra hcontrol
    have hnot : isAlnum c = false ∧ c ≠ '_' := by
      simp only [isControl, Bool.not_eq_false, Bool.or_eq_true, decide_eq_true_eq, beq_iff_eq] at hcontrol
      constructor
      · simp only [isAlnum, isLowerAlnum, Char.isDigit, Bool.or_eq_false_iff, Bool.and_eq_false_iff,
          decide_eq_false_iff_not]
        have hdigit : c.toNat < 48 ∨ 122 < c.toNat := by omega
        refine ⟨⟨?_, ?_⟩, ?_⟩
        · exact hdigit.imp (fun h => Nat.not_le.mpr h) fun h => Nat.not_le.mpr (lt_trans (by decide) h)
        · exact hdigit.imp (fun h => Nat.not_le.mpr (lt_trans h (by decide))) fun h => Nat.not_le.mpr h
        · exact hdigit.imp (fun h => Nat.not_le.mpr (lt_trans h (by decide)))
            fun h => Nat.not_le.mpr (lt_trans (by decide) h)
      · rintro rfl
        revert hcontrol
        decide
    exact notMem_slotText hnot.1 hnot.2 artifactId runId slot hc
  rw [forall_mem_fill hword]
  constructor
  · intro h piece hpiece
    cases piece with
    | letter c => simpa [Piece.text] using h c hpiece
    | slot slot => rfl
  · intro h c hc
    simpa [Piece.text] using h _ hc

theorem segments_fill (pieces : PathPieces) :
    (∀ segment ∈ (fill (slotText artifactId runId) pieces).splitOn '/',
        segment ≠ [] ∧ segment ≠ ['.'] ∧ segment ≠ ['.', '.']) ↔
      ∀ segment ∈ segments '/' pieces,
        segment ≠ [] ∧ segment ≠ letters ['.'] ∧ segment ≠ letters ['.', '.'] := by
  have hslash : ∀ slot, '/' ∉ slotText artifactId runId slot :=
    notMem_slotText (by decide) (by decide) artifactId runId
  rw [splitOn_fill hslash, List.forall_mem_map]
  refine forall₂_congr fun segment _ => ?_
  rw [Ne, Ne, Ne, fill_eq_iff (other_slotText artifactId runId (by decide)),
    fill_eq_iff (other_slotText artifactId runId (by decide)),
    fill_eq_iff (other_slotText artifactId runId (by decide))]
  rfl

/-- The path rule holds of a filled path where it holds of the path with placeholders. -/
theorem isOutputPath_fill {pieces : PathPieces} (hbackslash : Piece.letter '\\' ∉ pieces) :
    isOutputPath (String.ofList (fill (slotText artifactId runId) pieces)) = true ↔ IsPath pieces := by
  set filled := fill (slotText artifactId runId) pieces with hfilled
  have hplain : ∀ c, isAlnum c = false → c ≠ '_' → (c ∈ filled ↔ Piece.letter c ∈ pieces) :=
    fun c halnum hne => mem_fill (notMem_slotText halnum hne artifactId runId)
  have hlength : jsLength (String.ofList filled) = (pieces.map pieceUnits).sum := by
    rw [← textLength_fill artifactId runId pieces, jsLength, String.toList_ofList]
    rfl
  have hmarkdown : ".md".toList <:+ filled ↔ letters ".md".toList <:+ pieces := by
    refine suffix_fill_iff (fun slot c hc => ?_) (other_slotText artifactId runId (by decide))
    obtain rfl : '.' = c := Option.some.inj hc
    exact notMem_slotText (by decide) (by decide) artifactId runId slot
  have hroot : ∀ text : Text, text.getLast? = some '/' → '_' ∉ text →
      (text <+: filled ↔ letters text <+: pieces) := by
    intro text hlast htext
    refine prefix_fill_iff (fun slot c hc => ?_) (other_slotText artifactId runId htext)
    obtain rfl := Option.some.inj (hlast.symm.trans hc)
    exact notMem_slotText (by decide) (by decide) artifactId runId slot
  have hsegments := segments_fill artifactId runId pieces
  have hcontrol := control_fill artifactId runId pieces
  have hhead : (∀ segment ∈ filled.splitOn '/', segment ≠ [] ∧ segment ≠ ['.'] ∧ segment ≠ ['.', '.']) →
      filled.head? ≠ some '/' := by
    intro hall hfirst
    obtain ⟨rest, hrest⟩ : ∃ rest, filled = '/' :: rest := by
      cases hsplit : filled with
      | nil =>
        rw [hsplit] at hfirst
        cases hfirst
      | cons c rest =>
        rw [hsplit] at hfirst
        exact ⟨rest, by rw [Option.some.inj hfirst]⟩
    have hmem : [] ∈ filled.splitOn '/' := by
      rw [hrest, List.splitOn_cons_eq_if_modifyHead]
      exact List.mem_cons_self
    exact (hall [] hmem).1 rfl
  have hpositive : ".md".toList <:+ filled → 0 < jsLength (String.ofList filled) := by
    rintro ⟨text, htext⟩
    rw [← htext, jsLength, String.toList_ofList, List.map_append, List.sum_append]
    exact Nat.add_pos_right _ (by decide)
  simp only [isOutputPath, normalizedTargetPath, String.toList_ofList, Bool.and_eq_true,
    decide_eq_true_eq, Bool.not_eq_true', decide_eq_false_iff_not, List.all_eq_true, bne_iff_ne,
    List.contains_eq_mem, List.any_eq_false, Bool.not_eq_true, and_assoc]
  constructor
  · rintro ⟨-, hle, -, -, hdrive, hmd, hsegs, hvault, hctl, hobsidian, hstem⟩
    have hmd' := hmarkdown.mp hmd
    exact
      { length := hlength ▸ hle
        markdown := hmd'
        drive := fun hmem => hdrive ((hplain ':' (by decide) (by decide)).mpr hmem)
        control := hcontrol.mp hctl
        segments := hsegments.mp hsegs
        vault := fun h => hvault ((hroot _ (by decide) (by decide)).mpr h)
        obsidian := fun h => hobsidian ((hroot _ (by decide) (by decide)).mpr h)
        stem := fun hmem => hstem ((stem_fill artifactId runId hmd').mpr hmem) }
  · intro h
    have hmd := hmarkdown.mpr h.markdown
    have hsegs := hsegments.mpr h.segments
    refine ⟨hpositive hmd, hlength ▸ h.length, hhead hsegs, ?_, ?_, hmd, hsegs, ?_, hcontrol.mpr h.control,
      ?_, ?_⟩
    · exact fun hmem => hbackslash ((hplain '\\' (by decide) (by decide)).mp hmem)
    · exact fun hmem => h.drive ((hplain ':' (by decide) (by decide)).mp hmem)
    · exact fun hvault => h.vault ((hroot _ (by decide) (by decide)).mp hvault)
    · exact fun hobsidian => h.obsidian ((hroot _ (by decide) (by decide)).mp hobsidian)
    · exact fun hmem => h.stem ((stem_fill artifactId runId h.markdown).mp hmem)

theorem slashes_of_notMem {text : Text} (h : '\\' ∉ text) : slashes text = text := by
  have hgroups : ∀ group ∈ text.splitBy fun c d => c == '\\' && d == '\\',
      (if group.head? == some '\\' then ['/'] else group) = group := by
    intro group hgroup
    have hhead : group.head? ≠ some '\\' := by
      intro hhead
      have hmem : '\\' ∈ (text.splitBy fun c d => c == '\\' && d == '\\').flatten :=
        List.mem_flatten.mpr ⟨group, hgroup, List.mem_of_head? hhead⟩
      rw [List.flatten_splitBy] at hmem
      exact h hmem
    simp [hhead]
  rw [slashes, List.flatMap_def, List.map_congr_left hgroups, List.map_id', List.flatten_splitBy]

theorem backslash_slots {template : String} (h : '\\' ∉ template.toList) :
    Piece.letter '\\' ∉ slots template := by
  have hmark : ∀ {pattern slot pieces}, Piece.letter '\\' ∉ pieces →
      Piece.letter '\\' ∉ markSlot pattern slot pieces := by
    intro pattern slot pieces hpieces hmem
    rcases mem_replaceFrom hmem with hmem | hmem
    · rw [List.mem_singleton] at hmem
      cases hmem
    · exact hpieces hmem
  refine hmark (hmark (hmark (hmark ?_)))
  intro hmem
  obtain ⟨c, hc, heq⟩ := List.mem_map.mp hmem
  exact h (Piece.letter.inj heq ▸ hc)

/-- What the claim checks of the expansion of a template is a condition on the template. -/
theorem expandTargetPath_eq_some {template : String} (htemplate : requestedOutput template = true)
    {path : String} :
    expandTargetPath template artifactId runId = some path ↔ TemplateIsPath template ∧
      String.ofList (fill (slotText artifactId runId) (dropDot (slots template))) = path := by
  have hback : '\\' ∉ template.toList := by
    simp only [requestedOutput, Bool.and_eq_true, Bool.not_eq_true', List.contains_eq_mem,
      decide_eq_false_iff_not] at htemplate
    exact htemplate.1.2
  have hslots := backslash_slots hback
  have hfilled : '\\' ∉ fill (slotText artifactId runId) (slots template) := fun hmem =>
    hslots ((mem_fill (notMem_slotText (by decide) (by decide) artifactId runId)).mp hmem)
  have hdot : ['.', '/'] <+: fill (slotText artifactId runId) (slots template) ↔
      letters ['.', '/'] <+: slots template := by
    refine prefix_fill_iff (fun slot c hc => ?_) (other_slotText artifactId runId (by decide))
    obtain rfl : '/' = c := Option.some.inj hc
    exact notMem_slotText (by decide) (by decide) artifactId runId slot
  have hdrop : (if ['.', '/'] <+: fill (slotText artifactId runId) (slots template) then
      (fill (slotText artifactId runId) (slots template)).drop 2
      else fill (slotText artifactId runId) (slots template)) =
        fill (slotText artifactId runId) (dropDot (slots template)) := by
    by_cases h : letters ['.', '/'] <+: slots template
    · rw [if_pos (hdot.mpr h), dropDot, if_pos h]
      obtain ⟨rest, hrest⟩ := h
      rw [← hrest]
      rfl
    · rw [if_neg (mt hdot.mp h), dropDot, if_neg h]
  have hkept : Piece.letter '\\' ∉ dropDot (slots template) := by
    intro hmem
    rw [dropDot] at hmem
    split at hmem
    · exact hslots (List.mem_of_mem_drop hmem)
    · exact hslots hmem
  rw [expandTargetPath_eq, normalizeStagingTargetPath, slashes_of_notMem hfilled]
  simp only [hdrop, Option.ite_none_right_eq_some, Option.some.injEq]
  rw [isOutputPath_fill artifactId runId hkept]
  rfl

end Fill

theorem isOutputPath_of_expandTargetPath {template path : String} {artifactId runId : Id}
    (h : expandTargetPath template artifactId runId = some path) : isOutputPath path = true := by
  simp only [expandTargetPath, normalizeStagingTargetPath, Option.ite_none_right_eq_some,
    Option.some.injEq] at h
  obtain ⟨hpath, rfl⟩ := h
  exact hpath

/-- A path whose components all lie below the directory it is resolved in. -/
structure StaysInside (path : String) : Prop where
  absolute : path.toList.head? ≠ some '/'
  backslash : '\\' ∉ path.toList
  drive : ':' ∉ path.toList
  parent : ∀ segment ∈ path.toList.splitOn '/', segment ≠ ['.', '.']

theorem staysInside_of_normalizedTargetPath {path : String} (h : normalizedTargetPath path = true) :
    StaysInside path := by
  simp only [normalizedTargetPath, Bool.and_eq_true, decide_eq_true_eq, Bool.not_eq_true',
    List.contains_eq_mem, decide_eq_false_iff_not, List.all_eq_true, bne_iff_ne] at h
  obtain ⟨⟨⟨⟨⟨-, habsolute⟩, hbackslash⟩, hdrive⟩, -⟩, hsegments⟩ := h
  exact ⟨habsolute, hbackslash, hdrive, fun segment hsegment => (hsegments segment hsegment).2⟩

end MarkorbitKnowledge.Conversion
