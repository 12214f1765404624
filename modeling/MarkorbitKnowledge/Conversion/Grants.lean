import MarkorbitKnowledge.Conversion.TargetPath

/-!
# The grants of a claim

The references of the two grants are made of the ids of the artifact, the run and the attempt, and may
mention no word such as "secret".  A word lies within one part of a reference, and only two of the
words can be spelled by an id, so what the claim checks of the references is a condition on the ids,
`isPlainId`.
-/

namespace MarkorbitKnowledge.Conversion

open Contracts Fallible Placeholders Tables
open Execution (RegistryError)

/-! ### Words in a reference -/

theorem mentions_iff {words : List String} {text : String} :
    mentions words text = true ↔
      ∃ word ∈ words, word.toList <:+: text.toList.map Char.toLower := by
  simp [mentions]

theorem mentions_append (words rest : List String) (text : String) :
    mentions (words ++ rest) text = (mentions words text || mentions rest text) := by
  rw [mentions, List.any_append]
  rfl

/-- A word without a colon lies on one side of it. -/
theorem mentions_colon {words : List String} (hwords : ∀ word ∈ words, ':' ∉ word.toList)
    (left right : String) :
    mentions words (left ++ ":" ++ right) = (mentions words left || mentions words right) := by
  have htext : (left ++ ":" ++ right).toList.map Char.toLower =
      left.toList.map Char.toLower ++ ':' :: right.toList.map Char.toLower := by
    simp
  rw [Bool.eq_iff_iff, Bool.or_eq_true, mentions_iff, mentions_iff, mentions_iff, htext]
  constructor
  · rintro ⟨word, hword, hinner⟩
    rcases (infix_append_cons_iff (hwords word hword)).mp hinner with hleft | hright
    · exact Or.inl ⟨word, hword, hleft⟩
    · exact Or.inr ⟨word, hword, hright⟩
  · rintro (⟨word, hword, hinner⟩ | ⟨word, hword, hinner⟩)
    · exact ⟨word, hword, (infix_append_cons_iff (hwords word hword)).mpr (Or.inl hinner)⟩
    · exact ⟨word, hword, (infix_append_cons_iff (hwords word hword)).mpr (Or.inr hinner)⟩

theorem mentions_eq_false {words : List String} {text : String}
    (h : ∀ word ∈ words, ∃ c ∈ word.toList, c ∉ text.toList.map Char.toLower) :
    mentions words text = false := by
  rw [Bool.eq_false_iff, Ne, mentions_iff]
  rintro ⟨word, hword, hinner⟩
  obtain ⟨c, hc, hmissing⟩ := h word hword
  exact hmissing (hinner.subset hc)

/-- The letters O and L are not digits of an id. -/
theorem notMem_idText {idPrefix : String} {id : Id} {c : Char}
    (hleading : c ∉ idPrefix.toList.map Char.toLower)
    (hother : c ∉ ('_' :: CROCKFORD).map Char.toLower) :
    c ∉ (idText idPrefix id).toList.map Char.toLower := by
  intro hc
  obtain ⟨d, hd, rfl⟩ := List.mem_map.mp hc
  rw [toList_idText, List.mem_append, List.mem_cons] at hd
  rcases hd with hd | rfl | hd
  · exact hleading (List.mem_map_of_mem hd)
  · exact hother (List.mem_map_of_mem List.mem_cons_self)
  · exact hother (List.mem_map_of_mem (List.mem_cons_of_mem _ (mem_encodeBase32 d hd)))

/-- The text of an id mentions no word that a reference may not. -/
def isPlainId (idPrefix : String) (id : Id) : Bool :=
  !mentions ["secret", "bearer"] (idText idPrefix id)

/-- The other words have an O or an L. -/
theorem mentions_idText {idPrefix : String} {id : Id} {words : List String}
    (hleading : 'o' ∉ idPrefix.toList.map Char.toLower ∧ 'l' ∉ idPrefix.toList.map Char.toLower)
    (hwords : ∀ word ∈ words, 'o' ∈ word.toList ∨ 'l' ∈ word.toList) :
    mentions (["secret", "bearer"] ++ words) (idText idPrefix id) = !isPlainId idPrefix id := by
  have hnone : mentions words (idText idPrefix id) = false := by
    refine mentions_eq_false fun word hword => ?_
    rcases hwords word hword with hmem | hmem
    · exact ⟨'o', hmem, notMem_idText hleading.1 (by decide)⟩
    · exact ⟨'l', hmem, notMem_idText hleading.2 (by decide)⟩
  rw [mentions_append, hnone, Bool.or_false, isPlainId, Bool.not_not]

/-- A reference to an attempt mentions a word where one of its two ids does. -/
theorem mentions_reference (stem idPrefix : String) (id attemptId : Id) {words : List String}
    (hstem : mentions (["secret", "bearer"] ++ words) stem = false)
    (hcolon : ∀ word ∈ words, ':' ∉ word.toList)
    (hleading : 'o' ∉ idPrefix.toList.map Char.toLower ∧ 'l' ∉ idPrefix.toList.map Char.toLower)
    (hwords : ∀ word ∈ words, 'o' ∈ word.toList ∨ 'l' ∈ word.toList) :
    mentions (["secret", "bearer"] ++ words)
        (stem ++ ":" ++ idText idPrefix id ++ ":" ++ idText "cva" attemptId) =
      !(isPlainId idPrefix id && isPlainId "cva" attemptId) := by
  have hparted : ∀ word ∈ ["secret", "bearer"] ++ words, ':' ∉ word.toList := by
    intro word hword
    rcases List.mem_append.mp hword with hword | hword
    · exact (by decide : ∀ word ∈ ["secret", "bearer"], ':' ∉ word.toList) word hword
    · exact hcolon word hword
  rw [mentions_colon hparted, mentions_colon hparted, hstem, mentions_idText hleading hwords,
    mentions_idText (by decide) hwords, Bool.false_or, Bool.not_and]

theorem jsLength_append (left right : String) :
    jsLength (left ++ right) = jsLength left + jsLength right := by
  simp [jsLength]

/-! ### The documents of a claim -/

/-- What the runtime protocol asks of a run whose documents a claim issues. -/
structure Grantable (run : ConversionRun) : Prop where
  version : isShortMember run.converter.version = true
  mimeType : isShortMember run.input.mimeType = true
  artifactId : isPlainId "art" run.rawArtifactId = true
  runId : isPlainId "cvr" run.id = true

variable {request : ConversionClaimRequest} {run : ConversionRun} {values : ConversionClaimValues}
  {path : String} {expiresAt : Timestamp}

theorem isRawArtifactReadGrant_claimed_iff :
    isRawArtifactReadGrant (claimedReadGrant request run values expiresAt) = true ↔
      (inputEvidence run.input = true ∧ isShortMember run.input.mimeType = true) ∧
        (isPlainId "art" run.rawArtifactId = true ∧ isPlainId "cva" values.attemptId = true) ∧
        isRfc3339 values.now = true ∧ isRfc3339 expiresAt = true := by
  have hmentions := @mentions_reference "artifact-read" "art" run.rawArtifactId values.attemptId
    ["token", "password"] (by decide) (by decide) (by decide) (by decide)
  have hlength : isStr ("artifact-read" ++ ":" ++ idText "art" run.rawArtifactId ++ ":" ++
      idText "cva" values.attemptId) 200 = true := by
    simp only [isStr, jsLength_append, jsLength_idText (show "art".toList.all isAlnum = true by decide),
      jsLength_idText (show "cva".toList.all isAlnum = true by decide)]
    decide
  have hmime : inputEvidence run.input = true ↔
      positiveInteger run.input.sizeBytes = true ∧ isMimeType run.input.mimeType = true := by
    rw [inputEvidence, Bool.and_eq_true, and_comm]
  have hstem : "artifact-read:" = "artifact-read" ++ ":" := by decide
  simp only [isRawArtifactReadGrant, claimedReadGrant, hstem, hlength, Bool.and_eq_true]
  rw [show ["secret", "bearer", "token", "password"] = ["secret", "bearer"] ++ ["token", "password"] from rfl,
    hmentions, hmime]
  have hcounts : positiveInteger 1 = true ∧ isSafeInteger 0 = true ∧ decide (0 ≤ 1) = true := by decide
  rw [hcounts.1, hcounts.2.1, hcounts.2.2]
  simp only [Bool.not_not, Bool.and_eq_true, and_true, and_assoc]

theorem isStagingOutputUploadGrant_claimed_iff :
    isStagingOutputUploadGrant (claimedUploadGrant request run path values expiresAt) = true ↔
      (isPlainId "cvr" run.id = true ∧ isPlainId "cva" values.attemptId = true) ∧
        isOutputPath path = true ∧ isRfc3339 values.now = true ∧ isRfc3339 expiresAt = true := by
  have hmentions := @mentions_reference "staging-upload" "cvr" run.id values.attemptId
    ["token", "password", "vault"] (by decide) (by decide) (by decide) (by decide)
  have hlength : isStr ("staging-upload" ++ ":" ++ idText "cvr" run.id ++ ":" ++
      idText "cva" values.attemptId) 200 = true := by
    simp only [isStr, jsLength_append, jsLength_idText (show "cvr".toList.all isAlnum = true by decide),
      jsLength_idText (show "cva".toList.all isAlnum = true by decide)]
    decide
  have hstem : "staging-upload:" = "staging-upload" ++ ":" := by decide
  simp only [isStagingOutputUploadGrant, claimedUploadGrant, hstem, hlength, Bool.and_eq_true]
  rw [show ["secret", "bearer", "token", "password", "vault"] =
    ["secret", "bearer"] ++ ["token", "password", "vault"] from rfl, hmentions]
  have hbytes : positiveInteger 5000000 = true ∧ decide (5000000 ≤ 5000000) = true := by decide
  rw [hbytes.1, hbytes.2]
  simp only [Bool.not_not, Bool.and_eq_true, and_true, true_and, and_assoc]

theorem grantable_of_claimValid {renewableUntil : Timestamp} {ordinal : Nat}
    (h : ClaimValid request (claimedLease request run values expiresAt renewableUntil)
      (claimedAttempt request run values ordinal) (claimedReadGrant request run values expiresAt)
      (claimedUploadGrant request run path values expiresAt)) : Grantable run := by
  obtain ⟨⟨-, hmime⟩, ⟨hartifact, -⟩, -⟩ := isRawArtifactReadGrant_claimed_iff.mp h.readGrantValid
  obtain ⟨⟨hrun, -⟩, -⟩ := isStagingOutputUploadGrant_claimed_iff.mp h.uploadGrantValid
  have hattempt := h.attemptValid
  simp only [isConversionAttempt, claimedAttempt, RuntimeConverterRef.isExact, Bool.and_eq_true] at hattempt
  exact ⟨hattempt.1.1.1.1.1.1.2.2, hmime, hartifact, hrun⟩

end MarkorbitKnowledge.Conversion
