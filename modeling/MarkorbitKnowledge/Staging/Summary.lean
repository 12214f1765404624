import MarkorbitKnowledge.Staging.Evaluation
import Mathlib.Data.List.Nodup
import Mathlib.Order.Nat

/-!
# The summary of a frontmatter

The keys of the summary satisfy the pattern of the descriptor and are distinct, for any paths.  The
search for an unused key ends if the digests of its attempts do not all begin with suffixes that are
in use, which is what `HasSuffixes` says of the platform.
-/

namespace MarkorbitKnowledge.Staging

open Contracts

/-! ### ASCII texts -/

theorem textLength_ascii {t : Text} (h : ∀ c ∈ t, c.toNat < 128) : textLength t = t.length := by
  induction t with
  | nil => rfl
  | cons c t ih =>
    have hc : c.toNat < 0x10000 := Nat.lt_trans (h c List.mem_cons_self) (by decide)
    have ht := ih fun d hd => h d (List.mem_cons_of_mem _ hd)
    rw [textLength] at ht ⊢
    simp [hc, ht, Nat.add_comm]

theorem takeUnits_ascii {t : Text} (h : ∀ c ∈ t, c.toNat < 128) (count : Nat) :
    takeUnits count t = t.take count := by
  induction t generalizing count with
  | nil => simp [takeUnits]
  | cons c t ih =>
    have hc : c.toNat < 0x10000 := Nat.lt_trans (h c List.mem_cons_self) (by decide)
    have ht := ih fun d hd => h d (List.mem_cons_of_mem _ hd)
    cases count with
    | zero => simp [takeUnits, hc]
    | succ count => simp [takeUnits, hc, ht]

/-- A fact about ASCII characters, checked for each of them. -/
theorem all_ascii {P : Char → Bool} (h : ((List.range 128).all fun n => P (Char.ofNat n)) = true)
    {c : Char} (hc : c.toNat < 128) : P c = true := by
  have := List.all_eq_true.mp h c.toNat (List.mem_range.mpr hc)
  rwa [Char.ofNat_toNat] at this

theorem isAlnum_ascii {c : Char} (h : isAlnum c = true) : c.toNat < 128 := by
  simp only [isAlnum, isLowerAlnum, Bool.or_eq_true, Bool.and_eq_true, decide_eq_true_eq,
    Char.isDigit, Char.le_def, UInt32.le_iff_toNat_le, ge_iff_le] at h
  have hc : c.toNat = c.val.toNat := rfl
  rcases h with (⟨-, h⟩ | ⟨-, h⟩) | ⟨-, h⟩
  · have : c.val.toNat ≤ 57 := h
    omega
  · have : c.val.toNat ≤ 122 := h
    omega
  · have : c.val.toNat ≤ 90 := h
    omega

theorem isNameChar_ascii {c : Char} (h : isNameChar c = true) : c.toNat < 128 := by
  simp only [isNameChar, Bool.or_eq_true, beq_iff_eq] at h
  rcases h with (h | rfl) | rfl
  · exact isAlnum_ascii h
  · decide
  · decide

theorem isNameChar_of_isSummaryKeyChar {c : Char} (h : isSummaryKeyChar c = true) :
    isNameChar c = true := by
  simp only [isSummaryKeyChar, isNameChar, isAlnum, Bool.or_eq_true] at h ⊢
  rcases h with (h | h) | h <;> simp [h]

theorem isSummaryKeyChar_toLower {c : Char} (h : isNameChar c = true) :
    isSummaryKeyChar c.toLower = true := by
  have := all_ascii (P := fun c => !isNameChar c || isSummaryKeyChar c.toLower) (by decide)
    (isNameChar_ascii h)
  simpa [h] using this

/-! ### Normalized paths -/

/-- What the summary makes keys of: a lower-case letter and more characters of keys. -/
structure IsKeyText (t : Text) : Prop where
  letter : ∃ c cs, t = c :: cs ∧ 'a' ≤ c ∧ c ≤ 'z'
  chars : ∀ c ∈ t, isSummaryKeyChar c = true

namespace IsKeyText

variable {t : Text}

theorem ascii (h : IsKeyText t) : ∀ c ∈ t, c.toNat < 128 :=
  fun c hc => isNameChar_ascii (isNameChar_of_isSummaryKeyChar (h.chars c hc))

theorem isSummaryKey_iff (h : IsKeyText t) : isSummaryKey t = true ↔ textLength t ≤ 64 := by
  rw [textLength_ascii h.ascii]
  obtain ⟨c, cs, rfl, hfirst⟩ := h.letter
  have hchars : ∀ d ∈ cs, isSummaryKeyChar d = true :=
    fun d hd => h.chars d (List.mem_cons_of_mem _ hd)
  simp only [isSummaryKey, Bool.and_eq_true, decide_eq_true_eq, List.length_cons, hfirst,
    List.all_eq_true]
  constructor
  · rintro ⟨⟨-, hlength⟩, -⟩
    omega
  · intro hlength
    exact ⟨⟨⟨trivial, trivial⟩, by omega⟩, hchars⟩

end IsKeyText

theorem mem_underscoreRuns {p : Char → Bool} {inside : Bool} {t : Text} {c : Char}
    (h : c ∈ underscoreRuns p inside t) : c = '_' ∨ c ∈ t ∧ p c = false := by
  induction t generalizing inside with
  | nil => cases h
  | cons d t ih =>
    have hstep : c ∈ underscoreRuns p true t ∨ c ∈ underscoreRuns p false t →
        c = '_' ∨ c ∈ d :: t ∧ p c = false := by
      rintro (h | h)
      · exact (ih h).imp_right (And.imp_left (List.mem_cons_of_mem _))
      · exact (ih h).imp_right (And.imp_left (List.mem_cons_of_mem _))
    rw [underscoreRuns] at h
    split at h
    · split at h
      · exact hstep (Or.inl h)
      · rcases List.mem_cons.mp h with rfl | h
        · exact Or.inl rfl
        · exact hstep (Or.inl h)
    · rename_i hd
      rcases List.mem_cons.mp h with rfl | h
      · exact Or.inr ⟨List.mem_cons_self, by simpa using hd⟩
      · exact hstep (Or.inr h)

theorem isKeyText_normalizedPath (path : Text) : IsKeyText (normalizedPath path) := by
  have hchars : ∀ c ∈ (underscoreRuns (· == '-') false (underscoreRuns (fun c => !isNameChar c)
      false (snakeCase path))).map Char.toLower, isSummaryKeyChar c = true := by
    intro c hc
    obtain ⟨d, hd, rfl⟩ := List.mem_map.mp hc
    apply isSummaryKeyChar_toLower
    rcases mem_underscoreRuns hd with rfl | ⟨hd, -⟩
    · decide
    · rcases mem_underscoreRuns hd with rfl | ⟨-, hname⟩
      · decide
      · simpa using hname
  have hfield : ∀ t : Text, (∀ c ∈ t, isSummaryKeyChar c = true) →
      IsKeyText ("field_".toList ++ t) := by
    intro t ht
    refine ⟨⟨'f', "ield_".toList ++ t, rfl, by decide⟩, ?_⟩
    intro c hc
    rcases List.mem_append.mp hc with hc | hc
    · exact List.all_eq_true.mp (by decide : "field_".toList.all isSummaryKeyChar = true) c hc
    · exact ht c hc
  unfold normalizedPath
  simp only
  split
  · rename_i c rest hlowered
    split
    · rename_i hletter
      exact ⟨⟨c, rest, rfl, hletter⟩, fun d hd => hchars d (hlowered ▸ hd)⟩
    · exact hfield _ hchars
  · rename_i hlowered
    rw [← List.append_nil "field_".toList]
    exact hfield [] (by simp)

/-! ### Suffixed keys -/

theorem hexText_spec (count n : Nat) :
    (hexText count n).length = count ∧ ∀ c ∈ hexText count n, isSummaryKeyChar c = true := by
  have hdigit : ∀ digit < 16, isSummaryKeyChar (hexDigit digit) = true := by decide
  obtain ⟨hlength, hdigits⟩ := hexText_digits count n
  refine ⟨hlength, fun c hc => ?_⟩
  obtain ⟨digit, hlt, rfl⟩ := hdigits c hc
  exact hdigit digit hlt

variable {platform : StagingPlatform}

theorem attemptSuffix_spec (path : Text) (attempt : Nat) :
    (attemptSuffix platform path attempt).length = 12 ∧
      ∀ c ∈ attemptSuffix platform path attempt, isSummaryKeyChar c = true := by
  unfold attemptSuffix
  simp only [StagingPlatform.sha256Text, digestText]
  constructor
  · rw [List.length_take, (hexText_spec _ _).1]
    rfl
  · intro c hc
    exact (hexText_spec _ _).2 c (List.mem_of_mem_take hc)

theorem isKeyText_suffixedKey {normalized : Text} (h : IsKeyText normalized) (path : Text)
    (attempt : Nat) : IsKeyText (suffixedKey platform normalized path attempt) ∧
      textLength (suffixedKey platform normalized path attempt) ≤ 64 := by
  obtain ⟨hlength, hchars⟩ := @attemptSuffix_spec platform path attempt
  have hkey : IsKeyText (suffixedKey platform normalized path attempt) := by
    unfold suffixedKey
    rw [takeUnits_ascii h.ascii]
    obtain ⟨c, cs, rfl, hfirst⟩ := h.letter
    refine ⟨⟨c, cs.take 50 ++ '_' :: attemptSuffix platform path attempt, rfl, hfirst⟩, ?_⟩
    intro d hd
    rcases List.mem_append.mp hd with hd | hd
    · exact h.chars d (List.mem_of_mem_take hd)
    · rcases List.mem_cons.mp hd with rfl | hd
      · decide
      · exact hchars d hd
  refine ⟨hkey, ?_⟩
  rw [textLength_ascii hkey.ascii, suffixedKey, takeUnits_ascii h.ascii, List.length_append,
    List.length_cons, hlength, List.length_take]
  omega

/-! ### The search -/

/-- However many keys a frontmatter can have used, some attempt has another suffix. -/
def HasSuffixes (platform : StagingPlatform) : Prop :=
  ∀ (path : Text) (used : List Text), used.length < MAX_FIELDS →
    ∃ attempt, attemptSuffix platform path attempt ∉ used

theorem unusedKey_eq {used : List Text} {normalized path : Text} {attempt k fuel : Nat}
    (hused : ∀ j < k, suffixedKey platform normalized path (attempt + j) ∈ used)
    (hfresh : suffixedKey platform normalized path (attempt + k) ∉ used) (hfuel : k < fuel) :
    unusedKey platform used normalized path fuel attempt =
      some (suffixedKey platform normalized path (attempt + k)) := by
  induction k generalizing attempt fuel with
  | zero =>
    cases fuel with
    | zero => omega
    | succ fuel =>
      rw [Nat.add_zero] at hfresh
      simp only [unusedKey, if_neg hfresh, Nat.add_zero]
  | succ k ih =>
    cases fuel with
    | zero => omega
    | succ fuel =>
      have hmore : ∀ j, attempt + 1 + j = attempt + (j + 1) := fun j => by omega
      have hfirst : suffixedKey platform normalized path attempt ∈ used := hused 0 (by omega)
      simp only [unusedKey, if_pos hfirst]
      rw [← hmore k]
      refine ih ?_ (by rw [hmore]; exact hfresh) (by omega)
      intro j hj
      rw [hmore]
      exact hused (j + 1) (by omega)

theorem exists_unused (hsuffixes : HasSuffixes platform) {used : List Text}
    (hroom : used.length < MAX_FIELDS) (normalized path : Text) :
    ∃ attempt, suffixedKey platform normalized path attempt ∉ used := by
  -- What follows the common beginning in the keys that are in use.
  obtain ⟨attempt, hattempt⟩ := hsuffixes path
    (used.map fun key => key.drop ((takeUnits 51 normalized).length + 1)) (by simpa using hroom)
  refine ⟨attempt, fun hmem => hattempt (List.mem_map.mpr ⟨_, hmem, ?_⟩)⟩
  unfold suffixedKey
  rw [List.drop_append, List.drop_of_length_le (by omega), List.nil_append, Nat.add_sub_cancel_left,
    List.drop_succ_cons, List.drop_zero]

/-- Enough attempts find a key that is valid and not in use. -/
theorem summaryKey_total (hsuffixes : HasSuffixes platform) {used : List Text}
    (hroom : used.length < MAX_FIELDS) (path : Text) :
    ∃ key n, isSummaryKey key = true ∧ key ∉ used ∧
      ∀ fuel ≥ n, summaryKey platform fuel used path = some key := by
  have hnormalized := isKeyText_normalizedPath path
  unfold summaryKey
  simp only
  by_cases htaken : textLength (normalizedPath path) > 64 ∨ normalizedPath path ∈ used
  · have hex := exists_unused hsuffixes hroom (normalizedPath path) path
    have hfirst := Nat.find_spec hex
    obtain ⟨hkey, hlength⟩ := @isKeyText_suffixedKey platform _ hnormalized path (Nat.find hex)
    refine ⟨_, Nat.find hex + 1, hkey.isSummaryKey_iff.mpr hlength, hfirst, ?_⟩
    intro fuel hfuel
    rw [if_pos htaken]
    have hkeys : ∀ j, suffixedKey platform (normalizedPath path) path (0 + j) =
        suffixedKey platform (normalizedPath path) path j := fun j => by rw [Nat.zero_add]
    rw [← hkeys]
    refine unusedKey_eq ?_ ?_ (by omega)
    · intro j hj
      rw [hkeys]
      exact not_not.mp (Nat.find_min hex hj)
    · rw [hkeys]
      exact hfirst
  · rw [not_or, Nat.not_lt] at htaken
    refine ⟨normalizedPath path, 0, hnormalized.isSummaryKey_iff.mpr htaken.1, htaken.2, ?_⟩
    intro fuel _
    rw [if_neg]
    rw [not_or, Nat.not_lt]
    exact htaken

/-! ### A platform with suffixes -/

theorem hexText_add (a b n : Nat) : hexText (a + b) n = hexText a (n / 16 ^ b) ++ hexText b n := by
  induction b generalizing n with
  | zero => simp [hexText]
  | succ b ih =>
    rw [← Nat.add_assoc, hexText, ih, hexText, ← List.append_assoc, Nat.div_div_eq_div_mul,
      Nat.pow_succ, Nat.mul_comm 16]

theorem hexText_injOn {count n m : Nat} (h : hexText count n = hexText count m) :
    n % 16 ^ count = m % 16 ^ count := by
  induction count generalizing n m with
  | zero => simp [Nat.mod_one]
  | succ count ih =>
    rw [hexText, hexText] at h
    obtain ⟨hhigh, hlow⟩ := List.append_inj' h rfl
    have hdigit : n % 16 = m % 16 := by
      have := congrArg hexValue (List.head_eq_of_cons_eq hlow)
      rwa [hexValue_hexDigit (Nat.mod_lt _ (by decide)),
        hexValue_hexDigit (Nat.mod_lt _ (by decide)), Option.some.injEq] at this
    have hrest := ih hhigh
    rw [Nat.pow_succ, Nat.mul_comm, Nat.mod_mul, Nat.mod_mul, hdigit, hrest]

/-- A stand-in for the platform whose digests begin with the sizes of the texts. -/
def sizePlatform : StagingPlatform where
  sha256 bytes := bytes.size % 16 ^ 12 * 16 ^ 52
  localeLe t u := decide (t ≤ u)

theorem attemptSuffix_sizePlatform (path : Text) {attempt : Nat} (h : attempt ≠ 0) :
    attemptSuffix sizePlatform path attempt =
      hexText 12 ((encodeText (path ++ ':' :: Nat.toDigits 10 attempt)).size % 16 ^ 12) := by
  have hsplit := hexText_add 12 52
    ((encodeText (path ++ ':' :: Nat.toDigits 10 attempt)).size % 16 ^ 12 * 16 ^ 52)
  unfold attemptSuffix
  rw [if_neg h]
  simp only [StagingPlatform.sha256Text, sizePlatform, digestText]
  rw [hsplit, List.take_left' (hexText_spec _ _).1, Nat.mul_div_cancel _ (by decide)]

/-- The attempts whose numbers are powers of ten have texts of different sizes. -/
theorem hasSuffixes_sizePlatform : HasSuffixes sizePlatform := by
  intro path used hroom
  by_contra hall
  simp only [not_exists, not_not] at hall
  have hsize : ∀ k < 64, (encodeText (path ++ ':' :: Nat.toDigits 10 (10 ^ k))).size =
      utf8Length path + (k + 2) := by
    have hdigits : ∀ k < 64, utf8Length (':' :: Nat.toDigits 10 (10 ^ k)) = k + 2 := by
      decide
    intro k hk
    rw [size_encodeText, utf8Length_append, hdigits k hk]
  have hnodup : ((List.range 64).map fun k => attemptSuffix sizePlatform path (10 ^ k)).Nodup := by
    refine List.Nodup.map_on ?_ List.nodup_range
    intro j hj k hk heq
    rw [List.mem_range] at hj hk
    rw [attemptSuffix_sizePlatform path (by positivity), attemptSuffix_sizePlatform path (by positivity),
      hsize j hj, hsize k hk] at heq
    have := hexText_injOn heq
    omega
  have hsubset : ((List.range 64).map fun k => attemptSuffix sizePlatform path (10 ^ k)) ⊆ used := by
    intro suffix hmem
    obtain ⟨k, -, rfl⟩ := List.mem_map.mp hmem
    exact hall _
  have hlength := hnodup.length_le_of_subset hsubset
  rw [List.length_map, List.length_range] at hlength
  simp only [MAX_FIELDS] at hroom
  omega

/-! ### All fields -/

/-- What the fields of a summary are checked for. -/
structure ValidFields (fields : List FrontmatterField) : Prop where
  keys : ∀ field ∈ fields, isSummaryKey field.key = true
  distinct : (fields.map (·.key)).Nodup

theorem addSummaryFields_total (hsuffixes : HasSuffixes platform) (parsed : List ParsedField) :
    ∀ fields, ValidFields fields → fields.length + parsed.length ≤ MAX_FIELDS →
      ∃ result n, ValidFields result ∧ result.length = fields.length + parsed.length ∧
        ∀ fuel ≥ n, parsed.foldlM (addSummaryField platform fuel) fields = some result := by
  induction parsed with
  | nil =>
    intro fields hvalid _
    exact ⟨fields, 0, hvalid, rfl, fun _ _ => rfl⟩
  | cons field parsed ih =>
    intro fields hvalid hroom
    rw [List.length_cons] at hroom
    have hused : (fields.map (·.key)).length < MAX_FIELDS := by
      rw [List.length_map]
      omega
    obtain ⟨key, n, hkey, hfresh, hfuel⟩ := summaryKey_total hsuffixes hused field.path
    have hnext : ValidFields (fields ++ [{ key, valueType := field.valueType }]) := by
      constructor
      · intro f hf
        rcases List.mem_append.mp hf with hf | hf
        · exact hvalid.keys f hf
        · rw [List.mem_singleton.mp hf]
          exact hkey
      · rw [List.map_append, List.map_singleton, ← List.concat_eq_append]
        exact List.Nodup.concat hfresh hvalid.distinct
    obtain ⟨result, m, hresult, hlength, hrest⟩ := ih _ hnext (by
      rw [List.length_append, List.length_singleton]
      omega)
    refine ⟨result, max n m, hresult, ?_, ?_⟩
    · rw [hlength, List.length_append, List.length_singleton, List.length_cons]
      omega
    · intro fuel hmax
      rw [List.foldlM_cons, addSummaryField, hfuel fuel (by omega)]
      exact hrest fuel (by omega)

/-- Enough attempts summarize the fields of a frontmatter, and the summary is valid. -/
theorem summarize_total (hsuffixes : HasSuffixes platform) {fields : List ParsedField}
    (hroom : fields.length ≤ MAX_FIELDS) :
    ∃ summary n, frontmatterSummary summary = true ∧
      ∀ fuel ≥ n, summarize platform fuel fields = some summary := by
  have hsorted : (fields.mergeSort fun f g => platform.localeLe f.path g.path).length =
      fields.length := List.length_mergeSort fields
  obtain ⟨result, n, hvalid, hlength, hfuel⟩ := addSummaryFields_total hsuffixes
    (fields.mergeSort fun f g => platform.localeLe f.path g.path) []
    ⟨by simp, by simp⟩ (by rw [hsorted]; simpa using hroom)
  refine ⟨{ fieldCount := result.length, fields := result }, n, ?_, ?_⟩
  · have hsafe : isSafeInteger result.length = true := by
      rw [isSafeInteger, decide_eq_true_eq, hlength, hsorted, List.length_nil]
      simp only [MAX_FIELDS] at hroom
      omega
    simp only [frontmatterSummary, hsafe, beq_self_eq_true, Bool.true_and, Bool.and_eq_true,
      List.all_eq_true, decide_eq_true_eq]
    exact ⟨hvalid.keys, hvalid.distinct⟩
  · intro fuel hn
    rw [summarize, hfuel fuel hn]
    rfl

end MarkorbitKnowledge.Staging
