import Mathlib.Data.List.Infix

/-!
# Texts with placeholders

A text with placeholders is a list of letters and slots, and `fill` writes a word for each slot.
Replacing every occurrence of a pattern in a filled text is the same as making slots of the
occurrences first and filling them afterwards, provided that no occurrence of the pattern touches a
word; `Apart` is what makes it so.  The other results read the unfilled text off the filled one: its
letters, its beginning and end, and its segments.
-/

namespace Placeholders

/-! ### Replacement -/

section Replacement

variable {α : Type} [DecidableEq α]

/-- Replace the occurrences of a pattern from left to right; the first argument counts the letters
    still covered by the last occurrence. -/
def replaceFrom (pattern replacement : List α) : Nat → List α → List α
  | _, [] => []
  | covered + 1, _ :: rest => replaceFrom pattern replacement covered rest
  | 0, a :: rest =>
    if pattern <+: a :: rest then
      replacement ++ replaceFrom pattern replacement (pattern.length - 1) rest
    else a :: replaceFrom pattern replacement 0 rest

variable {pattern replacement : List α}

theorem replaceFrom_covered (covered : Nat) (text : List α) :
    replaceFrom pattern replacement covered text =
      replaceFrom pattern replacement 0 (text.drop covered) := by
  induction covered generalizing text with
  | zero => rfl
  | succ covered ih =>
    cases text with
    | nil => rfl
    | cons a rest => exact ih rest

theorem mem_replaceFrom {a : α} {text : List α} :
    ∀ {covered : Nat}, a ∈ replaceFrom pattern replacement covered text → a ∈ replacement ∨ a ∈ text := by
  induction text with
  | nil =>
    intro covered h
    rw [replaceFrom] at h
    cases h
  | cons b text ih =>
    intro covered h
    cases covered with
    | succ covered => exact (ih h).imp_right (List.mem_cons_of_mem b)
    | zero =>
      rw [replaceFrom] at h
      split at h
      · rcases List.mem_append.mp h with h | h
        · exact Or.inl h
        · exact (ih h).imp_right (List.mem_cons_of_mem b)
      · rcases List.mem_cons.mp h with rfl | h
        · exact Or.inr List.mem_cons_self
        · exact (ih h).imp_right (List.mem_cons_of_mem b)

/-- An occurrence is replaced as a whole. -/
theorem replaceFrom_occurrence (hne : pattern ≠ []) (rest : List α) :
    replaceFrom pattern replacement 0 (pattern ++ rest) =
      replacement ++ replaceFrom pattern replacement 0 rest := by
  cases pattern with
  | nil => exact absurd rfl hne
  | cons a tail =>
    have hprefix : a :: tail <+: a :: (tail ++ rest) := List.prefix_append (a :: tail) rest
    rw [List.cons_append, replaceFrom, if_pos hprefix, replaceFrom_covered]
    simp

/-- Letters the pattern does not begin with are kept. -/
theorem replaceFrom_append {text : List α} (htext : ∀ a ∈ text, pattern.head? ≠ some a)
    (hne : pattern ≠ []) (rest : List α) :
    replaceFrom pattern replacement 0 (text ++ rest) =
      text ++ replaceFrom pattern replacement 0 rest := by
  induction text with
  | nil => rfl
  | cons a text ih =>
    obtain ⟨ha, htext⟩ := List.forall_mem_cons.mp htext
    have hstart : ¬ pattern <+: a :: (text ++ rest) := by
      intro hprefix
      cases pattern with
      | nil => exact hne rfl
      | cons b tail => exact ha (congrArg some (List.cons_prefix_cons.mp hprefix).1)
    rw [List.cons_append, replaceFrom, if_neg hstart, ih htext, List.cons_append]

end Replacement

/-! ### Slots -/

variable {α σ : Type}

inductive Piece (α σ : Type) where
  | letter (a : α)
  | slot (s : σ)
deriving DecidableEq

/-- The text as pieces, without slots. -/
def letters (text : List α) : List (Piece α σ) := text.map Piece.letter

def Piece.text (word : σ → List α) : Piece α σ → List α
  | .letter a => [a]
  | .slot s => word s

/-- Write a word for each slot. -/
def fill (word : σ → List α) (pieces : List (Piece α σ)) : List α :=
  pieces.flatMap (Piece.text word)

variable {word : σ → List α} {pieces : List (Piece α σ)} {pattern : List α}

@[simp] theorem fill_nil : fill word [] = [] := rfl

@[simp] theorem fill_letter (a : α) (pieces : List (Piece α σ)) :
    fill word (.letter a :: pieces) = a :: fill word pieces := rfl

@[simp] theorem fill_slot (s : σ) (pieces : List (Piece α σ)) :
    fill word (.slot s :: pieces) = word s ++ fill word pieces := rfl

@[simp] theorem fill_append (pieces rest : List (Piece α σ)) :
    fill word (pieces ++ rest) = fill word pieces ++ fill word rest := List.flatMap_append

@[simp] theorem fill_letters (text : List α) : fill word (letters text) = text := by
  induction text with
  | nil => rfl
  | cons a text ih => exact congrArg (a :: ·) ih

theorem mem_fill {a : α} (ha : ∀ s, a ∉ word s) : a ∈ fill word pieces ↔ .letter a ∈ pieces := by
  induction pieces with
  | nil => simp
  | cons piece pieces ih =>
    cases piece with
    | letter b => simp [ih]
    | slot s => simp [ih, ha s]

theorem forall_mem_fill {P : α → Prop} (hword : ∀ s, ∀ a ∈ word s, P a) :
    (∀ a ∈ fill word pieces, P a) ↔ ∀ a, .letter a ∈ pieces → P a := by
  induction pieces with
  | nil => simp
  | cons piece pieces ih =>
    cases piece with
    | letter b => simp [ih]
    | slot s =>
      rw [fill_slot, List.forall_mem_append, ih, and_iff_right (hword s)]
      simp

/-- Every word has a letter outside the pattern, and none ends it or begins it, so no occurrence of
    the pattern reaches into a word. -/
structure Apart (pattern : List α) (word : σ → List α) : Prop where
  first : ∀ s, ∀ a ∈ pattern.head?, a ∉ word s
  last : ∀ s, ∀ a ∈ pattern.getLast?, a ∉ word s
  other : ∀ s, ∃ a ∈ word s, a ∉ pattern

/-- A filled text begins with the pattern where the unfilled one does. -/
theorem prefix_fill_iff (hlast : ∀ s, ∀ a ∈ pattern.getLast?, a ∉ word s)
    (hother : ∀ s, ∃ a ∈ word s, a ∉ pattern) :
    pattern <+: fill word pieces ↔ letters pattern <+: pieces := by
  induction pattern generalizing pieces with
  | nil => simp [letters]
  | cons a pattern ih =>
    cases pieces with
    | nil => simp [letters]
    | cons piece pieces =>
      cases piece with
      | letter b =>
        have hlast' : ∀ s, ∀ a ∈ pattern.getLast?, a ∉ word s := by
          intro s c hc
          refine hlast s c ?_
          cases pattern with
          | nil => cases hc
          | cons d pattern => rwa [List.getLast?_cons_cons]
        have hother' : ∀ s, ∃ a ∈ word s, a ∉ pattern := by
          intro s
          obtain ⟨c, hc, hnot⟩ := hother s
          exact ⟨c, hc, fun hmem => hnot (List.mem_cons_of_mem a hmem)⟩
        rw [fill_letter, List.cons_prefix_cons, ih hlast' hother']
        simp [letters, List.cons_prefix_cons]
      | slot s =>
        rw [fill_slot]
        constructor
        · intro h
          rcases List.prefix_or_prefix_of_prefix h (List.prefix_append _ _) with hin | hin
          · obtain ⟨c, hc⟩ := Option.isSome_iff_exists.mp
              (List.getLast?_isSome.mpr (List.cons_ne_nil a pattern))
            exact absurd (hin.subset (List.mem_of_getLast? hc)) (hlast s c hc)
          · obtain ⟨c, hc, hnot⟩ := hother s
            exact absurd (hin.subset hc) hnot
        · intro h
          simp [letters, List.cons_prefix_cons] at h

theorem reverse_fill (word : σ → List α) (pieces : List (Piece α σ)) :
    (fill word pieces).reverse = fill (fun s => (word s).reverse) pieces.reverse := by
  induction pieces with
  | nil => rfl
  | cons piece pieces ih =>
    cases piece with
    | letter a => simp [ih]
    | slot s => simp [ih]

/-- A filled text ends with the pattern where the unfilled one does. -/
theorem suffix_fill_iff (hfirst : ∀ s, ∀ a ∈ pattern.head?, a ∉ word s)
    (hother : ∀ s, ∃ a ∈ word s, a ∉ pattern) :
    pattern <:+ fill word pieces ↔ letters pattern <:+ pieces := by
  have hreverse := @prefix_fill_iff α σ (fun s => (word s).reverse) pieces.reverse pattern.reverse
    (by simpa using hfirst) (by simpa using hother)
  rw [← reverse_fill, List.reverse_prefix] at hreverse
  rw [hreverse, letters, List.map_reverse, List.reverse_prefix]
  rfl

/-- A filled text is a text without placeholders where the unfilled one is that text. -/
theorem fill_eq_iff {text : List α} (hother : ∀ s, ∃ a ∈ word s, a ∉ text) :
    fill word pieces = text ↔ pieces = letters text := by
  constructor
  · intro h
    induction pieces generalizing text with
    | nil =>
      rw [← h]
      rfl
    | cons piece pieces ih =>
      cases piece with
      | letter a =>
        cases text with
        | nil => cases h
        | cons b text =>
          rw [fill_letter, List.cons.injEq] at h
          obtain ⟨rfl, h⟩ := h
          have hrest : ∀ s, ∃ c ∈ word s, c ∉ text := by
            intro s
            obtain ⟨c, hc, hnot⟩ := hother s
            exact ⟨c, hc, fun hmem => hnot (List.mem_cons_of_mem a hmem)⟩
          rw [ih hrest h]
          rfl
      | slot s =>
        obtain ⟨c, hc, hnot⟩ := hother s
        rw [fill_slot] at h
        exact absurd (h ▸ List.mem_append_left _ hc) hnot
  · rintro rfl
    exact fill_letters text

/-! ### Filling and replacing -/

section Replacing

variable [DecidableEq α] [DecidableEq σ]

/-- The occurrences of the pattern may be made slots before the text is filled. -/
theorem replaceFrom_fill (hapart : Apart pattern word) (hne : pattern ≠ []) (s : σ)
    (pieces : List (Piece α σ)) :
    replaceFrom pattern (word s) 0 (fill word pieces) =
      fill word (replaceFrom (letters pattern) [.slot s] 0 pieces) := by
  have hne' : (letters pattern : List (Piece α σ)) ≠ [] := by simpa [letters] using hne
  -- The induction is on the pieces left, since an occurrence takes several of them.
  induction hlength : pieces.length using Nat.strong_induction_on generalizing pieces with
  | _ length ih =>
    cases pieces with
    | nil => rfl
    | cons piece pieces =>
      by_cases hprefix : letters pattern <+: piece :: pieces
      · obtain ⟨rest, hrest⟩ := hprefix
        have hshorter : rest.length < length := by
          have hsum := congrArg List.length hrest
          have hpositive := List.length_pos_iff.mpr hne'
          rw [List.length_append] at hsum
          omega
        rw [← hrest, fill_append, fill_letters, replaceFrom_occurrence hne, replaceFrom_occurrence hne',
          ih _ hshorter rest rfl]
        rfl
      · have hshorter : pieces.length < length := by
          rw [← hlength]
          exact Nat.lt_succ_self _
        have hpieces := ih _ hshorter pieces rfl
        rw [replaceFrom, if_neg hprefix]
        cases piece with
        | letter a =>
          have hstart : ¬ pattern <+: a :: fill word pieces := by
            rw [← fill_letter, prefix_fill_iff hapart.last hapart.other]
            exact hprefix
          rw [fill_letter, fill_letter, replaceFrom, if_neg hstart, hpieces]
        | slot t =>
          have hword : ∀ a ∈ word t, pattern.head? ≠ some a :=
            fun a ha hhead => hapart.first t a hhead ha
          rw [fill_slot, fill_slot, replaceFrom_append hword hne, hpieces]

end Replacing

/-! ### Segments -/

/-- A word without the separator lies on one side of it. -/
theorem infix_append_cons_iff {word left right : List α} {separator : α} (h : separator ∉ word) :
    word <:+: left ++ separator :: right ↔ word <:+: left ∨ word <:+: right := by
  constructor
  · rintro ⟨before, after, heq⟩
    rw [List.append_assoc] at heq
    rcases List.append_eq_append_iff.mp heq with ⟨rest, rfl, hrest⟩ | ⟨rest, rfl, hrest⟩
    · -- the word starts to the left of the separator
      rcases List.append_eq_append_iff.mp hrest with ⟨after', rfl, -⟩ | ⟨beyond, rfl, hbeyond⟩
      · exact Or.inl (List.infix_append' before word after')
      · cases beyond with
        | nil =>
          rw [List.append_nil]
          exact Or.inl List.infix_append_right
        | cons a beyond =>
          obtain rfl := (List.cons.inj hbeyond).1
          exact absurd (List.mem_append_right rest List.mem_cons_self) h
    · cases rest with
      | nil =>
        cases word with
        | nil => exact Or.inl (List.nil_infix)
        | cons a word =>
          obtain rfl := (List.cons.inj hrest).1
          exact absurd List.mem_cons_self h
      | cons a rest =>
        obtain ⟨-, rfl⟩ := List.cons.inj hrest
        exact Or.inr (List.infix_append' rest word after)
  · rintro (hleft | hright)
    · exact List.infix_append_of_infix_left hleft
    · exact List.infix_append_of_infix_right (List.infix_cons hright)

section Segments

variable [DecidableEq α] [DecidableEq σ] {separator : α}

/-- The segments of a text with placeholders between its separators. -/
def segments (separator : α) (pieces : List (Piece α σ)) : List (List (Piece α σ)) :=
  pieces.splitOnP fun piece => decide (piece = .letter separator)

theorem segments_ne_nil (separator : α) (pieces : List (Piece α σ)) : segments separator pieces ≠ [] :=
  List.splitOnP_ne_nil _ pieces

theorem segments_cons (piece : Piece α σ) (pieces : List (Piece α σ)) :
    segments separator (piece :: pieces) =
      if piece = .letter separator then [] :: segments separator pieces
      else (segments separator pieces).modifyHead (piece :: ·) := by
  rw [segments, List.splitOnP_cons_eq_if_modifyHead]
  simp only [decide_eq_true_eq]
  rfl

theorem splitOn_append {text : List α} (htext : separator ∉ text) (rest : List α) :
    (text ++ rest).splitOn separator = (rest.splitOn separator).modifyHead (text ++ ·) := by
  induction text with
  | nil =>
    obtain ⟨head, tail, hsplit⟩ := List.exists_cons_of_ne_nil (List.splitOn_ne_nil separator rest)
    simp [hsplit]
  | cons a text ih =>
    rw [List.mem_cons, not_or] at htext
    obtain ⟨hne, htext⟩ := htext
    obtain ⟨head, tail, hsplit⟩ := List.exists_cons_of_ne_nil (List.splitOn_ne_nil separator rest)
    rw [List.cons_append, List.splitOn_cons_eq_if_modifyHead, ih htext, hsplit]
    simp [Ne.symm hne]

/-- The segments of a filled text are the filled segments. -/
theorem splitOn_fill (hseparator : ∀ s, separator ∉ word s) (pieces : List (Piece α σ)) :
    (fill word pieces).splitOn separator = (segments separator pieces).map (fill word) := by
  induction pieces with
  | nil => rfl
  | cons piece pieces ih =>
    obtain ⟨head, tail, hsplit⟩ := List.exists_cons_of_ne_nil (segments_ne_nil separator pieces)
    cases piece with
    | letter a =>
      rw [fill_letter, List.splitOn_cons_eq_if_modifyHead, ih, segments_cons]
      by_cases ha : a = separator
      · simp [ha]
      · simp [ha, hsplit]
    | slot s =>
      rw [fill_slot, splitOn_append (hseparator s), ih, segments_cons]
      simp [hsplit]

/-- A text that ends without a separator ends its last segment so. -/
theorem segments_append (text : List (Piece α σ)) {ending : List (Piece α σ)}
    (hending : .letter separator ∉ ending) :
    ∃ earlier last, segments separator (text ++ ending) = earlier ++ [last ++ ending] := by
  induction text with
  | nil =>
    refine ⟨[], [], ?_⟩
    have hplain : ∀ piece ∈ ending, decide (piece = Piece.letter separator) = false := by
      intro piece hpiece
      exact decide_eq_false fun heq => hending (heq ▸ hpiece)
    exact List.splitOnP_eq_singleton hplain
  | cons piece text ih =>
    obtain ⟨earlier, last, hsplit⟩ := ih
    rw [List.cons_append, segments_cons, hsplit]
    by_cases hpiece : piece = .letter separator
    · exact ⟨[] :: earlier, last, by simp [hpiece]⟩
    · cases earlier with
      | nil => exact ⟨[], piece :: last, by simp [hpiece]⟩
      | cons first earlier => exact ⟨(piece :: first) :: earlier, last, by simp [hpiece]⟩

end Segments

end Placeholders
