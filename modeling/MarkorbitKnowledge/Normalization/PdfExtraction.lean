import MarkorbitKnowledge.Normalization.PdfSyntax

/-!
# What the patterns extract

Where a stream is written plainly, the patterns take it apart as PDF does, and `extractPdfTextOperators`
returns the strings that it shows.
-/

namespace MarkorbitKnowledge.Normalization

open Contracts Matching

/-- A quantifier over the characters of a text is decided along the text, not over all characters. -/
local instance (priority := 2000) decidablePdfText {p : Char → Prop} [DecidablePred p] (t : Text) :
    Decidable (∀ c ∈ t, p c) :=
  List.decidableBAll p t

local instance (priority := 2000) decidablePdfHead {p : Char → Prop} [DecidablePred p]
    (o : Option Char) : Decidable (∀ c ∈ o, p c) :=
  Option.decidableForallMem o

/-! ### Characters -/

theorem isJsSpace_of_isPdfSpace {c : Char} (h : isPdfSpace c = true) (hnull : c ≠ '\x00') :
    isJsSpace c = true := by
  simp only [isPdfSpace, List.mem_cons, List.not_mem_nil, or_false, decide_eq_true_eq] at h
  rcases h with rfl | rfl | rfl | rfl | rfl | rfl
  · exact absurd rfl hnull
  all_goals decide

theorem isJsSpace_of_isHexDigit {c : Char} (h : isHexDigit c = true) : isJsSpace c = false := by
  refine isJsSpace_of_isAlnum ?_
  simp only [isHexDigit, isAlnum, isLowerAlnum, Bool.or_eq_true, Bool.and_eq_true,
    decide_eq_true_eq] at h ⊢
  rcases h with (hdigit | ⟨hlow, hhigh⟩) | ⟨hlow, hhigh⟩
  · exact Or.inl (Or.inl hdigit)
  · exact Or.inr ⟨hlow, le_trans hhigh (by decide)⟩
  · exact Or.inl (Or.inr ⟨hlow, le_trans hhigh (by decide)⟩)

/-- White space has no character in common with what is written around it. -/
theorem not_isPdfSpace {c : Char} (h : isPdfSpace c = true) :
    isHexDigit c = false ∧ isDelimiter c = false ∧ c ≠ 'T' ∧ c ≠ '\'' ∧ c ≠ '"' := by
  simp only [isPdfSpace, List.mem_cons, List.not_mem_nil, or_false, decide_eq_true_eq] at h
  rcases h with rfl | rfl | rfl | rfl | rfl | rfl
  all_goals decide

theorem not_isDelimiter_of_isHexDigit {c : Char} (h : isHexDigit c = true) :
    isDelimiter c = false := by
  rw [Bool.eq_false_iff]
  intro hdelimiter
  simp only [isDelimiter, List.mem_cons, List.not_mem_nil, or_false, decide_eq_true_eq] at hdelimiter
  rcases hdelimiter with rfl | rfl | rfl | rfl | rfl | rfl | rfl | rfl | rfl
  all_goals exact absurd h (by decide)

/-! ### Keywords -/

variable {space rest : Text}

theorem dropWhile_space {text : Text} (hspace : ∀ c ∈ space, isJsSpace c = true)
    (htext : ∀ c ∈ text.head?, isJsSpace c = false) :
    (space ++ text).dropWhile isJsSpace = text := by
  rw [List.dropWhile_append_of_pos hspace]
  cases text with
  | nil => rfl
  | cons c text => rw [List.dropWhile_cons_of_neg (by simpa using htext c rfl)]

theorem keyword_append {name : Text} (hspace : ∀ c ∈ space, isJsSpace c = true)
    (hname : ∀ c ∈ name.head?, isJsSpace c = false) (hne : name ≠ []) :
    keyword name (space ++ (name ++ rest)) = some rest := by
  have hdrop : (space ++ (name ++ rest)).dropWhile isJsSpace = name ++ rest := by
    refine dropWhile_space hspace ?_
    cases name with
    | nil => exact absurd rfl hne
    | cons c name => simpa using hname
  rw [keyword, hdrop, if_pos (List.prefix_append _ _), List.drop_left']
  rfl

theorem keyword_none {name : Text} {c : Char} (hspace : ∀ c ∈ space, isJsSpace c = true)
    (hc : isJsSpace c = false) (hname : name.head? ≠ some c) (hne : name ≠ []) :
    keyword name (space ++ c :: rest) = none := by
  have hdrop : (space ++ c :: rest).dropWhile isJsSpace = c :: rest := by
    refine dropWhile_space hspace ?_
    simpa using hc
  rw [keyword, hdrop, if_neg]
  intro hbegins
  cases name with
  | nil => exact hne rfl
  | cons d name => exact hname (by rw [(List.cons_prefix_cons.mp hbegins).1]; rfl)

theorem dropWhile_stop {p : Char → Bool} {c : Char} (hc : p c = false) (text more : Text) :
    (text ++ c :: more).dropWhile p = text.dropWhile p ++ c :: more := by
  induction text with
  | nil => simp [hc]
  | cons d text ih =>
    by_cases hd : p d = true
    · simpa [hd] using ih
    · simp [hd]

theorem prefix_stop {c : Char} {name : Text} (hname : c ∉ name) (text more : Text) :
    name <+: text ++ c :: more ↔ name <+: text := by
  constructor
  · rintro ⟨t, ht⟩
    rcases List.append_eq_append_iff.mp ht with ⟨between, hbetween, -⟩ | ⟨between, hbetween, hrest⟩
    · exact ⟨between, hbetween.symm⟩
    · cases between with
      | nil => exact ⟨[], by rw [hbetween, List.append_nil, List.append_nil]⟩
      | cons d between =>
        have hd : c = d := (List.cons.inj hrest).1
        refine absurd ?_ hname
        rw [hbetween, hd]
        exact List.mem_append_right _ List.mem_cons_self
  · intro h
    exact h.trans (List.prefix_append _ _)

/-- A keyword that is not found before a delimiter is not found with more text behind it. -/
theorem keyword_extend {name text : Text} {c : Char} (hc : isJsSpace c = false) (hname : c ∉ name)
    (h : keyword name (text ++ [c]) = none) : keyword name (text ++ c :: rest) = none := by
  have hfound : ∀ more, keyword name (text ++ c :: more) = none ↔
      ¬name <+: text.dropWhile isJsSpace := by
    intro more
    have hbegins := prefix_stop hname (text.dropWhile isJsSpace) more
    rw [keyword, dropWhile_stop hc, ite_eq_right_iff]
    constructor
    · intro h hfound
      cases h (hbegins.mpr hfound)
    · intro h hfound
      exact absurd (hbegins.mp hfound) h
  rw [hfound] at h ⊢
  exact h

theorem showRest_tj (hspace : ∀ c ∈ space, isJsSpace c = true) :
    showRest (space ++ (['T', 'j'] ++ rest)) = some rest := by
  rw [showRest, keyword_append hspace (by decide) (by decide)]
  rfl

theorem showRest_quote (hspace : ∀ c ∈ space, isJsSpace c = true) :
    showRest (space ++ (['\''] ++ rest)) = some rest := by
  have htj : keyword ['T', 'j'] (space ++ (['\''] ++ rest)) = none :=
    keyword_none hspace (by decide) (by decide) (by decide)
  rw [showRest, htj, keyword_append hspace (by decide) (by decide)]
  rfl

/-! ### Literals -/

theorem literalRest_cons {c : Char} (hclose : c ≠ ')') (hslash : c ≠ '\\') (text : Text) :
    literalRest (c :: text) = literalRest text := by
  rw [literalRest, literalRestFrom, if_neg hclose, decide_eq_false hslash]
  rfl

theorem literalRest_escaped {c : Char} (hline : isLineTerminator c = false) (text : Text) :
    literalRest ('\\' :: c :: text) = literalRest text := by
  rw [literalRest, literalRestFrom, if_neg (by decide), decide_eq_true rfl, literalRestFrom, hline]
  rfl

theorem not_isLineTerminator {c : Char} (hbyte : c.toNat < 256) (hlf : c ≠ '\n') (hcr : c ≠ '\r') :
    isLineTerminator c = false := by
  simp only [isLineTerminator, hlf, hcr, decide_false, Bool.false_or, Bool.or_eq_false_iff,
    decide_eq_false_iff_not]
  omega

theorem isOctal_iff {c : Char} : isOctal c = true ↔ 48 ≤ c.toNat ∧ c.toNat ≤ 55 := by
  simp only [isOctal, Bool.and_eq_true, decide_eq_true_eq]
  rfl

theorem not_isOctal {c : Char} (h : isOctal c = true) :
    c ≠ ')' ∧ c ≠ '\\' ∧ isLineTerminator c = false := by
  have hrange := isOctal_iff.mp h
  have hne : ∀ d : Char, isOctal d = false → c ≠ d := by
    intro d hd hcd
    rw [hcd, hd] at h
    cases h
  refine ⟨hne _ (by decide), hne _ (by decide), ?_⟩
  exact not_isLineTerminator (by omega) (hne _ (by decide)) (hne _ (by decide))

theorem literalRest_digits {digits : Text} (h : ∀ d ∈ digits, isOctal d = true) (text : Text) :
    literalRest (digits ++ text) = literalRest text := by
  induction digits with
  | nil => rfl
  | cons d digits ih =>
    obtain ⟨hclose, hslash, -⟩ := not_isOctal (h d List.mem_cons_self)
    rw [List.cons_append, literalRest_cons hclose hslash]
    exact ih fun e he => h e (List.mem_cons_of_mem _ he)

/-- A plain piece has no parenthesis that ends the literal, and no backslash at the end of a line. -/
theorem literalRest_piece {piece : Piece} (hallowed : piece.Allowed) (hplain : piece.Plain)
    (text : Text) : literalRest (piece.write ++ text) = literalRest text := by
  cases piece with
  | char c => exact literalRest_cons hplain.2 hallowed.2.1 text
  | escaped c =>
    obtain ⟨hbyte, -, hlf, hcr⟩ := hallowed
    exact literalRest_escaped (not_isLineTerminator hbyte hlf hcr) text
  | octal digits =>
    obtain ⟨hne, -, hdigits⟩ := hallowed
    have hdigits := List.all_eq_true.mp hdigits
    cases digits with
    | nil => exact absurd rfl hne
    | cons d digits =>
      rw [Piece.write, List.cons_append, List.cons_append,
        literalRest_escaped (not_isOctal (hdigits d List.mem_cons_self)).2.2]
      exact literalRest_digits (fun e he => hdigits e (List.mem_cons_of_mem _ he)) text
  | continued ending => exact absurd hplain id
  | lineEnd ending =>
    rw [show ending = .lf from hplain]
    exact literalRest_cons (by decide) (by decide) text

theorem Spelled.allowed {pieces : List Piece} (h : Spelled pieces) :
    ∀ piece ∈ pieces, piece.Allowed := by
  induction pieces with
  | nil => exact fun _ hpiece => absurd hpiece List.not_mem_nil
  | cons first pieces ih =>
    intro piece hpiece
    rcases List.mem_cons.mp hpiece with rfl | hpiece
    · exact h.1
    · exact ih h.2.2 piece hpiece

theorem writePieces_cons (piece : Piece) (pieces : List Piece) :
    writePieces (piece :: pieces) = piece.write ++ writePieces pieces := List.flatMap_cons

/-- A plain literal ends at its closing parenthesis. -/
theorem literalRest_write {pieces : List Piece} (hallowed : ∀ piece ∈ pieces, piece.Allowed)
    (hplain : ∀ piece ∈ pieces, piece.Plain) (text : Text) :
    literalRest (writePieces pieces ++ ')' :: text) = some text := by
  induction pieces with
  | nil => rfl
  | cons piece pieces ih =>
    rw [writePieces_cons, List.append_assoc,
      literalRest_piece (hallowed piece List.mem_cons_self) (hplain piece List.mem_cons_self)]
    exact ih (fun other h => hallowed other (List.mem_cons_of_mem _ h))
      fun other h => hplain other (List.mem_cons_of_mem _ h)

/-! ### The value of a literal -/

theorem decodeFrom_append (skipped text : Text) :
    decodeFrom skipped.length (skipped ++ text) = decodePdfLiteral text := by
  induction skipped with
  | nil => rfl
  | cons c skipped ih => exact ih

theorem decode_char {c : Char} (hslash : c ≠ '\\') (text : Text) :
    decodePdfLiteral (c :: text) = unit c :: decodePdfLiteral text := by
  rw [decodePdfLiteral, decodeFrom, if_pos hslash]
  rfl

theorem decode_escaped {c : Char} (hoctal : isOctal c = false) (hlf : c ≠ '\n') (hcr : c ≠ '\r')
    (text : Text) : decodePdfLiteral ('\\' :: c :: text) = escape c :: decodePdfLiteral text := by
  have hsequence : escapeSequence (c :: text) = ([escape c], 1) := by
    rw [escapeSequence, hoctal, if_neg (by decide), if_neg hlf, if_neg hcr]
  rw [decodePdfLiteral, decodeFrom, if_neg (by decide), hsequence]
  rfl

/-- An octal code of up to three digits that no further digit follows. -/
theorem decode_octal {digits text : Text} (hne : digits ≠ []) (hlength : digits.length ≤ 3)
    (hdigits : ∀ d ∈ digits, isOctal d = true)
    (hends : digits.length < 3 → ∀ c ∈ text.head?, isOctal c = false) :
    decodePdfLiteral ('\\' :: (digits ++ text)) =
      UInt16.ofNat (parseOctal digits) :: decodePdfLiteral text := by
  have hoctal : ((digits ++ text).take 3).takeWhile isOctal = digits := by
    rw [List.take_append, List.take_of_length_le hlength, List.takeWhile_append_of_pos hdigits]
    by_cases hfull : digits.length < 3
    · cases text with
      | nil => simp
      | cons c text =>
        obtain ⟨n, hn⟩ : ∃ n, 3 - digits.length = n + 1 := ⟨2 - digits.length, by omega⟩
        have hc : isOctal c = false := hends hfull c rfl
        simp [hn, hc]
    · have hzero : 3 - digits.length = 0 := by omega
      simp [hzero]
  cases digits with
  | nil => exact absurd rfl hne
  | cons d digits =>
    have hsequence : escapeSequence (d :: digits ++ text) =
        ([UInt16.ofNat (parseOctal (d :: digits))], (d :: digits).length) := by
      rw [List.cons_append] at hoctal ⊢
      rw [escapeSequence, hdigits d List.mem_cons_self, if_pos rfl, hoctal]
    rw [decodePdfLiteral, decodeFrom, if_neg (by decide), hsequence, decodeFrom_append]
    rfl

theorem bytesText_plain {bytes : List Nat} (h : ¬[0xFE, 0xFF] <+: bytes) :
    bytesText bytes = bytes.map UInt16.ofNat := by
  rw [bytesText, if_neg h]

/-- A plain piece is decoded to its bytes. -/
theorem decode_piece {piece : Piece} {text : Text} (hallowed : piece.Allowed)
    (hends : piece.EndsBefore text) (hplain : piece.Plain) :
    decodePdfLiteral (piece.write ++ text) =
      piece.bytes.map UInt16.ofNat ++ decodePdfLiteral text := by
  cases piece with
  | char c => exact decode_char hallowed.2.1 text
  | escaped c =>
    obtain ⟨-, hoctal, hlf, hcr⟩ := hallowed
    rw [Piece.write, List.cons_append, List.cons_append, List.nil_append,
      decode_escaped hoctal hlf hcr]
    simp only [escape, Piece.bytes]
    split_ifs <;> simp_all [unit]
  | octal digits =>
    obtain ⟨hne, hlength, hdigits⟩ := hallowed
    rw [Piece.write, List.cons_append,
      decode_octal hne hlength (List.all_eq_true.mp hdigits) hends, Piece.bytes,
      Nat.mod_eq_of_lt hplain]
    rfl
  | continued ending => exact absurd hplain id
  | lineEnd ending =>
    rw [show ending = .lf from hplain]
    exact decode_char (by decide) text

theorem decode_write {pieces : List Piece} (h : Spelled pieces)
    (hplain : ∀ piece ∈ pieces, piece.Plain) :
    decodePdfLiteral (writePieces pieces) = (pieces.flatMap Piece.bytes).map UInt16.ofNat := by
  induction pieces with
  | nil => rfl
  | cons piece pieces ih =>
    rw [writePieces_cons, decode_piece h.1 h.2.1 (hplain piece List.mem_cons_self),
      List.flatMap_cons, List.map_append]
    exact congrArg _ (ih h.2.2 fun other hother => hplain other (List.mem_cons_of_mem _ hother))

/-! ### Hexadecimal strings -/

theorem hexRest_write {h : Hex} (hplain : '\x00' ∉ h.text) (hne : h.text ≠ []) (rest : Text) :
    hexRest (h.text ++ '>' :: rest) = some rest := by
  have hclass : ∀ c ∈ h.text, (isHexDigit c || isJsSpace c) = true := by
    intro c hc
    rcases h.written c hc with hdigit | hspace
    · rw [hdigit, Bool.true_or]
    · rw [isJsSpace_of_isPdfSpace hspace fun hnull => hplain (hnull ▸ hc), Bool.or_true]
  have hhead : (h.text ++ '>' :: rest).head?.any (fun c => isHexDigit c || isJsSpace c) = true := by
    cases htext : h.text with
    | nil => exact absurd htext hne
    | cons c text =>
      rw [htext] at hclass
      exact hclass c List.mem_cons_self
  rw [hexRest, hhead, if_pos rfl, List.dropWhile_append_of_pos hclass,
    List.dropWhile_cons_of_neg (by decide)]
  rfl

theorem decodeHex_write {h : Hex} (hplain : '\x00' ∉ h.text) :
    decodePdfHex h.text = (PdfString.hex h).decoded := by
  have hcompact : h.text.filter (fun c => !isJsSpace c) = h.text.filter isHexDigit := by
    refine List.filter_congr fun c hc => ?_
    rcases h.written c hc with hdigit | hspace
    · rw [hdigit, isJsSpace_of_isHexDigit hdigit]
      rfl
    · rw [(not_isPdfSpace hspace).1, isJsSpace_of_isPdfSpace hspace fun hnull => hplain (hnull ▸ hc)]
      rfl
  have hdigits : (h.text.filter isHexDigit).all isHexDigit = true :=
    List.all_eq_true.mpr fun c hc => (List.mem_filter.mp hc).2
  simp only [decodePdfHex, hcompact, hdigits, if_true]
  rfl

/-! ### Strings in an array -/

theorem inside_wrapped (a b : Char) (text : Text) : inside (a :: (text ++ [b])) = text := by
  rw [inside, List.drop_one, List.tail_cons, List.dropLast_concat]

theorem decodeLiteral_write {l : Literal} (hplain : (PdfString.literal l).Plain) :
    decodePdfLiteral (writePieces l.pieces) = (PdfString.literal l).decoded := by
  rw [decode_write l.spelled hplain.1]
  exact (bytesText_plain hplain.2).symm

theorem write_ne_nil (s : PdfString) : s.write ≠ [] := by
  cases s with
  | literal l => exact List.cons_ne_nil _ _
  | hex h => exact List.cons_ne_nil _ _

/-- The pattern for strings finds a plain string, unless that is empty. -/
theorem strings_write {s : PdfString} (hplain : s.Plain) (rest : Text) :
    (allMatches stringPattern (s.write ++ rest)).flatMap decodeItem =
      s.decoded ++ (allMatches stringPattern rest).flatMap decodeItem := by
  cases s with
  | literal l =>
    have hmatch : stringPattern ((PdfString.literal l).write ++ rest) = some rest := by
      have hrest := literalRest_write l.spelled.allowed hplain.1 rest
      simpa [PdfString.write, stringPattern] using hrest
    have hitem : decodeItem (PdfString.literal l).write = (PdfString.literal l).decoded := by
      rw [decodeItem, PdfString.write, inside_wrapped, decodeLiteral_write hplain]
      rfl
    rw [allMatches_append (write_ne_nil _) hmatch, List.flatMap_cons, hitem]
  | hex h =>
    by_cases hempty : h.text = []
    · have hdecoded : (PdfString.hex h).decoded = [] := by
        rw [← decodeHex_write hplain, hempty]
        rfl
      rw [hdecoded, PdfString.write, hempty, List.nil_append, List.cons_append,
        List.singleton_append, allMatches_cons_none rfl, allMatches_cons_none rfl, List.nil_append]
    · have hmatch : stringPattern ((PdfString.hex h).write ++ rest) = some rest := by
        have hrest := hexRest_write hplain hempty rest
        simpa [PdfString.write, stringPattern] using hrest
      have hitem : decodeItem (PdfString.hex h).write = (PdfString.hex h).decoded := by
        rw [decodeItem, PdfString.write, inside_wrapped, decodeHex_write hplain]
        rfl
      rw [allMatches_append (write_ne_nil _) hmatch, List.flatMap_cons, hitem]

theorem isDelimiter_ne {c d : Char} (hc : isDelimiter c = false) (hd : isDelimiter d = true) :
    c ≠ d := by
  rintro rfl
  rw [hc] at hd
  cases hd

theorem stringPattern_gap {c : Char} (hc : isDelimiter c = false) (text : Text) :
    stringPattern (c :: text) = none := by
  rw [stringPattern, if_neg (isDelimiter_ne hc (by decide)), if_neg (isDelimiter_ne hc (by decide))]

theorem strings_writeItems {items : List (PdfString × Gap)} (hplain : ∀ item ∈ items, item.1.Plain) :
    (allMatches stringPattern (writeItems items)).flatMap decodeItem =
      items.flatMap fun item => item.1.decoded := by
  induction items with
  | nil => rfl
  | cons item items ih =>
    have hcons : writeItems (item :: items) = item.1.write ++ (item.2.val ++ writeItems items) := by
      rw [writeItems, List.flatMap_cons, List.append_assoc]
      rfl
    rw [hcons, strings_write (hplain item List.mem_cons_self),
      allMatches_gap fun c hc => stringPattern_gap (item.2.property c hc),
      ih fun other h => hplain other (List.mem_cons_of_mem _ h)]
    rfl

/-! ### Where an array ends -/

theorem arrayRest_cons {c : Char} (hc : c ≠ ']') (text : Text) :
    arrayRest (c :: text) = arrayRest text := by
  rw [arrayRest, if_neg hc]

theorem arrayRest_skip {skipped : Text} (h : ∀ c ∈ skipped, c ≠ ']') (text : Text) :
    arrayRest (skipped ++ text) = arrayRest text := by
  induction skipped with
  | nil => rfl
  | cons c skipped ih =>
    rw [List.cons_append, arrayRest_cons (h c List.mem_cons_self)]
    exact ih fun d hd => h d (List.mem_cons_of_mem _ hd)

/-- An array does not end in a literal in which it does not end before the closing parenthesis. -/
theorem arrayRest_closed {skipped : Text} (h : arrayRest (skipped ++ [')']) = none) (text : Text) :
    arrayRest (skipped ++ ')' :: text) = arrayRest text := by
  induction skipped with
  | nil => exact arrayRest_cons (by decide) text
  | cons c skipped ih =>
    rw [List.cons_append, arrayRest] at h ⊢
    by_cases hc : c = ']'
    · rw [if_pos hc, Option.or_eq_none_iff] at h
      rw [if_pos hc, keyword_extend (by decide) (by decide) h.1, Option.none_or]
      exact ih h.2
    · rw [if_neg hc] at h ⊢
      exact ih h

theorem arrayRest_write {s : PdfString} (h : arrayRest s.write = none) (text : Text) :
    arrayRest (s.write ++ text) = arrayRest text := by
  cases s with
  | literal l =>
    rw [PdfString.write, arrayRest_cons (by decide)] at h
    rw [PdfString.write, List.cons_append, arrayRest_cons (by decide), List.append_assoc]
    exact arrayRest_closed h text
  | hex h' =>
    refine arrayRest_skip ?_ text
    intro c hc
    rw [PdfString.write, List.mem_cons, List.mem_append, List.mem_singleton] at hc
    rcases hc with rfl | hc | rfl
    · decide
    · rcases h'.written c hc with hdigit | hspace
      · exact isDelimiter_ne (not_isDelimiter_of_isHexDigit hdigit) (by decide)
      · exact isDelimiter_ne (not_isPdfSpace hspace).2.1 (by decide)
    · decide

theorem arrayRest_writeItems {items : List (PdfString × Gap)}
    (h : ∀ item ∈ items, arrayRest item.1.write = none) (text : Text) :
    arrayRest (writeItems items ++ text) = arrayRest text := by
  induction items with
  | nil => rfl
  | cons item items ih =>
    have hcons : writeItems (item :: items) ++ text =
        item.1.write ++ (item.2.val ++ (writeItems items ++ text)) := by
      simp [writeItems]
    rw [hcons, arrayRest_write (h item List.mem_cons_self),
      arrayRest_skip fun c hc => isDelimiter_ne (item.2.property c hc) (by decide)]
    exact ih fun other hother => h other (List.mem_cons_of_mem _ hother)

/-! ### Operators -/

theorem beforeLast_append {c : Char} {after : Text} (h : c ∉ after) (before : Text) :
    beforeLast c (before ++ c :: after) = before := by
  have hafter : ∀ d ∈ after.reverse, decide (d ≠ c) = true := by
    intro d hd
    rw [decide_eq_true_eq]
    rintro rfl
    exact h (List.mem_reverse.mp hd)
  rw [beforeLast, List.reverse_append, List.reverse_cons, List.append_assoc,
    List.dropWhile_append_of_pos hafter, List.singleton_append,
    List.dropWhile_cons_of_neg (by simp), List.drop_one, List.tail_cons, List.reverse_reverse]

/-- The part of a text behind the last occurrence of a character. -/
theorem takeWhile_last {c : Char} {after : Text} (h : c ∉ after) (before : Text) :
    ((before ++ c :: after).reverse.takeWhile (· ≠ c)).reverse = after := by
  have hafter : ∀ d ∈ after.reverse, decide (d ≠ c) = true := by
    intro d hd
    rw [decide_eq_true_eq]
    rintro rfl
    exact h (List.mem_reverse.mp hd)
  rw [List.reverse_append, List.reverse_cons, List.append_assoc,
    List.takeWhile_append_of_pos hafter, List.singleton_append,
    List.takeWhile_cons_of_neg (by simp), List.append_nil, List.reverse_reverse]

/-- What is left of a list of strings without the blank ones. -/
def visible (strings : List JsString) : List JsString := strings.filter fun s => !isBlank s

theorem jsSpace_of_space (space : Space) (hplain : '\x00' ∉ space.val) :
    ∀ c ∈ space.val, isJsSpace c = true := by
  intro c hc
  exact isJsSpace_of_isPdfSpace (space.property c hc) fun hnull => hplain (hnull ▸ hc)

theorem showRest_write {space : Space} (hplain : '\x00' ∉ space.val) (operator : ShowOperator)
    (rest : Text) : showRest (space.val ++ (operator.write ++ rest)) = some rest := by
  have hspace := jsSpace_of_space space hplain
  cases operator with
  | tj => exact showRest_tj hspace
  | quote => exact showRest_quote hspace

theorem not_mem_operator (space : Space) (operator : ShowOperator) :
    ')' ∉ space.val ++ operator.write := by
  intro h
  rcases List.mem_append.mp h with h | h
  · exact isDelimiter_ne (not_isPdfSpace (space.property _ h)).2.1 (by decide) rfl
  · cases operator with
    | tj => exact absurd h (by decide)
    | quote => exact absurd h (by decide)

theorem visible_singleton (s : JsString) : visible [s] = if isBlank s then [] else [s] := by
  cases h : isBlank s <;> simp [visible, h]

/-- The string that a written literal shows. -/
theorem shownString_literal {l : Literal} {space : Space} {operator : ShowOperator}
    (hplain : (PdfString.literal l).Plain) (hspace : '\x00' ∉ space.val) :
    shownString (Show.string (.literal l) space operator).write =
      if isBlank (PdfString.literal l).decoded then none else some (PdfString.literal l).decoded := by
  have hwrite : (Show.string (.literal l) space operator).write =
      '(' :: (writePieces l.pieces ++ ')' :: (space.val ++ operator.write)) := by
    simp [Show.write, PdfString.write]
  have hoperand : literalOperand (Show.string (.literal l) space operator).write =
      some (writePieces l.pieces) := by
    have hshow : showRest (space.val ++ operator.write) = some [] := by
      have hrest := showRest_write hspace operator []
      rwa [List.append_nil] at hrest
    have hnot := not_mem_operator space operator
    rw [hwrite, literalOperand]
    rw [takeWhile_last hnot, beforeLast_append hnot, if_pos ⟨hshow, by simp⟩]
  have hfirst : (trimStart (Show.string (.literal l) space operator).write).head? ≠ some '[' := by
    rw [hwrite, trimStart, List.dropWhile_cons_of_neg (by decide)]
    simp
  rw [shownString, if_neg hfirst, hoperand]
  simp only [decodeLiteral_write hplain]

theorem takeWhile_hex {h : Hex} (hplain : '\x00' ∉ h.text) (rest : Text) :
    (h.text ++ '>' :: rest).takeWhile (fun c => isHexDigit c || isJsSpace c) = h.text := by
  have hclass : ∀ c ∈ h.text, (isHexDigit c || isJsSpace c) = true := by
    intro c hc
    rcases h.written c hc with hdigit | hspace
    · rw [hdigit, Bool.true_or]
    · rw [isJsSpace_of_isPdfSpace hspace fun hnull => hplain (hnull ▸ hc), Bool.or_true]
  rw [List.takeWhile_append_of_pos hclass, List.takeWhile_cons_of_neg (by decide), List.append_nil]

theorem shownString_hex {h : Hex} {space : Space} (hne : h.text ≠ [])
    (hplain : (PdfString.hex h).Plain) (hspace : '\x00' ∉ space.val) :
    shownString (Show.string (.hex h) space .tj).write =
      if isBlank (PdfString.hex h).decoded then none else some (PdfString.hex h).decoded := by
  have hwrite : (Show.string (.hex h) space .tj).write =
      '<' :: (h.text ++ '>' :: (space.val ++ ['T', 'j'])) := by
    simp [Show.write, PdfString.write, ShowOperator.write]
  have hoperand : hexOperand (Show.string (.hex h) space .tj).write = some h.text := by
    have hkeyword : keyword ['T', 'j'] (space.val ++ (['T', 'j'] ++ [])) = some [] :=
      keyword_append (jsSpace_of_space space hspace) (by decide) (by decide)
    rw [hwrite, hexOperand]
    rw [hexRest_write hplain hne, Option.bind_some, if_pos (by simpa using hkeyword), takeWhile_hex hplain]
  have hfirst : (trimStart (Show.string (.hex h) space .tj).write).head? ≠ some '[' := by
    rw [hwrite, trimStart, List.dropWhile_cons_of_neg (by decide)]
    simp
  have hliteral : literalOperand (Show.string (.hex h) space .tj).write = none := by
    rw [hwrite]
    rfl
  rw [shownString, if_neg hfirst, hliteral, hoperand]
  simp only [decodeHex_write hplain]

theorem shownString_array {first : Gap} {items : List (PdfString × Gap)} {space : Space}
    (hplain : ∀ item ∈ items, item.1.Plain) :
    shownString (Show.array first items space).write =
      if isBlank (Show.array first items space).decoded then none
      else some (Show.array first items space).decoded := by
  have hnot : ']' ∉ space.val ++ ['T', 'J'] := by
    intro h
    rcases List.mem_append.mp h with h | h
    · exact isDelimiter_ne (not_isPdfSpace (space.property _ h)).2.1 (by decide) rfl
    · exact absurd h (by decide)
  have hfirst : (trimStart (Show.array first items space).write).head? = some '[' := by
    rw [Show.write, trimStart, List.dropWhile_cons_of_neg (by decide)]
    rfl
  have hbody : beforeLast ']' ((((Show.array first items space).write).dropWhile (· ≠ '[')).drop 1) =
      first.val ++ writeItems items := by
    rw [Show.write, List.dropWhile_cons_of_neg (by decide), List.drop_one, List.tail_cons,
      beforeLast_append hnot]
  have hjoined : (allMatches stringPattern (first.val ++ writeItems items)).flatMap decodeItem =
      (Show.array first items space).decoded := by
    rw [allMatches_gap fun c hc => stringPattern_gap (first.property c hc),
      strings_writeItems hplain]
    rfl
  rw [shownString, if_pos hfirst]
  simp only [hbody, hjoined]

/-! ### Blocks -/

theorem operatorPattern_gap {c : Char} (hc : isDelimiter c = false) (text : Text) :
    operatorPattern (c :: text) = none := by
  rw [operatorPattern, if_neg (isDelimiter_ne hc (by decide)),
    if_neg (isDelimiter_ne hc (by decide)), if_neg (isDelimiter_ne hc (by decide))]

/-- What the operators of a text show. -/
def extracted (text : Text) : List JsString := (allMatches operatorPattern text).filterMap shownString

theorem extracted_match {piece rest : Text} {s : JsString} (hne : piece ≠ [])
    (hmatch : operatorPattern (piece ++ rest) = some rest)
    (hshown : shownString piece = if isBlank s then none else some s) :
    extracted (piece ++ rest) = visible [s] ++ extracted rest := by
  rw [extracted, allMatches_append hne hmatch, List.filterMap_cons, hshown, visible_singleton]
  cases isBlank s <;> rfl

theorem extracted_gap {gap : Text} (hgap : ∀ c ∈ gap, isDelimiter c = false) (rest : Text) :
    extracted (gap ++ rest) = extracted rest := by
  rw [extracted, allMatches_gap fun c hc => operatorPattern_gap (hgap c hc)]
  rfl

/-- A plain operator is found, and shows its string. -/
theorem extracted_write {shown : Show} (hplain : shown.Plain) (rest : Text) :
    extracted (shown.write ++ rest) = visible [shown.decoded] ++ extracted rest := by
  cases shown with
  | string s space operator =>
    cases s with
    | literal l =>
      obtain ⟨hliteral, hspace⟩ := hplain
      refine extracted_match (by simp [Show.write, PdfString.write]) ?_
        (shownString_literal hliteral hspace)
      have hrest := literalRest_write l.spelled.allowed hliteral.1
        (space.val ++ (operator.write ++ rest))
      have hshow := showRest_write hspace operator rest
      simp [Show.write, PdfString.write, operatorPattern, hrest, hshow]
    | hex h =>
      obtain ⟨hhex, hspace, rfl⟩ := hplain
      by_cases hempty : h.text = []
      · have hdecoded : (Show.string (.hex h) space .tj).decoded = [] := by
          rw [Show.decoded, ← decodeHex_write hhex, hempty]
          rfl
        have hwrite : (Show.string (.hex h) space .tj).write ++ rest =
            '<' :: '>' :: (space.val ++ (['T', 'j'] ++ rest)) := by
          simp [Show.write, PdfString.write, ShowOperator.write, hempty]
        have hskip : ∀ text, extracted ('<' :: '>' :: text) = extracted text := by
          intro text
          rw [extracted, allMatches_cons_none rfl, allMatches_cons_none rfl]
          rfl
        have hspaceGap : ∀ c ∈ space.val, isDelimiter c = false :=
          fun c hc => (not_isPdfSpace (space.property c hc)).2.1
        rw [hdecoded, hwrite, hskip, extracted_gap hspaceGap, extracted_gap (by decide)]
        rfl
      · refine extracted_match (by simp [Show.write, PdfString.write]) ?_
          (shownString_hex hempty hhex hspace)
        have hrest := hexRest_write hhex hempty (space.val ++ (['T', 'j'] ++ rest))
        have hkeyword : keyword ['T', 'j'] (space.val ++ (['T', 'j'] ++ rest)) = some rest :=
          keyword_append (jsSpace_of_space space hspace) (by decide) (by decide)
        simp only [List.cons_append, List.nil_append] at hrest hkeyword
        simp [Show.write, PdfString.write, ShowOperator.write, operatorPattern, hrest, hkeyword]
  | array first items space =>
    obtain ⟨hitems, hspace⟩ := hplain
    refine extracted_match (List.cons_ne_nil _ _) ?_
      (shownString_array fun item h => (hitems item h).1)
    have hkeyword : keyword ['T', 'J'] (space.val ++ (['T', 'J'] ++ rest)) = some rest :=
      keyword_append (jsSpace_of_space space hspace) (by decide) (by decide)
    have hwrite : (Show.array first items space).write ++ rest =
        '[' :: (first.val ++ (writeItems items ++ ']' :: (space.val ++ (['T', 'J'] ++ rest)))) := by
      simp [Show.write]
    rw [hwrite, operatorPattern, if_neg (by decide), if_neg (by decide), if_pos rfl,
      arrayRest_skip fun c hc => isDelimiter_ne (first.property c hc) (by decide),
      arrayRest_writeItems fun item h => (hitems item h).2, arrayRest, if_pos rfl, hkeyword]
    rfl

theorem extracted_shows {shows : List (Show × Gap)} (hplain : ∀ shown ∈ shows, shown.1.Plain)
    (rest : Text) :
    extracted ((shows.flatMap fun shown => shown.1.write ++ shown.2.val) ++ rest) =
      visible (shows.map fun shown => shown.1.decoded) ++ extracted rest := by
  induction shows with
  | nil => rfl
  | cons shown shows ih =>
    rw [List.flatMap_cons, List.append_assoc, List.append_assoc,
      extracted_write (hplain shown List.mem_cons_self),
      extracted_gap shown.2.property, ih fun other h => hplain other (List.mem_cons_of_mem _ h),
      ← List.append_assoc, visible, visible, ← List.filter_append]
    rfl

/-- The operators of a plain block show its strings. -/
theorem extracted_block {b : Block} (hplain : b.Plain) :
    extracted b.write = visible (b.shows.map fun shown => shown.1.decoded) := by
  rw [Block.write, extracted_gap (by decide), Block.body, List.append_assoc,
    extracted_gap b.first.property, extracted_shows hplain.1]
  exact List.append_nil _

/-- A text in which a block does not end. -/
theorem cut_end {body : Text} (h : ¬['E', 'T'] <:+: body) (rest : Text) :
    Delimited.cut ['E', 'T'] (body ++ (['E', 'T'] ++ rest)) = some (body, rest) := by
  induction body with
  | nil => simp [Delimited.cut]
  | cons c body ih =>
    have hnot : ¬['E', 'T'] <+: c :: (body ++ (['E', 'T'] ++ rest)) := by
      intro hbegins
      obtain ⟨hc, hbegins⟩ := List.cons_prefix_cons.mp hbegins
      cases body with
      | nil => exact absurd (List.cons_prefix_cons.mp hbegins).1 (by decide)
      | cons d body =>
        have hd := (List.cons_prefix_cons.mp hbegins).1
        exact h ⟨[], body, by rw [← hc, ← hd]; rfl⟩
    have hbody : ¬['E', 'T'] <:+: body := fun hinner =>
      h (hinner.trans (List.suffix_cons c body).isInfix)
    rw [List.cons_append, Delimited.cut, if_neg hnot, ih hbody]
    rfl

theorem blockPattern_write {b : Block} (hplain : b.Plain) (rest : Text) :
    blockPattern (b.write ++ rest) = some rest := by
  have hwrite : b.write ++ rest = ['B', 'T'] ++ (b.body ++ (['E', 'T'] ++ rest)) := by
    rw [Block.write, List.append_assoc, List.append_assoc]
  have hdrop : (['B', 'T'] ++ (b.body ++ (['E', 'T'] ++ rest))).drop 2 =
      b.body ++ (['E', 'T'] ++ rest) := rfl
  rw [hwrite, blockPattern, if_pos (List.prefix_append _ _), hdrop, cut_end hplain.2]
  rfl

theorem blockPattern_space {c : Char} (hc : isPdfSpace c = true) (text : Text) :
    blockPattern (c :: text) = none := by
  rw [blockPattern, if_neg]
  intro hbegins
  rw [← (List.cons_prefix_cons.mp hbegins).1] at hc
  exact absurd hc (by decide)

/-- A stream that is written plainly is extracted as PDF reads it: the strings that are not blank, in
    order. -/
theorem extract_plain {s : ContentStream} (hplain : s.Plain) :
    extractPdfTextOperators s.write = s.decoded.filter fun decoded => !isBlank decoded := by
  have hblocks : ∀ blocks : List (Block × Space), (∀ block ∈ blocks, block.1.Plain) →
      (allMatches blockPattern (blocks.flatMap fun block => block.1.write ++ block.2.val)).flatMap
          extracted =
        visible (blocks.flatMap fun block => block.1.shows.map fun shown => shown.1.decoded) := by
    intro blocks
    induction blocks with
    | nil => exact fun _ => rfl
    | cons block blocks ih =>
      intro hplain
      have hblock := hplain block List.mem_cons_self
      rw [List.flatMap_cons, List.append_assoc,
        allMatches_append (by simp [Block.write]) (blockPattern_write hblock _),
        allMatches_gap fun c hc => blockPattern_space (block.2.property c hc),
        List.flatMap_cons, extracted_block hblock,
        ih fun other h => hplain other (List.mem_cons_of_mem _ h)]
      simp [visible]
  rw [extractPdfTextOperators, ContentStream.write,
    allMatches_gap fun c hc => blockPattern_space (s.first.property c hc)]
  exact hblocks s.blocks hplain

/-! ### Streams of one block -/

def oneSpace : Space := ⟨[' '], by decide⟩

def noSpace : Space := ⟨[], by decide⟩

def oneBlock (first : Gap) (shows : List (Show × Gap)) : ContentStream :=
  ⟨noSpace, [(⟨first, shows⟩, noSpace)]⟩

/-- `(1\) \101` with an escaped parenthesis and an octal code. -/
def escapedLiteral : Literal where
  pieces := [.char '1', .escaped ')', .char ' ', .octal "101".toList]
  spelled := by decide +kernel
  balanced := by decide

def sampleHex : Hex where
  text := "48 6".toList
  written := by decide

/-- A block that shows the literal above, an array and hexadecimal digits. -/
def plainStream : ContentStream :=
  oneBlock ⟨" /F1 12 Tf ".toList, by decide⟩
    [(.string (.literal escapedLiteral) oneSpace .quote, ⟨" 0 -14 Td ".toList, by decide⟩),
      (.array ⟨[], by decide⟩ [(.literal escapedLiteral, ⟨" -120 ".toList, by decide⟩),
        (.hex sampleHex, ⟨[], by decide⟩)] noSpace, ⟨[' '], by decide⟩),
      (.string (.hex sampleHex) oneSpace .tj, ⟨[' '], by decide⟩)]

theorem escapedLiteral_plain : (PdfString.literal escapedLiteral).Plain := by
  refine ⟨?_, by decide +kernel⟩
  intro piece hpiece
  simp only [escapedLiteral, List.mem_cons, List.not_mem_nil, or_false] at hpiece
  rcases hpiece with rfl | rfl | rfl | rfl
  · exact ⟨by decide, by decide⟩
  · trivial
  · exact ⟨by decide, by decide⟩
  · exact (by decide : parseOctal "101".toList < 256)

theorem extract_plain_sample :
    extractPdfTextOperators plainStream.write =
      plainStream.decoded.filter fun decoded => !isBlank decoded := by
  refine extract_plain ?_
  intro block hblock
  obtain rfl := List.mem_singleton.mp hblock
  refine ⟨?_, by decide +kernel⟩
  intro shown hshown
  simp only [List.mem_cons, List.not_mem_nil, or_false] at hshown
  rcases hshown with rfl | rfl | rfl
  · exact ⟨escapedLiteral_plain, by decide⟩
  · refine ⟨?_, by decide⟩
    intro item hitem
    simp only [List.mem_cons, List.not_mem_nil, or_false] at hitem
    rcases hitem with rfl | rfl
    · exact ⟨escapedLiteral_plain, by decide +kernel⟩
    · exact ⟨(by decide : '\x00' ∉ sampleHex.text), by decide +kernel⟩
  · exact ⟨(by decide : '\x00' ∉ sampleHex.text), by decide, rfl⟩

/-- A literal with balanced parentheses. -/
def nestedLiteral : Literal where
  pieces := "a(b)c".toList.map Piece.char
  spelled := by decide +kernel
  balanced := by decide

/-- A string with balanced parentheses is lost.  So are one with `ET` in it, one that is continued on the
    next line, one shown by `'` in hexadecimal, and one with a null before its operator; others are
    decoded differently, cut at a bracket, or read without their byte order mark. -/
theorem nested_parentheses_lost :
    extractPdfTextOperators
        (oneBlock ⟨[' '], by decide⟩ [(.string (.literal nestedLiteral) oneSpace .tj,
          ⟨[' '], by decide⟩)]).write = [] ∧
    (oneBlock ⟨[' '], by decide⟩ [(.string (.literal nestedLiteral) oneSpace .tj,
      ⟨[' '], by decide⟩)]).decoded = [[0x61, 0x28, 0x62, 0x29, 0x63]] ∧
    extractPdfTextOperators "BT (MARKET) Tj ET".toList = [] ∧
    extractPdfTextOperators "BT (a\\\nb) Tj ET".toList = [] ∧
    extractPdfTextOperators "BT <41> ' ET".toList = [] ∧
    extractPdfTextOperators "BT (a)\x00Tj ET".toList = [] ∧
    extractPdfTextOperators "BT (\\501) Tj ET".toList = [[0x141]] ∧
    extractPdfTextOperators "BT (a\r\nb) Tj ET".toList = [[0x61, 0x0D, 0x0A, 0x62]] ∧
    extractPdfTextOperators "BT [(a] TJ) (b)] TJ ET".toList = [] ∧
    extractPdfTextOperators "BT (\\376\\377\\000A) Tj ET".toList = [[0xFE, 0xFF, 0, 0x41]] := by
  decide +kernel

end MarkorbitKnowledge.Normalization
