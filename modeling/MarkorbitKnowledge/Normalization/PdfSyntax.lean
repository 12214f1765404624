import MarkorbitKnowledge.Normalization.PdfText

/-!
# Content streams as PDF writes them

A text block shows strings, each written as a literal or in hexadecimal; what stands between the operators
that show them (positions, fonts, white space) has no delimiter in it but the slash of a name.  Invalid
spellings cannot be built: the parentheses of a literal are balanced, and an octal code ends where its
last digit does.
-/

namespace MarkorbitKnowledge.Normalization

open Contracts

/-- White space of PDF. -/
def isPdfSpace (c : Char) : Bool := c ∈ ['\x00', '\t', '\n', '\x0C', '\r', ' ']

def isDelimiter (c : Char) : Bool := c ∈ ['(', ')', '<', '>', '[', ']', '{', '}', '%']

abbrev Space := { text : Text // ∀ c ∈ text, isPdfSpace c = true }

abbrev Gap := { text : Text // ∀ c ∈ text, isDelimiter c = false }

/-! ### Literal strings -/

inductive LineEnd where
  | lf
  | cr
  | crlf
deriving DecidableEq

def LineEnd.write : LineEnd → Text
  | .lf => ['\n']
  | .cr => ['\r']
  | .crlf => ['\r', '\n']

/-- What a literal string is written in. -/
inductive Piece where
  | char (c : Char)
  | escaped (c : Char)
  | octal (digits : Text)
  /-- A backslash at the end of a line. -/
  | continued (ending : LineEnd)
  | lineEnd (ending : LineEnd)

def Piece.write : Piece → Text
  | .char c => [c]
  | .escaped c => ['\\', c]
  | .octal digits => '\\' :: digits
  | .continued ending => '\\' :: ending.write
  | .lineEnd ending => ending.write

/-- The bytes a piece stands for: a backslash before any other character is ignored, the overflow of an
    octal code too, and every end of a line is read as a line feed. -/
def Piece.bytes : Piece → List Nat
  | .char c => [c.toNat]
  | .escaped c =>
    if c = 'n' then [0x0A]
    else if c = 'r' then [0x0D]
    else if c = 't' then [0x09]
    else if c = 'b' then [0x08]
    else if c = 'f' then [0x0C]
    else [c.toNat]
  | .octal digits => [parseOctal digits % 256]
  | .continued _ => []
  | .lineEnd _ => [0x0A]

def Piece.Allowed : Piece → Prop
  | .char c => c.toNat < 256 ∧ c ≠ '\\' ∧ c ≠ '\n' ∧ c ≠ '\r'
  | .escaped c => c.toNat < 256 ∧ isOctal c = false ∧ c ≠ '\n' ∧ c ≠ '\r'
  | .octal digits => digits ≠ [] ∧ digits.length ≤ 3 ∧ digits.all isOctal = true
  | .continued _ => True
  | .lineEnd _ => True

/-- A piece ends where the following text begins. -/
def Piece.EndsBefore (text : Text) : Piece → Prop
  | .octal digits => digits.length < 3 → ∀ c ∈ text.head?, isOctal c = false
  | .continued .cr => text.head? ≠ some '\n'
  | .lineEnd .cr => text.head? ≠ some '\n'
  | _ => True

def writePieces (pieces : List Piece) : Text := pieces.flatMap Piece.write

def Spelled : List Piece → Prop
  | [] => True
  | piece :: pieces => piece.Allowed ∧ piece.EndsBefore (writePieces pieces) ∧ Spelled pieces

instance (piece : Piece) : Decidable piece.Allowed :=
  match piece with
  | .char c => inferInstanceAs (Decidable (c.toNat < 256 ∧ c ≠ '\\' ∧ c ≠ '\n' ∧ c ≠ '\r'))
  | .escaped c =>
    inferInstanceAs (Decidable (c.toNat < 256 ∧ isOctal c = false ∧ c ≠ '\n' ∧ c ≠ '\r'))
  | .octal digits =>
    inferInstanceAs (Decidable (digits ≠ [] ∧ digits.length ≤ 3 ∧ digits.all isOctal = true))
  | .continued _ => isTrue trivial
  | .lineEnd _ => isTrue trivial

instance (text : Text) (piece : Piece) : Decidable (piece.EndsBefore text) :=
  match piece with
  | .octal digits =>
    inferInstanceAs (Decidable (digits.length < 3 → ∀ c ∈ text.head?, isOctal c = false))
  | .continued .cr => inferInstanceAs (Decidable (text.head? ≠ some '\n'))
  | .lineEnd .cr => inferInstanceAs (Decidable (text.head? ≠ some '\n'))
  | .continued .lf => isTrue trivial
  | .continued .crlf => isTrue trivial
  | .lineEnd .lf => isTrue trivial
  | .lineEnd .crlf => isTrue trivial
  | .char _ => isTrue trivial
  | .escaped _ => isTrue trivial

instance decidableSpelled : (pieces : List Piece) → Decidable (Spelled pieces)
  | [] => isTrue trivial
  | piece :: pieces =>
    have := decidableSpelled pieces
    inferInstanceAs (Decidable (piece.Allowed ∧ piece.EndsBefore (writePieces pieces) ∧
      Spelled pieces))

/-- The parentheses that are written as themselves are balanced, with so many open before. -/
def balanced : Nat → List Piece → Bool
  | depth, [] => depth = 0
  | depth, .char c :: pieces =>
    if c = '(' then balanced (depth + 1) pieces
    else if c = ')' then depth ≠ 0 && balanced (depth - 1) pieces
    else balanced depth pieces
  | depth, _ :: pieces => balanced depth pieces

structure Literal where
  pieces : List Piece
  spelled : Spelled pieces
  balanced : balanced 0 pieces = true

/-! ### Strings and operators -/

/-- A hexadecimal string between its brackets. -/
structure Hex where
  text : Text
  written : ∀ c ∈ text, isHexDigit c = true ∨ isPdfSpace c = true

inductive PdfString where
  | literal (literal : Literal)
  | hex (hex : Hex)

def PdfString.write : PdfString → Text
  | .literal l => '(' :: (writePieces l.pieces ++ [')'])
  | .hex h => '<' :: (h.text ++ ['>'])

/-- The bytes of a string; a missing last digit is zero. -/
def PdfString.bytes : PdfString → List Nat
  | .literal l => l.pieces.flatMap Piece.bytes
  | .hex h =>
    let digits := h.text.filter isHexDigit
    hexBytes (if digits.length % 2 = 0 then digits else digits ++ ['0'])

def PdfString.decoded (s : PdfString) : JsString := bytesText s.bytes

inductive ShowOperator where
  | tj
  | quote
deriving DecidableEq

def ShowOperator.write : ShowOperator → Text
  | .tj => ['T', 'j']
  | .quote => ['\'']

/-- An operator that shows strings, with its operand. -/
inductive Show where
  | string (s : PdfString) (space : Space) (operator : ShowOperator)
  | array (first : Gap) (items : List (PdfString × Gap)) (space : Space)

def writeItems (items : List (PdfString × Gap)) : Text :=
  items.flatMap fun item => item.1.write ++ item.2.val

def Show.write : Show → Text
  | .string s space operator => s.write ++ (space.val ++ operator.write)
  | .array first items space =>
    '[' :: (first.val ++ writeItems items ++ ']' :: (space.val ++ ['T', 'J']))

/-- The string that is shown; the strings of an array are joined. -/
def Show.decoded : Show → JsString
  | .string s _ _ => s.decoded
  | .array _ items _ => items.flatMap fun item => item.1.decoded

/-! ### Blocks -/

structure Block where
  first : Gap
  shows : List (Show × Gap)

def Block.body (b : Block) : Text :=
  b.first.val ++ b.shows.flatMap fun shown => shown.1.write ++ shown.2.val

def Block.write (b : Block) : Text := ['B', 'T'] ++ (b.body ++ ['E', 'T'])

/-- A content stream of text blocks. -/
structure ContentStream where
  first : Space
  blocks : List (Block × Space)

def ContentStream.write (s : ContentStream) : Text :=
  s.first.val ++ s.blocks.flatMap fun block => block.1.write ++ block.2.val

/-- The strings that the stream shows, in order. -/
def ContentStream.decoded (s : ContentStream) : List JsString :=
  s.blocks.flatMap fun block => block.1.shows.map fun shown => shown.1.decoded

/-! ### Plain writing -/

def Piece.Plain : Piece → Prop
  | .char c => c ≠ '(' ∧ c ≠ ')'
  | .escaped _ => True
  | .octal digits => parseOctal digits < 256
  | .continued _ => False
  | .lineEnd ending => ending = .lf

/-- A literal without parentheses written as themselves, continued lines, octal codes of more than a
    byte, line ends other than a line feed, and byte order mark; hexadecimal digits without a null. -/
def PdfString.Plain : PdfString → Prop
  | .literal l => (∀ piece ∈ l.pieces, piece.Plain) ∧
      ¬[0xFE, 0xFF] <+: l.pieces.flatMap Piece.bytes
  | .hex h => '\x00' ∉ h.text

def Show.Plain : Show → Prop
  | .string (.literal l) space _ => (PdfString.literal l).Plain ∧ '\x00' ∉ space.val
  | .string (.hex h) space operator =>
    (PdfString.hex h).Plain ∧ '\x00' ∉ space.val ∧ operator = .tj
  | .array _ items space =>
    (∀ item ∈ items, item.1.Plain ∧ arrayRest item.1.write = none) ∧ '\x00' ∉ space.val

def Block.Plain (b : Block) : Prop :=
  (∀ shown ∈ b.shows, shown.1.Plain) ∧ ¬['E', 'T'] <:+: b.body

def ContentStream.Plain (s : ContentStream) : Prop := ∀ block ∈ s.blocks, block.1.Plain

end MarkorbitKnowledge.Normalization
