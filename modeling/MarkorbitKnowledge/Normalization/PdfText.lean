import MarkorbitKnowledge.Contracts.Text
import MarkorbitKnowledge.Lib.Delimited
import MarkorbitKnowledge.Lib.Matching

/-!
# The text operators of a content stream

`production-document-normalization.ts` finds the text of a PDF page by pattern: blocks from `BT` to `ET`,
in them the operators that show strings, and in an array the strings.  A stream is the text of its bytes
(`latin1`); a decoded string is a list of UTF-16 code units.
-/

namespace MarkorbitKnowledge.Normalization

open Contracts Matching

/-! ### The patterns -/

/-- What `(?:\\.|[^\\)])*\)` leaves: the text after the first parenthesis that no backslash stands
    before, if no backslash stands before the end of a line. -/
def literalRestFrom : (escaped : Bool) → Text → Option Text
  | _, [] => none
  | true, c :: rest => if isLineTerminator c then none else literalRestFrom false rest
  | false, c :: rest => if c = ')' then some rest else literalRestFrom (c = '\\') rest

def literalRest (text : Text) : Option Text := literalRestFrom false text

/-- `[0-9A-Fa-f]`. -/
def isHexDigit (c : Char) : Bool :=
  c.isDigit || ('A' ≤ c && c ≤ 'F') || ('a' ≤ c && c ≤ 'f')

/-- What `\s*[0-9A-Fa-f\s]+\s*>` leaves. -/
def hexRest (text : Text) : Option Text :=
  if text.head?.any (fun c => isHexDigit c || isJsSpace c) then
    match text.dropWhile fun c => isHexDigit c || isJsSpace c with
    | c :: rest => if c = '>' then some rest else none
    | [] => none
  else none

/-- What `\s*` and a keyword leave. -/
def keyword (name text : Text) : Option Text :=
  if name <+: text.dropWhile isJsSpace then some ((text.dropWhile isJsSpace).drop name.length)
  else none

/-- What `\s*(?:Tj|'|")` leaves. -/
def showRest (text : Text) : Option Text :=
  (keyword ['T', 'j'] text).or ((keyword ['\''] text).or (keyword ['"'] text))

/-- What `[\s\S]*?\]\s*TJ` leaves. -/
def arrayRest : Text → Option Text
  | [] => none
  | c :: rest =>
    if c = ']' then (keyword ['T', 'J'] rest).or (arrayRest rest) else arrayRest rest

/-- `/\((?:\\.|[^\\)])*\)\s*(?:Tj|'|")|<\s*[0-9A-Fa-f\s]+\s*>\s*Tj|\[[\s\S]*?\]\s*TJ/`. -/
def operatorPattern : Text → Option Text
  | [] => none
  | c :: rest =>
    if c = '(' then (literalRest rest).bind showRest
    else if c = '<' then (hexRest rest).bind (keyword ['T', 'j'])
    else if c = '[' then arrayRest rest
    else none

/-- `/\((?:\\.|[^\\)])*\)|<\s*[0-9A-Fa-f\s]+\s*>/`. -/
def stringPattern : Text → Option Text
  | [] => none
  | c :: rest =>
    if c = '(' then literalRest rest else if c = '<' then hexRest rest else none

/-- `/BT[\s\S]*?ET/`. -/
def blockPattern (text : Text) : Option Text :=
  if ['B', 'T'] <+: text then (Delimited.cut ['E', 'T'] (text.drop 2)).map (·.2) else none

/-! ### Strings -/

/-- The code unit of a character of the stream. -/
def unit (c : Char) : UInt16 := UInt16.ofNat c.toNat

def isOctal (c : Char) : Bool := '0' ≤ c && c ≤ '7'

/-- `Number.parseInt(digits, 8)`. -/
def parseOctal (digits : Text) : Nat := digits.foldl (fun value c => value * 8 + (c.toNat - 48)) 0

/-- `escapes[next] ?? next`. -/
def escape (next : Char) : UInt16 :=
  if next = 'b' then 0x08
  else if next = 'f' then 0x0C
  else if next = 'n' then 0x0A
  else if next = 'r' then 0x0D
  else if next = 't' then 0x09
  else unit next

/-- What a backslash and the text behind it stand for, and how many characters behind it they take. -/
def escapeSequence (rest : Text) : JsString × Nat :=
  match rest with
  | [] => ([], 0)
  | next :: more =>
    if isOctal next then
      let octal := (rest.take 3).takeWhile isOctal
      ([UInt16.ofNat (parseOctal octal)], octal.length)
    else if next = '\n' then ([], 1)
    else if next = '\r' then ([], if more.head? = some '\n' then 2 else 1)
    else ([escape next], 1)

/-- `decodePdfLiteral`, past the given number of characters. -/
def decodeFrom : Nat → Text → JsString
  | _, [] => []
  | skip + 1, _ :: rest => decodeFrom skip rest
  | 0, c :: rest =>
    if c ≠ '\\' then unit c :: decodeFrom 0 rest
    else (escapeSequence rest).1 ++ decodeFrom (escapeSequence rest).2 rest

def decodePdfLiteral (value : Text) : JsString := decodeFrom 0 value

def hexDigitValue (c : Char) : Nat :=
  if c.isDigit then c.toNat - 48 else if 'a' ≤ c then c.toNat - 87 else c.toNat - 55

/-- `Buffer.from(even, "hex")`. -/
def hexBytes : Text → List Nat
  | c :: d :: rest => (hexDigitValue c * 16 + hexDigitValue d) :: hexBytes rest
  | _ => []

/-- The code units of big-endian UTF-16. -/
def utf16Units : List Nat → JsString
  | high :: low :: rest => UInt16.ofNat (high * 256 + low) :: utf16Units rest
  | _ => []

/-- Bytes with a byte order mark are UTF-16, others `latin1`. -/
def bytesText (bytes : List Nat) : JsString :=
  if [0xFE, 0xFF] <+: bytes then utf16Units (bytes.drop 2) else bytes.map UInt16.ofNat

def decodePdfHex (value : Text) : JsString :=
  let compact := value.filter fun c => !isJsSpace c
  if compact.all isHexDigit then
    bytesText (hexBytes (if compact.length % 2 = 0 then compact else compact ++ ['0']))
  else []

/-! ### Operators -/

/-- `decoded.trim()` is empty. -/
def isBlank (decoded : JsString) : Bool := decoded.all fun u => isJsSpace (Char.ofNat u.toNat)

/-- The text without its first and last character, as `item.slice(1, -1)`. -/
def inside (item : Text) : Text := (item.drop 1).dropLast

def decodeItem (item : Text) : JsString :=
  if item.head? = some '(' then decodePdfLiteral (inside item) else decodePdfHex (inside item)

/-- The text before the last occurrence of a character. -/
def beforeLast (c : Char) (text : Text) : Text :=
  ((text.reverse.dropWhile (· ≠ c)).drop 1).reverse

/-- `operator.match(/^\((.*)\)\s*(?:Tj|'|")$/s)?.[1]`: the last parenthesis is the closing one. -/
def literalOperand (operator : Text) : Option Text :=
  match operator with
  | '(' :: rest =>
    if showRest ((rest.reverse.takeWhile (· ≠ ')')).reverse) = some [] ∧ ')' ∈ rest then
      some (beforeLast ')' rest)
    else none
  | _ => none

/-- `operator.match(/^<\s*([0-9A-Fa-f\s]+)\s*>\s*Tj$/s)?.[1]`, with the white space before it, which
    `decodePdfHex` takes away. -/
def hexOperand (operator : Text) : Option Text :=
  match operator with
  | '<' :: rest =>
    if (hexRest rest).bind (keyword ['T', 'j']) = some [] then
      some (rest.takeWhile fun c => isHexDigit c || isJsSpace c)
    else none
  | _ => none

/-- The string that an operator shows, if it is not blank. -/
def shownString (operator : Text) : Option JsString :=
  if (trimStart operator).head? = some '[' then
    let body := beforeLast ']' ((operator.dropWhile (· ≠ '[')).drop 1)
    let joined := (allMatches stringPattern body).flatMap decodeItem
    if isBlank joined then none else some joined
  else
    match literalOperand operator with
    | some value =>
      if isBlank (decodePdfLiteral value) then none else some (decodePdfLiteral value)
    | none =>
      match hexOperand operator with
      | some value => if isBlank (decodePdfHex value) then none else some (decodePdfHex value)
      | none => none

def extractPdfTextOperators (stream : Text) : List JsString :=
  (allMatches blockPattern stream).flatMap fun block =>
    (allMatches operatorPattern block).filterMap shownString

end MarkorbitKnowledge.Normalization
