import MarkorbitKnowledge.Contracts.Conversion
import MarkorbitKnowledge.Lib.Delimited
import MarkorbitKnowledge.Lib.Fallible

/-!
# The frontmatter of a staging document

`parseFrontmatter` of `staging-verification.ts` and what it calls.  The frontmatter is a small part
of YAML: `key: value` lines, one level of nesting by indentation, scalars and lists of quoted
strings.  A field is recorded under its path, the key of a nested field behind the key of its
parent; the first line that breaks a rule ends the parse with a failed check.
-/

namespace MarkorbitKnowledge.Staging

open Contracts Fallible Delimited

def MAX_FRONTMATTER_BYTES : Nat := 32768
def MAX_FIELDS : Nat := 64
def MAX_DEPTH : Nat := 2
def MAX_KEY_LENGTH : Nat := 80
def MAX_SCALAR_LENGTH : Nat := 2000
def MAX_LIST_ITEMS : Nat := 32

/-! ### Scalars -/

/-- The value of a field.  A number is kept as the numeral that `Number` reads. -/
inductive Scalar where
  | text (value : JsString)
  | number (numeral : Text)
  | boolean (value : Bool)
  | null
  | list (items : List JsString)
deriving DecidableEq

def parseQuoted (value : Text) : Option JsString :=
  if value.head? = some '"' ∧ value.getLast? = some '"' then parseJsonString value
  else if value.head? = some '\'' ∧ value.getLast? = some '\'' then
    some (Text.units (value.drop 1).dropLast)
  else none

/-- `(?:\.\d+)?$`. -/
def isFraction : Text → Bool
  | [] => true
  | c :: digits => c == '.' && !digits.isEmpty && digits.all Char.isDigit

/-- `/^-?(?:0|[1-9]\d*)(?:\.\d+)?$/`. -/
def isNumeral (value : Text) : Bool :=
  let unsigned := match value with
    | '-' :: rest => rest
    | _ => value
  match unsigned with
  | '0' :: rest => isFraction rest
  | d :: rest => d.isDigit && isFraction (rest.dropWhile Char.isDigit)
  | [] => false

def decimal (digits : Text) : Nat := digits.foldl (fun n d => 10 * n + (d.toNat - 48)) 0

/-- `/^\d{4}-\d{2}-\d{2}$/` with a month and a day that `Date.parse` accepts. -/
def isDateText : Text → Bool
  | [y₁, y₂, y₃, y₄, '-', m₁, m₂, '-', d₁, d₂] =>
    [y₁, y₂, y₃, y₄, m₁, m₂, d₁, d₂].all Char.isDigit &&
      (1 ≤ decimal [m₁, m₂] && decimal [m₁, m₂] ≤ 12) &&
      (1 ≤ decimal [d₁, d₂] && decimal [d₁, d₂] ≤ 31)
  | _ => false

/-- No character that YAML reads as an indicator: brackets, braces, `&`, `*`, `!`, angle brackets
    and the backquote. -/
def isPlain (value : Text) : Bool :=
  !value.isEmpty && value.all fun c => !"[]\x7b\x7d&*!<>`".toList.contains c

def listItems (value : Text) : Option (List JsString) :=
  let body := trimText (value.drop 1).dropLast
  if body = [] then some []
  else
    let items := (body.splitOn ',').map trimText
    if items.length > MAX_LIST_ITEMS then none else items.mapM parseQuoted

def scalar (value : Text) : Option (Scalar × FrontmatterValueType) :=
  if textLength value > MAX_SCALAR_LENGTH then none
  else
    match parseQuoted value with
    | some s => some (.text s, .string)
    | none =>
      if value = "null".toList ∨ value = "~".toList then some (.null, .null)
      else if value = "true".toList ∨ value = "false".toList then
        some (.boolean (value = "true".toList), .boolean)
      else if isNumeral value then some (.number value, .number)
      else if isDateText value then some (.text (Text.units value), .date)
      else if value.head? = some '[' ∧ value.getLast? = some ']' then
        (listItems value).map fun items => (.list items, .stringList)
      else if isPlain value then some (.text (Text.units value), .string)
      else none

/-! ### Forbidden syntax -/

/-- Where the scan of `containsForbiddenYamlSyntax` is: the quote it is inside of, the character
    before, and whether the next character is passed over. -/
structure Scan where
  quote : Option Char
  previous : Option Char
  skip : Bool

def forbiddenFrom (scan : Scan) : Text → Bool
  | [] => false
  | c :: rest =>
    if scan.skip then forbiddenFrom { scan with previous := some c, skip := false } rest
    else
      match scan.quote with
      | some quote =>
        if quote = '"' ∧ c = '\\' then
          forbiddenFrom { scan with previous := some c, skip := true } rest
        else if c = quote then
          -- A doubled apostrophe does not end the quote.
          if quote = '\'' ∧ rest.head? = some '\'' then
            forbiddenFrom { scan with previous := some c, skip := true } rest
          else forbiddenFrom { scan with quote := none, previous := some c } rest
        else forbiddenFrom { scan with previous := some c } rest
      | none =>
        if c = '"' ∨ c = '\'' then
          forbiddenFrom { scan with quote := some c, previous := some c } rest
        else if scan.previous.all isJsSpace = true ∧
            ((c = '&' ∨ c = '*' ∨ c = '!') ∨ "<<:".toList <+: c :: rest) then true
        else forbiddenFrom { scan with previous := some c } rest

/-- `containsForbiddenYamlSyntax`. -/
def containsForbiddenYamlSyntax (raw : Text) : Bool :=
  forbiddenFrom { quote := none, previous := none, skip := false } raw

/-! ### Lines -/

structure ParsedField where
  path : Text
  value : Scalar
  valueType : FrontmatterValueType
deriving DecidableEq

/-- The check that failed and its message. -/
structure ParseFailure where
  code : String
  message : Text
deriving DecidableEq

structure LineState where
  parent : Option Text
  fields : List ParsedField
deriving DecidableEq

def LineState.paths (state : LineState) : List Text := state.fields.map (·.path)

def isKeyChar (c : Char) : Bool := isAlnum c || c == '_' || c == '.' || c == '-'

/-- `/^([A-Za-z0-9_.-]+):(.*)$/`. -/
def matchField (line : Text) : Option (Text × Text) :=
  match line.dropWhile isKeyChar with
  | ':' :: rest =>
    if line.takeWhile isKeyChar ≠ [] ∧ rest.any isLineTerminator = false then
      some (line.takeWhile isKeyChar, rest)
    else none
  | _ => none

/-- A blank line or a comment. -/
def isSkipped (line : Text) : Bool :=
  (trimText line).isEmpty || (trimStart line).head? == some '#'

def indentOf (line : Text) : Nat := textLength line - textLength (trimStart line)

def fieldPath (parent : Option Text) (key : Text) : Text :=
  match parent with
  | some parent => parent ++ '.' :: key
  | none => key

/-- The body of the loop over the lines. -/
def parseLine (state : LineState) (line : Text) : Except ParseFailure LineState := do
  if isSkipped line then return state
  let indent := indentOf line
  require (indent % 2 = 0 ∧ indent ≤ MAX_DEPTH * 2)
    { code := "FRONTMATTER_LIMITS_VALID", message := "Invalid frontmatter nesting".toList }
  let (key, rest) ← orThrow (matchField (trimText line))
    { code := "FRONTMATTER_PARSE_VALID", message := "Malformed frontmatter line".toList }
  let rest := trimText rest
  require (textLength key ≤ MAX_KEY_LENGTH)
    { code := "FRONTMATTER_LIMITS_VALID", message := "Frontmatter key exceeds limit".toList }
  if indent = 0 ∧ rest = [] then return { state with parent := some key }
  let parent := if indent = 0 then none else state.parent
  require (indent = 0 ∨ parent ≠ none)
    { code := "FRONTMATTER_PARSE_VALID", message := "Nested field has no parent".toList }
  let path := fieldPath parent key
  require (path ∉ state.paths)
    { code := "FRONTMATTER_KEYS_UNIQUE", message := "Duplicate frontmatter key: ".toList ++ path }
  require (state.fields.length + 1 ≤ MAX_FIELDS)
    { code := "FRONTMATTER_LIMITS_VALID"
      message := "Frontmatter field count exceeds limit".toList }
  let (value, valueType) ← orThrow (scalar rest)
    { code := "FRONTMATTER_PARSE_VALID", message := "Unsupported value for ".toList ++ path }
  pure { parent, fields := state.fields ++ [{ path, value, valueType }] }

def parseLines (state : LineState) (lines : List Text) : Except ParseFailure LineState :=
  lines.foldlM parseLine state

/-! ### The document -/

def opening : Text := "---\n".toList

def fence : Text := "---".toList

inductive ParseResult where
  | parsed (fields : List ParsedField) (body : Text)
  | failed (failure : ParseFailure) (body : Text)
deriving DecidableEq

/-- What is checked of the frontmatter as a whole, and then its lines. -/
def parseRaw (raw : Text) : Except ParseFailure LineState := do
  require (utf8Length raw ≤ MAX_FRONTMATTER_BYTES)
    { code := "FRONTMATTER_LIMITS_VALID", message := "Frontmatter exceeds byte limit".toList }
  require (containsForbiddenYamlSyntax raw = false)
    { code := "FRONTMATTER_PARSE_VALID"
      message := "YAML aliases, anchors, tags and merge keys are forbidden".toList }
  parseLines { parent := none, fields := [] } (raw.splitOn '\n')

def parseFrontmatter (text : Text) : ParseResult :=
  if opening <+: text then
    match cut (delimiter '\n' fence) (text.drop 4) with
    | none => .failed
        { code := "FRONTMATTER_DELIMITERS_VALID"
          message := "Markdown frontmatter closing delimiter is missing".toList } []
    | some (raw, body) =>
      match parseRaw raw with
      | .ok state => .parsed state.fields body
      | .error failure => .failed failure body
  else .failed
    { code := "FRONTMATTER_PRESENT", message := "Markdown frontmatter is missing".toList } text

end MarkorbitKnowledge.Staging
