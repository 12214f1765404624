import MarkorbitKnowledge.Execution.Store
import MarkorbitKnowledge.Staging.Frontmatter

/-!
# Canonical Markdown

A canonical document begins with the metadata of the control plane, as the fields of `markorbit`
(`canonicalMarkdownFrontmatter`).  Behind them the converter puts the frontmatter of the source document,
where that looks like one; the worker service checks that the metadata is there, and that what is behind
it does not begin a `markorbit` block again (`assertCanonicalMarkdown`).
-/

namespace MarkorbitKnowledge.Staging

open Contracts Fallible Delimited
open Execution (RegistryError)

/-! ### Metadata -/

structure CanonicalMarkdownMetadata where
  schemaVersion : JsString
  objectType : JsString
  documentId : JsString
  workspaceId : JsString
  sourceId : JsString
  sourceName : JsString
  sourceCategory : JsString
  authorityLevel : JsString
  jurisdictions : List JsString
  languages : List JsString
  rawArtifactId : JsString
  logicalDocumentId : Option JsString
  artifactVersion : Nat
  artifactKind : JsString
  originalName : JsString
  canonicalUri : Option JsString
  sourceUri : JsString
  capturedAt : JsString
  publishedAt : Option JsString
  conversionRunId : JsString
  converterId : JsString
  converterVersion : JsString
  inputSha256 : JsString
deriving DecidableEq

/-- The code units of a literal. -/
def literalUnits (s : String) : JsString := Text.units s.toList

def oneOf (values : List String) (value : JsString) : Bool := value ∈ values.map literalUnits

def SOURCE_CATEGORIES : List String :=
  ["OFFICIAL_AUTHORITY", "OFFICIAL_GUIDANCE", "LAW_FIRM", "NEWS", "RESEARCH", "TECHNICAL", "INTERNAL",
    "USER_PROVIDED", "OTHER"]

def AUTHORITY_LEVELS : List String :=
  ["PRIMARY_OFFICIAL", "SECONDARY_OFFICIAL", "PROFESSIONAL", "INDUSTRY", "COMMUNITY", "INTERNAL",
    "UNKNOWN"]

def ARTIFACT_KINDS : List String :=
  ["HTML", "PDF", "DOCX", "XLSX", "CSV", "JSON", "XML", "EMAIL", "IMAGE", "AUDIO", "VIDEO", "TEXT",
    "MARKDOWN", "OTHER"]

def MAX_SAFE_INTEGER : Nat := 9007199254740991

/-- `isCanonicalMarkdownMetadataV1`; `dateParses` tells whether `Date.parse` yields a number. -/
def isCanonicalMarkdownMetadataV1 (dateParses : JsString → Bool) (m : CanonicalMarkdownMetadata) :
    Bool :=
  m.schemaVersion = literalUnits "1.0" && m.objectType = literalUnits "CANONICAL_MARKDOWN_METADATA" &&
    m.documentId ≠ [] && m.workspaceId ≠ [] && m.sourceId ≠ [] && m.sourceName ≠ [] &&
    oneOf SOURCE_CATEGORIES m.sourceCategory && oneOf AUTHORITY_LEVELS m.authorityLevel &&
    m.jurisdictions.all (· ≠ []) && m.languages.all (· ≠ []) && m.rawArtifactId ≠ [] &&
    (0 < m.artifactVersion && m.artifactVersion ≤ MAX_SAFE_INTEGER) &&
    oneOf ARTIFACT_KINDS m.artifactKind && m.originalName ≠ [] && m.sourceUri ≠ [] &&
    dateParses m.capturedAt && m.publishedAt.all dateParses && m.conversionRunId ≠ [] &&
    m.converterId ≠ [] && m.converterVersion ≠ [] &&
    (m.inputSha256.length = 64 && m.inputSha256.all fun u => 0x30 ≤ u && u ≤ 0x39 || 0x61 ≤ u && u ≤ 0x66)

/-- A value as it is written into the frontmatter. -/
inductive MetadataValue where
  | quoted (value : JsString)
  | nullableQuoted (value : Option JsString)
  | quotedList (values : List JsString)
  | number (value : Nat)

def MetadataValue.write : MetadataValue → Text
  | .quoted value => Contracts.quoted value
  | .nullableQuoted none => "null".toList
  | .nullableQuoted (some value) => Contracts.quoted value
  | .quotedList values => '[' :: (List.intercalate [',', ' '] (values.map Contracts.quoted) ++ [']'])
  | .number value => Nat.toDigits 10 value

/-- The fields of the metadata, in order. -/
def CanonicalMarkdownMetadata.fields (m : CanonicalMarkdownMetadata) : List (String × MetadataValue) :=
  [("schemaVersion", .quoted m.schemaVersion),
    ("objectType", .quoted m.objectType),
    ("documentId", .quoted m.documentId),
    ("workspaceId", .quoted m.workspaceId),
    ("sourceId", .quoted m.sourceId),
    ("sourceName", .quoted m.sourceName),
    ("sourceCategory", .quoted m.sourceCategory),
    ("authorityLevel", .quoted m.authorityLevel),
    ("jurisdictions", .quotedList m.jurisdictions),
    ("languages", .quotedList m.languages),
    ("rawArtifactId", .quoted m.rawArtifactId),
    ("logicalDocumentId", .nullableQuoted m.logicalDocumentId),
    ("artifactVersion", .number m.artifactVersion),
    ("artifactKind", .quoted m.artifactKind),
    ("originalName", .quoted m.originalName),
    ("canonicalUri", .nullableQuoted m.canonicalUri),
    ("sourceUri", .quoted m.sourceUri),
    ("capturedAt", .quoted m.capturedAt),
    ("publishedAt", .nullableQuoted m.publishedAt),
    ("conversionRunId", .quoted m.conversionRunId),
    ("converterId", .quoted m.converterId),
    ("converterVersion", .quoted m.converterVersion),
    ("inputSha256", .quoted m.inputSha256)]

def fieldLine (field : String × MetadataValue) : Text :=
  [' ', ' '] ++ (field.1.toList ++ ':' :: ' ' :: field.2.write)

/-- The lines of the metadata after the opening one. -/
def CanonicalMarkdownMetadata.lines (m : CanonicalMarkdownMetadata) : List Text :=
  "markorbit:".toList :: m.fields.map fieldLine

def canonicalMarkdownFrontmatter (dateParses : JsString → Bool) (m : CanonicalMarkdownMetadata) :
    Except String Text := do
  require (isCanonicalMarkdownMetadataV1 dateParses m) "CANONICAL_MARKDOWN_METADATA_INVALID"
  return List.intercalate ['\n'] (fence :: (m.lines ++ [fence, []]))

/-! ### The check of the worker service -/

/-- `text.slice(0, text.lastIndexOf(marker))`, where the marker occurs. -/
def beforeLast (marker text : Text) : Option Text :=
  (cut marker.reverse text.reverse).map fun parts => parts.2.reverse

/-- `/^markorbit\s*:/mu` at the start of a line. -/
def startsReserved (line : Text) : Bool :=
  decide ("markorbit".toList <+: line) && ((line.drop 9).dropWhile isJsSpace).head? = some ':'

/-- `/^markorbit\s*:/mu.test(yaml)`, from the start of a line or from inside one. -/
def redefinesReserved : (lineStart : Bool) → Text → Bool
  | _, [] => false
  | lineStart, c :: rest =>
    (lineStart && startsReserved (c :: rest)) || redefinesReserved (isLineTerminator c) rest

def assertCanonicalMarkdown (content : ByteArray) (expectedFrontmatter : Text) :
    Except RegistryError Unit := do
  let text ← orThrow (decodeFatal content)
    (.conflict "CANONICAL_MARKDOWN_UTF8_INVALID" "Canonical Markdown must be valid UTF-8")
  let requiredCanonicalPrefix ← orThrow (beforeLast (delimiter '\n' fence) expectedFrontmatter)
    (.conflict "CANONICAL_MARKDOWN_METADATA_MISMATCH"
      "Expected canonical Markdown frontmatter is invalid")
  require (requiredCanonicalPrefix <+: text)
    (.conflict "CANONICAL_MARKDOWN_METADATA_MISMATCH"
      "Canonical Markdown frontmatter does not match control-plane provenance")
  let parts ← orThrow (cut (delimiter '\n' fence) (text.drop requiredCanonicalPrefix.length))
    (.conflict "CANONICAL_MARKDOWN_METADATA_MISMATCH"
      "Canonical Markdown frontmatter is not terminated")
  require (parts.1 = [] ∨ parts.1.head? = some '\n')
    (.conflict "CANONICAL_MARKDOWN_METADATA_MISMATCH"
      "Canonical Markdown appended frontmatter is malformed")
  require (redefinesReserved true parts.1 = false)
    (.conflict "CANONICAL_MARKDOWN_METADATA_MISMATCH"
      "Canonical Markdown may not redefine reserved MarkOrbit provenance")

/-! ### The converter -/

/-- `replace(/\r\n?/g, "\n")` of `decodeUtf8`, inside a line end or not. -/
def joinLineEnds : (afterReturn : Bool) → Text → Text
  | _, [] => []
  | afterReturn, c :: rest =>
    if c = '\n' ∧ afterReturn = true then joinLineEnds false rest
    else if c = '\r' then '\n' :: joinLineEnds true rest
    else c :: joinLineEnds false rest

/-- `decodeUtf8`; a second byte order mark is taken away too. -/
def decodeUtf8 (content : ByteArray) : Option Text :=
  (decodeFatal content).map fun text =>
    joinLineEnds false (if text.head? = some '\uFEFF' then text.drop 1 else text)

/-- `/^[A-Za-z0-9_.-]+:(?:\s.*)?$/u.test(line)`. -/
def isFieldLine (line : Text) : Bool :=
  line.takeWhile isKeyChar ≠ [] &&
    match line.dropWhile isKeyChar with
    | ':' :: [] => true
    | ':' :: c :: rest => isJsSpace c && rest.all fun d => !isLineTerminator d
    | _ => false

/-- A line of `isMergeableSourceFrontmatter` that is no field may be passed over; a field must be
    indented by zero, two or four. -/
def isMergeableSourceFrontmatter (yaml : Text) : Bool :=
  let lines := (yaml.splitOn '\n').filter fun line => !isSkipped line
  lines ≠ [] && lines.all fun line =>
    indentOf line % 2 = 0 && indentOf line ≤ 4 && isFieldLine (trimText line)

def startsLikeSourceFrontmatter (value : Text) : Bool :=
  (((value.splitOn '\n').find? fun line => !isSkipped line).map
    fun line => isFieldLine (trimText line)).getD false

structure LeadingFrontmatter where
  yaml : Option Text
  body : Text

def splitLeadingFrontmatter (markdown : Text) : Except String LeadingFrontmatter :=
  if opening <+: markdown then
    match cut (delimiter '\n' fence) (markdown.drop 4) with
    | none =>
      if startsLikeSourceFrontmatter (markdown.drop 4) then
        .error "MARKDOWN_STAGING_FRONTMATTER_UNTERMINATED"
      else .ok { yaml := none, body := markdown }
    | some (yaml, body) =>
      if redefinesReserved true yaml then .error "MARKDOWN_STAGING_RESERVED_FRONTMATTER_CONFLICT"
      else if isMergeableSourceFrontmatter yaml then
        .ok { yaml := some yaml, body := if body.head? = some '\n' then body.drop 1 else body }
      else .ok { yaml := none, body := markdown }
  else .ok { yaml := none, body := markdown }

def canonicalMarkdownWithMergedFrontmatter (dateParses : JsString → Bool)
    (m : CanonicalMarkdownMetadata) (markdown : Text) : Except String Text := do
  let parsed ← splitLeadingFrontmatter markdown
  let canonical ← canonicalMarkdownFrontmatter dateParses m
  match parsed.yaml with
  | none => return canonical ++ parsed.body
  | some yaml =>
    if trimText yaml = [] then return canonical ++ parsed.body
    let closed ← orThrow (beforeLast (delimiter '\n' fence) canonical)
      "CANONICAL_MARKDOWN_FRONTMATTER_INVALID"
    return closed ++ ('\n' :: (yaml ++ (delimiter '\n' fence ++ ('\n' :: parsed.body))))

/-- The largest input, and the largest output of the converter itself. -/
def maximumInputBytes : Nat := 4500000

def maximumOutputBytes : Nat := 5000000

/-- `convertProductionMarkdownToStaging`, after the checks of the grants; `outputLimit` is the grant's
    `maximumBytes`. -/
def convertProductionMarkdownToStaging (dateParses : JsString → Bool) (m : CanonicalMarkdownMetadata)
    (outputLimit : Nat) (input : ByteArray) : Except String ByteArray := do
  require (isCanonicalMarkdownMetadataV1 dateParses m) "MARKDOWN_STAGING_CANONICAL_METADATA_MISMATCH"
  require (input.size ≤ maximumInputBytes) "MARKDOWN_STAGING_INPUT_TOO_LARGE"
  let body ← orThrow (decodeUtf8 input) "The encoded data was not valid for encoding utf-8"
  require (trimText body ≠ []) "MARKDOWN_STAGING_INPUT_EMPTY"
  let canonical ← canonicalMarkdownWithMergedFrontmatter dateParses m body
  let output := encodeText (if canonical.getLast? = some '\n' then canonical else canonical ++ ['\n'])
  require (output.size ≤ min maximumOutputBytes outputLimit) "MARKDOWN_STAGING_OUTPUT_TOO_LARGE"
  return output

end MarkorbitKnowledge.Staging
