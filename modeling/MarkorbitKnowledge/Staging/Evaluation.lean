import MarkorbitKnowledge.Staging.Frontmatter

/-!
# The evaluation of a staging document

`evaluate` of `staging-verification.ts`: the checks of a document against its descriptor and its
conversion run, the warning about fields nobody reads, and the summary of the fields.  The digest
and the collation of the platform are parameters.  The search for an unused summary key tries one
suffix after the other; it is given `fuel` attempts and yields `none` where they do not suffice.
-/

namespace MarkorbitKnowledge.Staging

open Contracts

/-- What the staging pipeline takes from its platform. -/
structure StagingPlatform where
  /-- The SHA-256 of bytes. -/
  sha256 : ByteArray → Digest
  /-- `localeCompare` does not put the second text before the first. -/
  localeLe : Text → Text → Bool

/-- The low `count` hexadecimal digits of a number. -/
def hexText : Nat → Nat → Text
  | 0, _ => []
  | count + 1, n => hexText count (n / 16) ++ [hexDigit (n % 16)]

theorem hexText_digits (count n : Nat) :
    (hexText count n).length = count ∧ ∀ c ∈ hexText count n, ∃ digit < 16, c = hexDigit digit := by
  induction count generalizing n with
  | zero => exact ⟨rfl, by simp [hexText]⟩
  | succ count ih =>
    obtain ⟨hlength, hdigits⟩ := ih (n / 16)
    refine ⟨by simp [hexText, hlength], fun c hc => ?_⟩
    rcases List.mem_append.mp hc with hc | hc
    · exact hdigits c hc
    · exact ⟨n % 16, Nat.mod_lt _ (by decide), List.mem_singleton.mp hc⟩

/-- The hexadecimal text of a digest. -/
def digestText (digest : Digest) : Text := hexText 64 digest

def StagingPlatform.sha256Text (platform : StagingPlatform) (t : Text) : Text :=
  digestText (platform.sha256 (encodeText t))

/-! ### The summary -/

/-- `replace(/([a-z0-9])([A-Z])/g, "$1_$2")`. -/
def snakeCase : Text → Text
  | [] => []
  | [c] => [c]
  | c :: d :: rest =>
    if isLowerAlnum c && d.isUpper then c :: '_' :: snakeCase (d :: rest)
    else c :: snakeCase (d :: rest)

/-- Replaces every longest run of `p` characters by one underscore. -/
def underscoreRuns (p : Char → Bool) (inside : Bool) : Text → Text
  | [] => []
  | c :: rest =>
    if p c then
      if inside then underscoreRuns p true rest else '_' :: underscoreRuns p true rest
    else c :: underscoreRuns p false rest

def isNameChar (c : Char) : Bool := isAlnum c || c == '_' || c == '-'

def normalizedPath (path : Text) : Text :=
  let named := underscoreRuns (fun c => !isNameChar c) false (snakeCase path)
  let lowered := (underscoreRuns (· == '-') false named).map Char.toLower
  match lowered with
  | c :: rest => if 'a' ≤ c ∧ c ≤ 'z' then c :: rest else "field_".toList ++ lowered
  | [] => "field_".toList

/-- The piece of a digest that tells the key of an attempt apart. -/
def attemptSuffix (platform : StagingPlatform) (path : Text) (attempt : Nat) : Text :=
  let seed := if attempt = 0 then path else path ++ ':' :: Nat.toDigits 10 attempt
  (platform.sha256Text seed).take 12

def suffixedKey (platform : StagingPlatform) (normalized path : Text) (attempt : Nat) : Text :=
  takeUnits 51 normalized ++ '_' :: attemptSuffix platform path attempt

/-- The first key from an attempt on that is not used. -/
def unusedKey (platform : StagingPlatform) (used : List Text) (normalized path : Text) :
    Nat → Nat → Option Text
  | 0, _ => none
  | fuel + 1, attempt =>
    let key := suffixedKey platform normalized path attempt
    if key ∈ used then unusedKey platform used normalized path fuel (attempt + 1) else some key

def summaryKey (platform : StagingPlatform) (fuel : Nat) (used : List Text) (path : Text) :
    Option Text :=
  let normalized := normalizedPath path
  if textLength normalized > 64 ∨ normalized ∈ used then
    unusedKey platform used normalized path fuel 0
  else some normalized

def addSummaryField (platform : StagingPlatform) (fuel : Nat) (fields : List FrontmatterField)
    (field : ParsedField) : Option (List FrontmatterField) :=
  (summaryKey platform fuel (fields.map (·.key)) field.path).map fun key =>
    fields ++ [{ key, valueType := field.valueType }]

def summarize (platform : StagingPlatform) (fuel : Nat) (fields : List ParsedField) :
    Option FrontmatterSummary :=
  let sorted := fields.mergeSort fun f g => platform.localeLe f.path g.path
  (sorted.foldlM (addSummaryField platform fuel) []).map fun fields =>
    { fieldCount := fields.length, fields }

/-! ### The checks -/

def check (code : String) (passes : Bool) : StagingValidationCheck :=
  { code, status := if passes then .pass else .fail, message := none }

def valueAt (fields : List ParsedField) (path : String) : Option Scalar :=
  (fields.find? fun field => field.path = path.toList).map (·.value)

/-- `value(path) === text`. -/
def isBound (fields : List ParsedField) (path : String) (text : Text) : Bool :=
  valueAt fields path = some (.text (Text.units text))

def reservedPrefix : Text := "markorbit.".toList

/-- The paths of the fields that nobody reads. -/
def extraKeys (fields : List ParsedField) : List Text :=
  (fields.map (·.path)).filter fun path => !decide (reservedPrefix <+: path)

/-- The extra keys in the order of `sort()`, joined by commas. -/
def joinedKeys (keys : List Text) : Text :=
  ", ".toList.intercalate (keys.mergeSort fun k l => decide (k ≤ l))

def requiredKeys : List String :=
  ["markorbit.workspaceId", "markorbit.sourceId", "markorbit.rawArtifactId",
    "markorbit.conversionRunId", "markorbit.converterId", "markorbit.converterVersion",
    "markorbit.inputSha256"]

def extraFieldsWarning (fields : List ParsedField) : List Text :=
  if (extraKeys fields).isEmpty then []
  else ["Unrecognized frontmatter fields: ".toList ++ joinedKeys (extraKeys fields)]

def standardChecks : List String :=
  ["FRONTMATTER_PRESENT", "FRONTMATTER_DELIMITERS_VALID", "FRONTMATTER_PARSE_VALID",
    "FRONTMATTER_LIMITS_VALID", "FRONTMATTER_KEYS_UNIQUE"]

/-- The checks of a frontmatter that does not parse. -/
def failureChecks (failure : ParseFailure) : List StagingValidationCheck :=
  standardChecks.map fun code =>
    if code = failure.code then { code, status := .fail, message := some failure.message }
    else check code true

def bindingChecks (d : StagingDocumentDescriptor) (inputSha256 : Digest)
    (fields : List ParsedField) : List StagingValidationCheck :=
  [check "MARKORBIT_METADATA_PRESENT" (requiredKeys.all fun key => (valueAt fields key).isSome),
    check "WORKSPACE_BINDING_VALID"
      (isBound fields "markorbit.workspaceId" (idText "wsp" d.workspaceId).toList),
    check "SOURCE_BINDING_VALID"
      (isBound fields "markorbit.sourceId" (idText "src" d.sourceId).toList),
    check "RAW_ARTIFACT_BINDING_VALID"
      (isBound fields "markorbit.rawArtifactId" (idText "art" d.rawArtifactId).toList),
    check "CONVERSION_RUN_BINDING_VALID"
      (isBound fields "markorbit.conversionRunId" (idText "cvr" d.conversionRunId).toList),
    check "CONVERTER_BINDING_VALID"
      (isBound fields "markorbit.converterId" d.converter.converterId.toList &&
        isBound fields "markorbit.converterVersion" d.converter.version.toList),
    check "INPUT_HASH_BINDING_VALID"
      (isBound fields "markorbit.inputSha256" (digestText inputSha256))]

def bodyCheck (body : Text) : StagingValidationCheck :=
  check "MARKDOWN_BODY_PRESENT" (!(trimText body).isEmpty)

/-- The checks that need the text of the document. -/
def textChecks (d : StagingDocumentDescriptor) (inputSha256 : Digest) :
    ParseResult → List StagingValidationCheck
  | .failed failure body => failureChecks failure ++ [bodyCheck body]
  | .parsed fields body =>
    standardChecks.map (check · true) ++ bindingChecks d inputSha256 fields ++ [bodyCheck body] ++
      (extraFieldsWarning fields).map fun warning =>
        { code := "FRONTMATTER_EXTRA_FIELDS", status := .warn, message := some warning }

/-! ### The evaluation -/

structure Evaluation where
  outcome : StagingValidationOutcome
  checks : List StagingValidationCheck
  warnings : List Text
  frontmatterSummary : FrontmatterSummary

def outcome (checks : List StagingValidationCheck) : StagingValidationOutcome :=
  if checks.any (·.status = .fail) then .fail
  else if checks.any (·.status = .warn) then .passWithWarnings
  else .pass

def noFields : FrontmatterSummary := { fieldCount := 0, fields := [] }

def evaluation (checks : List StagingValidationCheck) (warnings : List Text)
    (frontmatterSummary : FrontmatterSummary) : Evaluation :=
  { outcome := outcome checks, checks, warnings, frontmatterSummary }

def evaluate (platform : StagingPlatform) (fuel : Nat) (d : StagingDocumentDescriptor)
    (run : ConversionRun) (bytes : ByteArray) : Option Evaluation :=
  let integrity := check "STAGING_CAS_INTEGRITY" true
  match decodeFatal bytes with
  | none =>
    let encoding : StagingValidationCheck :=
      { code := "MARKDOWN_UTF8_VALID", status := .fail
        message := some "Markdown is not valid UTF-8".toList }
    some (evaluation [integrity, encoding] [] noFields)
  | some text =>
    let parsed := parseFrontmatter text
    let checks :=
      [integrity, check "MARKDOWN_UTF8_VALID" true] ++ textChecks d run.input.sha256 parsed
    match parsed with
    | .failed _ _ => some (evaluation checks [] noFields)
    | .parsed fields _ =>
      (summarize platform fuel fields).map (evaluation checks (extraFieldsWarning fields))

end MarkorbitKnowledge.Staging
