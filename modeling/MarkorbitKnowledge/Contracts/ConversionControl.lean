import MarkorbitKnowledge.Contracts.Schema
import MarkorbitKnowledge.Contracts.Text

/-!
# Conversion Control v1

`conversion-control-v1.ts`: what the profiles and converter manifests of the catalogue say about the
inputs they take, and which keys their configurations may have.  The one output format is Markdown,
so formats are left out.
-/

namespace MarkorbitKnowledge.Contracts

inductive ArtifactStatus where
  | received | registered | duplicateChecked | readyForConversion | converted | staged | archived
deriving DecidableEq

inductive ConversionProfileStatus where
  | active | paused | archived
deriving DecidableEq

inductive ConverterStatus where
  | active | deprecated | disabled
deriving DecidableEq

/-- The exact converter a run is bound to. -/
structure RuntimeConverterRef where
  converterId : String
  version : String
deriving DecidableEq

structure ConverterInputRule where
  artifactKinds : List ArtifactKind
  mimePatterns : List String
deriving DecidableEq

structure ConversionProfile where
  id : Id
  workspaceId : Id
  sourceId : Option Id
  status : ConversionProfileStatus
  converter : RuntimeConverterRef
  input : ConverterInputRule
  targetPathTemplate : String
  /-- The keys of `configuration`, at every depth. -/
  configurationKeys : List String
deriving DecidableEq

structure ConverterManifest where
  converterId : String
  version : String
  status : ConverterStatus
  inputs : ConverterInputRule
  /-- The keys of `configurationSchema`, at every depth. -/
  configurationSchemaKeys : List String
deriving DecidableEq

/-! ### MIME patterns -/

def isMimeChar (c : Char) : Bool := isAlnum c || "!#$&^_.+-".toList.contains c

/-- One side of `MIME_PATTERN`: a star, or a name. -/
def isMimePart (part : Text) : Bool := part == ['*'] || (!part.isEmpty && part.all isMimeChar)

/-- The two sides of a text that `MIME_PATTERN` matches, in lower case. -/
def mimeParts (s : String) : Option (Text × Text) :=
  match s.toList.splitOn '/' with
  | [type, subtype] =>
    if isMimePart type && isMimePart subtype then
      some (type.map Char.toLower, subtype.map Char.toLower)
    else none
  | _ => none

def mimePatternMatches (pattern mimeType : String) : Bool :=
  match mimeParts pattern, mimeParts mimeType with
  | some (patternType, patternSubtype), some (actualType, actualSubtype) =>
    (patternType == ['*'] || patternType == actualType) &&
      (patternSubtype == ['*'] || patternSubtype == actualSubtype)
  | _, _ => false

def ConverterInputRule.accepts (rule : ConverterInputRule) (kind : ArtifactKind)
    (mimeType : String) : Bool :=
  rule.artifactKinds.contains kind &&
    rule.mimePatterns.any fun pattern => mimePatternMatches pattern mimeType

def converterAccepts (manifest : ConverterManifest) (kind : ArtifactKind) (mimeType : String) : Bool :=
  manifest.inputs.accepts kind mimeType

/-! ### Profiles and manifests -/

def RuntimeConverterRef.isValid (converter : RuntimeConverterRef) : Bool :=
  isSlug converter.converterId && isSemver converter.version

def isConverterInputRule (rule : ConverterInputRule) : Bool :=
  !rule.artifactKinds.isEmpty && decide rule.artifactKinds.Nodup && !rule.mimePatterns.isEmpty &&
    rule.mimePatterns.all (fun pattern => (mimeParts pattern).isSome) &&
    decide rule.mimePatterns.Nodup

/-- One of the words stands in the text, in any case. -/
def mentions (words : List String) (text : String) : Bool :=
  words.any fun word => decide (word.toList <:+: text.toList.map Char.toLower)

/-- `FORBIDDEN_KEY`. -/
def FORBIDDEN_KEY : List String :=
  ["secret", "password", "passwd", "token", "apikey", "api-key", "api_key", "command", "cmd", "shell",
    "script", "executable", "argv", "args"]

def hasForbiddenConversionConfiguration (keys : List String) : Bool :=
  keys.any (mentions FORBIDDEN_KEY)

/-- What a requested output asks of its target path template, and a profile of its own. -/
def requestedOutput (targetPathTemplate : String) : Bool :=
  let text := targetPathTemplate.toList
  decide (0 < jsLength targetPathTemplate) && decide (jsLength targetPathTemplate ≤ 300) &&
    text.head? != some '/' && !text.contains '\\' && !decide (['.', '.'] <:+: text)

/-- `isConverterManifest`, of the fields a dispatch reads. -/
def isConverterManifest (manifest : ConverterManifest) : Bool :=
  isSlug manifest.converterId && isSemver manifest.version && isConverterInputRule manifest.inputs &&
    !hasForbiddenConversionConfiguration manifest.configurationSchemaKeys

/-- `isConversionProfile`, of the fields a dispatch reads. -/
def isConversionProfile (profile : ConversionProfile) : Bool :=
  profile.converter.isValid && isConverterInputRule profile.input &&
    requestedOutput profile.targetPathTemplate &&
    !hasForbiddenConversionConfiguration profile.configurationKeys

end MarkorbitKnowledge.Contracts
