import MarkorbitKnowledge.Contracts.ConversionControl

/-!
# Conversion Execution Protocol v1

`conversion-execution-v1.ts`: the documents a conversion leaves behind and their validators.  A
validator keeps the tests a value of its Lean type can fail; the shape of identifiers and digests,
and the names of object fields, are part of the types.
-/

namespace MarkorbitKnowledge.Contracts

inductive ConversionRunStatus where
  | pending | running | verifying | completed | failed | cancelled
deriving DecidableEq

inductive ConversionStagingDocumentStatus where
  | generated | ready | blocked | archived
deriving DecidableEq

inductive StagingValidationOutcome where
  | pass | passWithWarnings | fail
deriving DecidableEq

inductive StagingCheckStatus where
  | pass | warn | fail
deriving DecidableEq

inductive FrontmatterValueType where
  | string | number | boolean | date | stringList | null
deriving DecidableEq

structure StagingValidationCheck where
  code : String
  status : StagingCheckStatus
  message : Option Text
deriving DecidableEq

structure FrontmatterField where
  key : Text
  valueType : FrontmatterValueType
deriving DecidableEq

structure FrontmatterSummary where
  fieldCount : Nat
  fields : List FrontmatterField
deriving DecidableEq

structure StagingValidation where
  outcome : StagingValidationOutcome
  checks : List StagingValidationCheck
  warnings : List Text
deriving DecidableEq

structure StagingDocumentDescriptor where
  id : Id
  workspaceId : Id
  sourceId : Id
  rawArtifactId : Id
  conversionRunId : Id
  title : String
  targetPath : String
  contentHash : Digest
  sizeBytes : Nat
  frontmatterSummary : FrontmatterSummary
  converter : RuntimeConverterRef
  generatedAt : Timestamp
  validation : StagingValidation
  status : ConversionStagingDocumentStatus
deriving DecidableEq

/-! ### Validators -/

/-- `Number.isSafeInteger` of a natural number. -/
def isSafeInteger (n : Nat) : Bool := decide (n ≤ 2 ^ 53 - 1)

def positiveInteger (n : Nat) : Bool := isSafeInteger n && decide (0 < n)

def isUpperAlnum (c : Char) : Bool := c.isDigit || ('A' ≤ c && c ≤ 'Z')

/-- `/^[A-Z0-9][A-Z0-9_]{1,99}$/`. -/
def isCheckCode (s : String) : Bool :=
  match s.toList with
  | c :: cs => isUpperAlnum c && decide (1 ≤ cs.length) && decide (cs.length ≤ 99) &&
      cs.all fun d => isUpperAlnum d || d == '_'
  | [] => false

def isSummaryKeyChar (c : Char) : Bool := isLowerAlnum c || c == '_' || c == '-'

/-- `/^[a-z][a-z0-9_-]{0,63}$/`. -/
def isSummaryKey : Text → Bool
  | c :: cs => ('a' ≤ c && c ≤ 'z') && decide (cs.length ≤ 63) && cs.all isSummaryKeyChar
  | [] => false

def normalizedTargetPath (path : String) : Bool :=
  let text := path.toList
  decide (0 < jsLength path) && decide (jsLength path ≤ 500) && text.head? != some '/' &&
    !text.contains '\\' && !text.contains ':' && decide (".md".toList <:+ text) &&
    (text.splitOn '/').all fun segment => segment != [] && segment != ['.'] && segment != ['.', '.']

/-- A text of 1 to 500 code units. -/
def isShortText (t : Text) : Bool := decide (0 < textLength t) && decide (textLength t ≤ 500)

def frontmatterSummary (summary : FrontmatterSummary) : Bool :=
  isSafeInteger summary.fieldCount && summary.fields.length == summary.fieldCount &&
    summary.fields.all (fun field => isSummaryKey field.key) &&
    decide (summary.fields.map (·.key)).Nodup

def validationCheck (check : StagingValidationCheck) : Bool :=
  isCheckCode check.code && check.message.all isShortText

/-- What `stagingValidation` asks of an outcome. -/
def outcomeIsValid (outcome : StagingValidationOutcome) (statuses : List StagingCheckStatus)
    (warnings : List Text) : Bool :=
  match outcome with
  | .pass => !statuses.contains .warn && !statuses.contains .fail && warnings.isEmpty
  | .passWithWarnings =>
    !statuses.contains .fail && (statuses.contains .warn || !warnings.isEmpty)
  | .fail => statuses.contains .fail

def stagingValidation (validation : StagingValidation) : Bool :=
  validation.checks.all validationCheck && validation.warnings.all isShortText &&
    outcomeIsValid validation.outcome (validation.checks.map (·.status)) validation.warnings

/-- The status of a descriptor fits the outcome of its validation. -/
def statusIsValid (status : ConversionStagingDocumentStatus) (outcome : StagingValidationOutcome) :
    Bool :=
  match status with
  | .ready => outcome != .fail
  | .blocked => outcome == .fail
  | .generated | .archived => true

def isStagingDocumentDescriptor (d : StagingDocumentDescriptor) : Bool :=
  decide (0 < jsLength (trim d.title)) && decide (jsLength d.title ≤ 200) &&
    normalizedTargetPath d.targetPath && positiveInteger d.sizeBytes &&
    frontmatterSummary d.frontmatterSummary && d.converter.isValid && isRfc3339 d.generatedAt &&
    stagingValidation d.validation && statusIsValid d.status d.validation.outcome

/-! ### Runs -/

inductive ConversionTrigger where
  | manual | autoProfile
deriving DecidableEq

inductive ConversionFailureKind where
  | inputUnavailable | converterError | outputInvalid | verificationFailed | policyRejected | timeout
  | workerError | unknown
deriving DecidableEq

structure ConversionInputEvidence where
  artifactId : Id
  artifactKind : ArtifactKind
  mimeType : String
  sha256 : Digest
  sizeBytes : Nat
deriving DecidableEq

structure ConversionFailure where
  kind : ConversionFailureKind
  code : String
  message : String
  retryable : Bool
deriving DecidableEq

structure ConversionRun where
  id : Id
  workspaceId : Id
  sourceId : Id
  rawArtifactId : Id
  conversionProfileId : Id
  conversionProfileSnapshot : ConversionProfile
  converter : RuntimeConverterRef
  converterManifestSnapshot : ConverterManifest
  input : ConversionInputEvidence
  trigger : ConversionTrigger
  idempotencyKey : String
  targetPathTemplate : String
  status : ConversionRunStatus
  createdAt : Timestamp
  updatedAt : Timestamp
  startedAt : Option Timestamp
  verifyingAt : Option Timestamp
  completedAt : Option Timestamp
  failedAt : Option Timestamp
  cancelledAt : Option Timestamp
  failure : Option ConversionFailure
  stagingDocument : Option StagingDocumentDescriptor
deriving DecidableEq

/-- `/^[A-Za-z0-9][A-Za-z0-9._:-]{0,199}$/`, the pattern of idempotency keys. -/
def isIdempotencyKey (s : String) : Bool :=
  match s.toList with
  | c :: cs => isAlnum c && decide (cs.length ≤ 199) &&
      cs.all fun d => isAlnum d || d == '.' || d == '_' || d == ':' || d == '-'
  | [] => false

/-- No character of a key is white space, so a key is trimmed already. -/
theorem trim_of_isIdempotencyKey {s : String} (h : isIdempotencyKey s = true) : trim s = s := by
  have hnospace : ∀ c : Char, (isAlnum c || c == '.' || c == '_' || c == ':' || c == '-') = true →
      isJsSpace c = false := by
    intro c hc
    simp only [Bool.or_eq_true, beq_iff_eq] at hc
    rcases hc with (((hc | rfl) | rfl) | rfl) | rfl
    · exact isJsSpace_of_isAlnum hc
    all_goals decide
  have hall : ∀ c ∈ s.toList, isJsSpace c = false := by
    intro c hc
    unfold isIdempotencyKey at h
    cases hlist : s.toList with
    | nil =>
      rw [hlist] at hc
      cases hc
    | cons first rest =>
      rw [hlist] at h hc
      simp only [Bool.and_eq_true, List.all_eq_true] at h
      rcases List.mem_cons.mp hc with rfl | hc
      · exact isJsSpace_of_isAlnum h.1.1
      · exact hnospace c (h.2 c hc)
  exact trim_eq_self (fun c hc => hall c (List.mem_of_head? hc))
    (fun c hc => hall c (List.mem_of_getLast? hc))

def ConversionFailure.isValid (f : ConversionFailure) : Bool :=
  isCheckCode f.code && decide (0 < jsLength (trim f.message)) && decide (jsLength f.message ≤ 1000)

/-- The instants of a run, in the order they have to come in. -/
def ConversionRun.instants (run : ConversionRun) : List Timestamp :=
  some run.createdAt :: [run.startedAt, run.verifyingAt,
    (run.completedAt.orElse fun _ => run.failedAt).orElse fun _ => run.cancelledAt,
    some run.updatedAt] |>.reduceOption

def timestampsOrdered (run : ConversionRun) : Bool := decide (run.instants.IsChain (· ≤ ·))

/-- Which of its optional fields a run of each status has. -/
def runLifecycle (run : ConversionRun) : Bool :=
  let noTerminal := run.completedAt.isNone && run.failedAt.isNone && run.cancelledAt.isNone &&
    run.failure.isNone && run.stagingDocument.isNone
  match run.status with
  | .pending => run.startedAt.isNone && run.verifyingAt.isNone && noTerminal
  | .running => run.startedAt.any isRfc3339 && run.verifyingAt.isNone && noTerminal
  | .verifying => run.startedAt.any isRfc3339 && run.verifyingAt.any isRfc3339 && noTerminal
  | .completed => run.startedAt.any isRfc3339 && run.verifyingAt.any isRfc3339 &&
      run.completedAt.any isRfc3339 && run.failedAt.isNone && run.cancelledAt.isNone &&
      run.failure.isNone && run.stagingDocument.any fun d =>
        isStagingDocumentDescriptor d && d.status == .ready
  | .failed => run.startedAt.any isRfc3339 && run.failedAt.any isRfc3339 &&
      run.completedAt.isNone && run.cancelledAt.isNone && run.stagingDocument.isNone &&
      run.failure.any ConversionFailure.isValid
  | .cancelled => run.startedAt.isNone && run.verifyingAt.isNone && run.completedAt.isNone &&
      run.failedAt.isNone && run.failure.isNone && run.stagingDocument.isNone &&
      run.cancelledAt.any isRfc3339

/-- `MIME_TYPE`: two names and a slash between them. -/
def isMimeType (s : String) : Bool :=
  match s.toList.splitOn '/' with
  | [type, subtype] =>
    !type.isEmpty && type.all isMimeChar && !subtype.isEmpty && subtype.all isMimeChar
  | _ => false

def inputEvidence (input : ConversionInputEvidence) : Bool :=
  isMimeType input.mimeType && positiveInteger input.sizeBytes

/-- `toLowerCase` of a character, as far as it gives a letter of a forbidden key. -/
def lowerCase (c : Char) : Char := if c.toNat = 0x212A then 'k' else c.toLower

/-- `normalizedKey`. -/
def normalizedKey (key : String) : Text :=
  (key.toList.map lowerCase).filter fun c => c != '-' && c != '_' && !isJsSpace c

def FORBIDDEN_KEYS : List String :=
  ["password", "passwd", "token", "apikey", "apisecret", "clientsecret", "privatekey", "accesskey",
    "secret", "command", "cmd", "shell", "script", "executable", "argv", "args", "markdown", "yaml",
    "body", "content", "binary"]

/-- The terms that no part of a key may be. -/
def SECRET_FAMILY : List String :=
  ["token", "password", "secret", "apikey", "privatekey", "accesskey"]

/-- `forbiddenConversionExecutionField`, by the keys of a document at every depth. -/
def forbiddenConversionExecutionField (keys : List String) : Bool :=
  keys.any fun key =>
    FORBIDDEN_KEYS.any (fun word => decide (word.toList = normalizedKey key)) ||
      SECRET_FAMILY.any fun term => decide (term.toList <:+: normalizedKey key)

/-- The snapshots of a run are valid, with no forbidden key (the other keys of a run are its own and are
    none), and the run is the one they describe. -/
def snapshotsMatch (run : ConversionRun) : Bool :=
  let profile := run.conversionProfileSnapshot
  let manifest := run.converterManifestSnapshot
  !forbiddenConversionExecutionField (profile.configurationKeys ++ manifest.configurationSchemaKeys) &&
    isConversionProfile profile && isConverterManifest manifest &&
    run.conversionProfileId == profile.id && run.workspaceId == profile.workspaceId &&
    profile.sourceId.all (run.sourceId == ·) && profile.status == .active &&
    run.converter == profile.converter && run.converter.converterId == manifest.converterId &&
    run.converter.version == manifest.version && manifest.status == .active &&
    profile.input.accepts run.input.artifactKind run.input.mimeType &&
    converterAccepts manifest run.input.artifactKind run.input.mimeType &&
    run.targetPathTemplate == profile.targetPathTemplate

def isConversionRun (run : ConversionRun) : Bool :=
  snapshotsMatch run && run.converter.isValid && inputEvidence run.input &&
    requestedOutput run.targetPathTemplate && run.rawArtifactId == run.input.artifactId && isIdempotencyKey run.idempotencyKey &&
    isRfc3339 run.createdAt && isRfc3339 run.updatedAt && timestampsOrdered run &&
    runLifecycle run &&
    run.stagingDocument.all fun d => isStagingDocumentDescriptor d && d.conversionRunId == run.id &&
      d.workspaceId == run.workspaceId && d.sourceId == run.sourceId &&
      d.rawArtifactId == run.rawArtifactId && d.converter == run.converter

def canTransitionConversionRun (source : Option ConversionRunStatus) (target : ConversionRunStatus) :
    Bool :=
  match source with
  | none => target == .pending
  | some .pending => target == .running || target == .cancelled
  | some .running => target == .running || target == .verifying || target == .failed
  | some .verifying => target == .completed || target == .failed
  | some .completed | some .failed | some .cancelled => false

/-! ### Events -/

inductive ConversionActorType where
  | admin | system | worker
deriving DecidableEq

structure ConversionActor where
  type : ConversionActorType
  id : String
deriving DecidableEq

inductive ConversionEventType where
  | created | started | progressReported | verificationStarted | completed | failed | cancelled
deriving DecidableEq

/-- Which of `progress`, `verification`, `completion` and `failure` an event has. -/
inductive EventPayload where
  | empty
  | progress (percent : Nat)
  | verification (checkCount warningCount : Nat)
  | completion (stagingDocumentId : Id) (contentHash : Digest) (sizeBytes : Nat)
  | failure (failure : ConversionFailure)
deriving DecidableEq

structure ConversionExecutionEvent where
  id : Id
  runId : Id
  sequence : Nat
  eventType : ConversionEventType
  previousStatus : Option ConversionRunStatus
  resultingStatus : ConversionRunStatus
  occurredAt : Timestamp
  actor : ConversionActor
  message : Option String
  payload : EventPayload
deriving DecidableEq

/-- `/^[A-Za-z0-9][A-Za-z0-9._:-]{0,119}$/`. -/
def isActorId (s : String) : Bool :=
  match s.toList with
  | c :: cs => isAlnum c && decide (cs.length ≤ 119) &&
      cs.all fun d => isAlnum d || d == '.' || d == '_' || d == ':' || d == '-'
  | [] => false

/-- `/^wrk_[0-9A-HJKMNP-TV-Z]{26}$/`. -/
def isWorkerId (s : String) : Bool :=
  decide ("wrk_".toList <+: s.toList) && decide (s.toList.length = 30) &&
    (s.toList.drop 4).all fun c => decide (c ∈ CROCKFORD)

def ConversionActor.isValid (actor : ConversionActor) : Bool :=
  isActorId actor.id && (actor.type != .worker || isWorkerId actor.id)

/-- The statuses that an event of each type leads from and to. -/
def eventTransition : ConversionEventType → Option ConversionRunStatus → ConversionRunStatus → Bool
  | .created, none, .pending => true
  | .started, some .pending, .running => true
  | .progressReported, some .running, .running => true
  | .verificationStarted, some .running, .verifying => true
  | .completed, some .verifying, .completed => true
  | .failed, some .running, .failed => true
  | .failed, some .verifying, .failed => true
  | .cancelled, some .pending, .cancelled => true
  | _, _, _ => false

def eventPayload : ConversionEventType → EventPayload → Bool
  | .created, .empty | .started, .empty | .cancelled, .empty => true
  | .progressReported, .progress percent => decide (percent ≤ 100)
  | .verificationStarted, .verification checkCount warningCount =>
    isSafeInteger checkCount && isSafeInteger warningCount
  | .completed, .completion _ _ sizeBytes => positiveInteger sizeBytes
  | .failed, .failure failure => failure.isValid
  | _, _ => false

def isConversionExecutionEvent (event : ConversionExecutionEvent) : Bool :=
  positiveInteger event.sequence &&
    canTransitionConversionRun event.previousStatus event.resultingStatus &&
    eventTransition event.eventType event.previousStatus event.resultingStatus &&
    isRfc3339 event.occurredAt && event.actor.isValid &&
    (event.message.all fun message =>
      decide (0 < jsLength message) && decide (jsLength message ≤ 500)) &&
    eventPayload event.eventType event.payload

end MarkorbitKnowledge.Contracts
