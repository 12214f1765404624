import MarkorbitKnowledge.Contracts.Conversion

/-!
# Conversion Runtime Protocol v1

`conversion-runtime-v1.ts`: leases, attempts, grants and the reports of a conversion worker, and the
requests and capabilities a claim compares.  References and digests of tokens are the numbers they
write, as identifiers are.
-/

namespace MarkorbitKnowledge.Contracts

inductive ConversionLeaseStatus where
  | active | released | expired | superseded
deriving DecidableEq

inductive ConversionAttemptStatus where
  | claimed | started | outputReported | failed | abandoned | leaseLost
deriving DecidableEq

structure ConversionLease where
  id : Id
  workspaceId : Id
  conversionRunId : Id
  workerId : Id
  conversionAttemptId : Id
  converter : RuntimeConverterRef
  generation : Nat
  tokenReference : Id
  tokenDigest : Digest
  status : ConversionLeaseStatus
  issuedAt : Timestamp
  expiresAt : Timestamp
  renewableUntil : Timestamp
  releasedAt : Option Timestamp
  expiredAt : Option Timestamp
  supersededAt : Option Timestamp
deriving DecidableEq

/-- Why a conversion attempt failed; a worker never asks for another try. -/
structure AttemptFailure where
  code : String
  message : String
deriving DecidableEq

structure ConversionAttempt where
  id : Id
  workspaceId : Id
  conversionRunId : Id
  workerId : Id
  conversionLeaseId : Id
  ordinal : Nat
  converter : RuntimeConverterRef
  createdAt : Timestamp
  startedAt : Option Timestamp
  endedAt : Option Timestamp
  status : ConversionAttemptStatus
  outcome : Option ConversionAttemptStatus
  failure : Option AttemptFailure
  /-- `reconciliation.code`. -/
  reconciliation : Option String
deriving DecidableEq

structure RawArtifactReadGrant where
  id : Id
  workspaceId : Id
  rawArtifactId : Id
  conversionRunId : Id
  conversionAttemptId : Id
  workerId : Id
  expectedSha256 : Digest
  expectedBytes : Nat
  expectedMime : String
  accessRef : String
  issuedAt : Timestamp
  expiresAt : Timestamp
  maximumReads : Nat
  readsUsed : Nat
deriving DecidableEq

structure StagingOutputUploadGrant where
  id : Id
  workspaceId : Id
  conversionRunId : Id
  conversionAttemptId : Id
  workerId : Id
  normalizedTargetPath : String
  maximumBytes : Nat
  uploadSessionRef : String
  issuedAt : Timestamp
  expiresAt : Timestamp
deriving DecidableEq

/-- `output` of an output-ready report. -/
structure OutputEvidence where
  uploadGrantId : Id
  targetPath : String
  sha256 : Digest
  sizeBytes : Nat
deriving DecidableEq

/-- What tells the kinds of reports apart. -/
inductive RuntimeReportBody where
  | started (converter : RuntimeConverterRef)
  | progress (percent : Nat) (message : Option String)
  | outputReady (output : OutputEvidence)
  | failed (failure : AttemptFailure)
deriving DecidableEq

structure RuntimeReport where
  id : Id
  workspaceId : Id
  workerId : Id
  conversionRunId : Id
  conversionAttemptId : Id
  conversionLeaseId : Id
  leaseGeneration : Nat
  leaseTokenReference : Id
  leaseTokenDigest : Digest
  idempotencyKey : String
  occurredAt : Timestamp
  expectedCurrentStatus : ConversionRunStatus
  body : RuntimeReportBody
deriving DecidableEq

/-! ### Validators -/

/-- `str(v, n)`. -/
def isStr (s : String) (n : Nat) : Bool := decide (0 < jsLength s) && decide (jsLength s ≤ n)

/-- `SEMVER` of the runtime protocol: a version in which no word stands for a range. -/
def isExactVersion (version : String) : Bool :=
  isSemver version && !decide ("latest".toList <:+: version.toList) &&
    !decide ("any".toList <:+: version.toList)

/-- `forbidden` finds nothing in a member that is a text: no key of these documents is forbidden. -/
def isShortMember (s : String) : Bool := decide (jsLength s ≤ 2000)

/-- `converter` of the runtime protocol, as a member of a document without `forbidden` fields. -/
def RuntimeConverterRef.isExact (converter : RuntimeConverterRef) : Bool :=
  isSlug converter.converterId && isExactVersion converter.version &&
    isShortMember converter.converterId && isShortMember converter.version

/-- A control character of `/[\u0000-\u001F\u007F]/`. -/
def isControl (c : Char) : Bool := decide (c.toNat ≤ 0x1F) || c.toNat == 0x7F

/-- `path`: where the output of a conversion may be stored. -/
def isOutputPath (path : String) : Bool :=
  let text := path.toList
  let segments := text.splitOn '/'
  normalizedTargetPath path && !(decide ("vault/".toList <+: text)) && !text.any isControl &&
    !(decide (".obsidian/".toList <+: text)) &&
    !((segments.getLastD []).take ((segments.getLastD []).length - 3)).contains '.'

def isConversionLease (lease : ConversionLease) : Bool :=
  lease.converter.isExact && positiveInteger lease.generation && isRfc3339 lease.issuedAt &&
    isRfc3339 lease.expiresAt && isRfc3339 lease.renewableUntil &&
    decide (lease.issuedAt < lease.expiresAt) && decide (lease.expiresAt ≤ lease.renewableUntil) &&
    decide ([lease.releasedAt, lease.expiredAt, lease.supersededAt].reduceOption.length ≤ 1) &&
    let closedAt (instant : Option Timestamp) : Bool :=
      instant.any fun t => isRfc3339 t && decide (lease.issuedAt ≤ t)
    match lease.status with
    | .active => [lease.releasedAt, lease.expiredAt, lease.supersededAt].reduceOption.isEmpty
    | .released => closedAt lease.releasedAt
    | .expired => closedAt lease.expiredAt
    | .superseded => closedAt lease.supersededAt

def AttemptFailure.isValid (failure : AttemptFailure) : Bool :=
  isStr failure.code 100 && isStr failure.message 1000

def isConversionAttempt (attempt : ConversionAttempt) : Bool :=
  positiveInteger attempt.ordinal && attempt.converter.isExact && isRfc3339 attempt.createdAt &&
    attempt.startedAt.all isRfc3339 && attempt.endedAt.all isRfc3339 &&
    attempt.outcome.all (fun outcome => outcome != .claimed && outcome != .started) &&
    attempt.failure.all AttemptFailure.isValid && attempt.reconciliation.all (isStr · 100)

def isRawArtifactReadGrant (grant : RawArtifactReadGrant) : Bool :=
  positiveInteger grant.expectedBytes && isMimeType grant.expectedMime &&
    isShortMember grant.expectedMime && isStr grant.accessRef 200 &&
    !mentions ["secret", "bearer", "token", "password"] grant.accessRef && isRfc3339 grant.issuedAt &&
    isRfc3339 grant.expiresAt && positiveInteger grant.maximumReads && isSafeInteger grant.readsUsed &&
    decide (grant.readsUsed ≤ grant.maximumReads)

def isStagingOutputUploadGrant (grant : StagingOutputUploadGrant) : Bool :=
  isStr grant.uploadSessionRef 200 &&
    !mentions ["secret", "bearer", "token", "password", "vault"] grant.uploadSessionRef &&
    isOutputPath grant.normalizedTargetPath && positiveInteger grant.maximumBytes &&
    decide (grant.maximumBytes ≤ 5000000) && isRfc3339 grant.issuedAt && isRfc3339 grant.expiresAt

/-- What all reports are checked for. -/
def baseReport (report : RuntimeReport) : Bool :=
  positiveInteger report.leaseGeneration && isIdempotencyKey report.idempotencyKey &&
    isRfc3339 report.occurredAt

/-- The validator of the kind of report that a report is. -/
def isRuntimeReport (report : RuntimeReport) : Bool :=
  baseReport report &&
    match report.body with
    | .started converter => converter.isExact && report.expectedCurrentStatus == .pending
    | .progress percent message =>
      decide (percent ≤ 100) && message.all (isStr · 300) &&
        report.expectedCurrentStatus == .running
    | .outputReady output =>
      isOutputPath output.targetPath && positiveInteger output.sizeBytes &&
        report.expectedCurrentStatus == .running
    | .failed failure =>
      failure.isValid &&
        (report.expectedCurrentStatus == .running || report.expectedCurrentStatus == .verifying)

/-! ### Authorization -/

def isConversionLeaseActive (lease : ConversionLease) (at_ : Timestamp) : Bool :=
  lease.status == .active && decide (lease.issuedAt ≤ at_) && decide (at_ < lease.expiresAt)

def reportMatchesLease (report : RuntimeReport) (lease : ConversionLease) : Bool :=
  report.workspaceId == lease.workspaceId && report.workerId == lease.workerId &&
    report.conversionRunId == lease.conversionRunId &&
    report.conversionAttemptId == lease.conversionAttemptId && report.conversionLeaseId == lease.id &&
    report.leaseGeneration == lease.generation && report.leaseTokenReference == lease.tokenReference &&
    report.leaseTokenDigest == lease.tokenDigest

/-- `authorizeRuntimeReport(…) === "AUTHORIZED"`. -/
def authorizeRuntimeReport (report : RuntimeReport) (lease : ConversionLease)
    (currentStatus : ConversionRunStatus) (at_ : Timestamp) : Bool :=
  currentStatus != .completed && currentStatus != .failed && currentStatus != .cancelled &&
    report.expectedCurrentStatus == currentStatus && reportMatchesLease report lease &&
    isConversionLeaseActive lease at_

/-! ### Claims -/

structure ExactConverterSupport where
  converterId : String
  versions : List String
deriving DecidableEq

structure ConversionWorkerCapability where
  supportedConverters : List ExactConverterSupport
  acceptedArtifactKinds : List ArtifactKind
  acceptedMimePatterns : List String

structure ConversionClaimRequest where
  id : Id
  workspaceId : Id
  workerId : Id
  capabilityRevision : Nat
  supportedConverters : List ExactConverterSupport
  maxAcceptedWork : Nat
  idempotencyKey : String
  requestedLeaseDurationSeconds : Nat
deriving DecidableEq

/-- An entry of `converterList`, in a request without `forbidden` fields. -/
def ExactConverterSupport.isValid (support : ExactConverterSupport) : Bool :=
  isShortMember support.converterId && isSlug support.converterId && !support.versions.isEmpty &&
    decide (support.versions.length ≤ 50) && support.versions.all isExactVersion &&
    decide support.versions.Nodup

def converterList (supports : List ExactConverterSupport) : Bool :=
  !supports.isEmpty && decide (supports.length ≤ 50) && supports.all ExactConverterSupport.isValid

def isConversionClaimRequest (request : ConversionClaimRequest) : Bool :=
  positiveInteger request.capabilityRevision && decide (request.capabilityRevision ≤ 1000000) &&
    converterList request.supportedConverters && positiveInteger request.maxAcceptedWork &&
    decide (request.maxAcceptedWork ≤ 10) && isIdempotencyKey request.idempotencyKey &&
    positiveInteger request.requestedLeaseDurationSeconds &&
    decide (request.requestedLeaseDurationSeconds ≤ 3600)

/-- What a claim hands out: the lease of an attempt with its grants, or nothing. -/
inductive ConversionClaimResult where
  | noCompatibleWork
  | claimed (lease : ConversionLease) (readGrant : RawArtifactReadGrant)
      (uploadGrant : StagingOutputUploadGrant)
deriving DecidableEq

/-- `isConversionClaimResult`, of the result of a claim by this worker under this key.  The result repeats
    the converter of the lease and the input of the read grant. -/
def isConversionClaimResult (workspaceId workerId : Id) (idempotencyKey : String) :
    ConversionClaimResult → Bool
  | .noCompatibleWork => isIdempotencyKey idempotencyKey
  | .claimed lease readGrant uploadGrant =>
    isIdempotencyKey idempotencyKey && isConversionLease lease && isRawArtifactReadGrant readGrant &&
      isStagingOutputUploadGrant uploadGrant && lease.workspaceId == workspaceId &&
      lease.workerId == workerId && readGrant.workspaceId == lease.workspaceId &&
      uploadGrant.workspaceId == lease.workspaceId && readGrant.workerId == lease.workerId &&
      uploadGrant.workerId == lease.workerId && readGrant.conversionRunId == lease.conversionRunId &&
      uploadGrant.conversionRunId == lease.conversionRunId &&
      readGrant.conversionAttemptId == lease.conversionAttemptId &&
      uploadGrant.conversionAttemptId == lease.conversionAttemptId

def supportsConverter (supports : List ExactConverterSupport) (converter : RuntimeConverterRef) :
    Bool :=
  supports.any fun entry =>
    entry.converterId == converter.converterId && entry.versions.contains converter.version

def conversionCapabilitySupports (capability : ConversionWorkerCapability)
    (converter : RuntimeConverterRef) (kind : ArtifactKind) (mimeType : String) : Bool :=
  supportsConverter capability.supportedConverters converter &&
    capability.acceptedArtifactKinds.contains kind &&
    capability.acceptedMimePatterns.any fun pattern => mimePatternMatches pattern mimeType

/-! ### Target paths -/

/-- `String.prototype.replaceAll` of a non-empty text; the first argument counts the characters still
    covered by the last match. -/
def replaceFrom (pattern replacement : Text) : Nat → Text → Text
  | _, [] => []
  | covered + 1, _ :: rest => replaceFrom pattern replacement covered rest
  | 0, c :: rest =>
    if pattern <+: c :: rest then
      replacement ++ replaceFrom pattern replacement (pattern.length - 1) rest
    else c :: replaceFrom pattern replacement 0 rest

def replaceAll (text pattern replacement : Text) : Text := replaceFrom pattern replacement 0 text

/-- `replace(/\\+/g, "/")`. -/
def slashes (text : Text) : Text :=
  (text.splitBy fun c d => c == '\\' && d == '\\').flatMap fun group =>
    if group.head? == some '\\' then ['/'] else group

def normalizeStagingTargetPath (value : Text) : Option String :=
  let slashed := slashes value
  let path := String.ofList (if ['.', '/'] <+: slashed then slashed.drop 2 else slashed)
  if isOutputPath path then some path else none

end MarkorbitKnowledge.Contracts
