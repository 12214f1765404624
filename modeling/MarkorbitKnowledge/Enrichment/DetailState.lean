import MarkorbitKnowledge.Contracts.Text
import MarkorbitKnowledge.Lib.Fallible

/-!
# The life of a CNIPA detail document

`cnipa-detail-enrichment-state.ts`: the state machine of one detail document as pure functions.  An
item waits (`PENDING`, `RETRYABLE`), is leased, and moves on with the outcome of the attempt.  The
queue of `cnipa-detail-enrichment-queue.ts` keeps one row for each item.
-/

namespace MarkorbitKnowledge.Enrichment

open Contracts Fallible

inductive CnipaDocumentKind where
  | registrationExamination
  | oppositionDecision
  | reviewAdjudication
deriving DecidableEq

inductive CnipaDetailLifecycle where
  | pending
  | leased
  | fetched
  | retryable
  | permanentlyUnavailable
deriving DecidableEq

inductive CnipaDetailHoldReason where
  | authSecurity
deriving DecidableEq

/-- The integers that a JavaScript number and an `INTEGER` column both hold exactly. -/
abbrev SafeInteger := { n : Int // n.natAbs ≤ 9007199254740991 }

structure CnipaDetailLease where
  leaseId : String
  leasedAt : Timestamp
  leaseExpiresAt : Timestamp
deriving DecidableEq

@[ext] structure CnipaDetailEnrichmentItem where
  documentKind : CnipaDocumentKind
  sourceRecordId : String
  detailCanonicalUri : String
  discoveredAt : Timestamp
  lifecycle : CnipaDetailLifecycle
  holdReason : Option CnipaDetailHoldReason
  lease : Option CnipaDetailLease
  attemptCount : Nat
  lastAttemptAt : Option Timestamp
  nextAttemptAt : Option Timestamp
  lastErrorCode : Option String
  lastHttpStatus : Option SafeInteger
  lastBusinessCode : Option SafeInteger
  lastSuccessAt : Option Timestamp
  detailArtifactRef : Option String
  detailSha256 : Option String
deriving DecidableEq

structure CnipaDetailRetryPolicy where
  leaseMs : Int
  retryBaseMs : Int
  retryMaxMs : Int

def DEFAULT_CNIPA_DETAIL_RETRY_POLICY : CnipaDetailRetryPolicy where
  leaseMs := 10 * 60000
  retryBaseMs := 5 * 60000
  retryMaxMs := 24 * 60 * 60000

inductive CnipaDetailAttemptOutcome where
  | fetched (observedAt : Timestamp) (detailArtifactRef detailSha256 : String)
  | retryable (observedAt : Timestamp) (errorCode : String)
      (httpStatus businessCode : Option SafeInteger)
  | permanentlyUnavailable (observedAt : Timestamp) (errorCode : String)
      (httpStatus businessCode : Option SafeInteger)
  | authSecurityHold (observedAt : Timestamp) (errorCode : String) (httpStatus : Option SafeInteger)

inductive LaneAction where
  | «continue»
  | pauseAuthSecurity
deriving DecidableEq

structure CnipaDetailAttemptTransition where
  item : CnipaDetailEnrichmentItem
  laneAction : LaneAction
  deduplicated : Bool

/-- What the state machine throws: a `CnipaAcquisitionError` with the code `CNIPA_QUERY_INVALID`, or
    the `RangeError` of `toISOString`. -/
inductive DetailStateError where
  | queryInvalid (message : String)
  | invalidTimeValue
deriving DecidableEq

/-! ### Checked values -/

def nonEmpty (value label : String) : Except DetailStateError String := do
  require (trim value ≠ "") (.queryInvalid (label ++ " is required"))
  return trim value

/-- `iso`: an instant that `Date` can hold. -/
def iso (value : Timestamp) (label : String) : Except DetailStateError Timestamp := do
  require (isDate value) (.queryInvalid (label ++ " must be an ISO timestamp"))
  return value

/-- `new Date(base + ms).toISOString()`. -/
def later (base : Timestamp) (ms : Int) : Except DetailStateError Timestamp := do
  require (isDate (base + ms)) .invalidTimeValue
  return base + ms

def isSafeNat (n : Nat) : Bool := decide (n ≤ 9007199254740991)

def positiveSafe (value : Int) (label : String) : Except DetailStateError Unit :=
  require (value ≤ 9007199254740991 ∧ 0 < value) (.queryInvalid (label ++ " must be a positive integer"))

/-- A character that `application/x-www-form-urlencoded` leaves as it is. -/
def isFormUnreserved (c : Char) : Bool :=
  isAlnum c || c == '*' || c == '-' || c == '.' || c == '_'

def upperHexDigit (n : Nat) : Char := if n < 10 then Char.ofNat (48 + n) else Char.ofNat (55 + n)

/-- The serializer of `URLSearchParams`. -/
def formEncode (value : String) : String :=
  String.ofList (value.toList.flatMap fun c =>
    if isFormUnreserved c then [c]
    else if c = ' ' then ['+']
    else (encodeText [c]).toList.flatMap fun byte =>
      ['%', upperHexDigit (byte.toNat / 16), upperHexDigit (byte.toNat % 16)])

/-- `CNIPA_CANDIDATE_ENDPOINTS[kind].detailPath`. -/
def CnipaDocumentKind.detailPath : CnipaDocumentKind → String
  | registrationExamination => "/toas-pub-prod/pub-prod-api/pubnotice/portal/tmscJudgment/queryInfo"
  | oppositionDecision => "/toas-pub-prod/pub-prod-api/pubnotice/portal/tmyyJudgment/queryInfo"
  | reviewAdjudication => "/toas-pub-prod/pub-prod-api/pubnotice/portal/tmpsJudgment/queryInfo"

/-- The address of a detail document, its `id` parameter set. -/
def detailUri (documentKind : CnipaDocumentKind) (sourceRecordId : String) : String :=
  "https://pub.sbj.cnipa.gov.cn" ++ documentKind.detailPath ++ "?id=" ++ formEncode sourceRecordId

def cnipaDetailCanonicalUri (documentKind : CnipaDocumentKind) (sourceRecordId : String) :
    Except DetailStateError String := do
  let id ← nonEmpty sourceRecordId "sourceRecordId"
  return detailUri documentKind id

/-! ### The transitions -/

def createCnipaDetailEnrichmentItem (documentKind : CnipaDocumentKind) (sourceRecordId : String)
    (discoveredAt : Timestamp) (detailCanonicalUri : Option String) :
    Except DetailStateError CnipaDetailEnrichmentItem := do
  let sourceRecordId ← nonEmpty sourceRecordId "sourceRecordId"
  let expectedUri ← cnipaDetailCanonicalUri documentKind sourceRecordId
  require (∀ uri ∈ detailCanonicalUri, uri = "" ∨ uri = expectedUri)
    (.queryInvalid "DETAIL canonical URI does not match document kind/source record identity")
  let discoveredAt ← iso discoveredAt "discoveredAt"
  return {
    documentKind, sourceRecordId, detailCanonicalUri := expectedUri, discoveredAt
    lifecycle := .pending, holdReason := none, lease := none, attemptCount := 0
    lastAttemptAt := none, nextAttemptAt := none, lastErrorCode := none, lastHttpStatus := none
    lastBusinessCode := none, lastSuccessAt := none, detailArtifactRef := none
    detailSha256 := none }

/-- `item.nextAttemptAt === null || item.nextAttemptAt <= at`, on the texts of the instants. -/
def isDue (nextAttemptAt : Option Timestamp) (at' : Timestamp) : Bool :=
  nextAttemptAt.all fun next => decide (isoOrder next ≤ isoOrder at')

def isCnipaDetailEligible (item : CnipaDetailEnrichmentItem) (now : Timestamp) :
    Except DetailStateError Bool := do
  if item.holdReason ≠ none then return false
  if item.lifecycle ≠ .pending ∧ item.lifecycle ≠ .retryable then return false
  let now ← iso now "now"
  return isDue item.nextAttemptAt now

/-- `resolvedPolicy`, after the defaults are filled in. -/
def resolvedPolicy (policy : CnipaDetailRetryPolicy) :
    Except DetailStateError CnipaDetailRetryPolicy := do
  positiveSafe policy.leaseMs "leaseMs"
  positiveSafe policy.retryBaseMs "retryBaseMs"
  positiveSafe policy.retryMaxMs "retryMaxMs"
  require (policy.retryBaseMs ≤ policy.retryMaxMs)
    (.queryInvalid "retryMaxMs must be greater than or equal to retryBaseMs")
  return policy

def leaseCnipaDetailEnrichmentItem (item : CnipaDetailEnrichmentItem) (leaseId : String)
    (now : Timestamp) (policy : CnipaDetailRetryPolicy) :
    Except DetailStateError CnipaDetailEnrichmentItem := do
  let policy ← resolvedPolicy policy
  let now ← iso now "now"
  let eligible ← isCnipaDetailEligible item now
  require (eligible = true) (.queryInvalid "CNIPA DETAIL item is not eligible for lease")
  let leaseId ← nonEmpty leaseId "leaseId"
  let leaseExpiresAt ← later now policy.leaseMs
  return { item with lifecycle := .leased, lease := some { leaseId, leasedAt := now, leaseExpiresAt } }

/-- `item.lease.leaseExpiresAt <= at`, on the texts of the instants. -/
def isExpired (leaseExpiresAt at' : Timestamp) : Bool :=
  decide (isoOrder leaseExpiresAt ≤ isoOrder at')

def reclaimExpiredCnipaDetailLease (item : CnipaDetailEnrichmentItem) (now : Timestamp) :
    Except DetailStateError CnipaDetailEnrichmentItem :=
  match item.lifecycle, item.lease with
  | .leased, some lease => do
    let now ← iso now "now"
    if isExpired lease.leaseExpiresAt now then
      return { item with
        lifecycle := .retryable, lease := none, nextAttemptAt := some now
        lastErrorCode := some "CNIPA_DETAIL_LEASE_EXPIRED" }
    else return item
  | _, _ => return item

def releaseCnipaDetailAuthSecurityHold (item : CnipaDetailEnrichmentItem) :
    CnipaDetailEnrichmentItem :=
  if item.holdReason ≠ some .authSecurity then item
  else { item with
    holdReason := none
    lifecycle := if item.lifecycle = .pending then .pending else .retryable
    nextAttemptAt := none }

/-- `retryBaseMs * 2 ** (attempts - 1)` is exact, or too large for the minimum to be it. -/
def cnipaDetailRetryDelayMs (attemptCount : Nat) (policy : CnipaDetailRetryPolicy) :
    Except DetailStateError Int := do
  require (isSafeNat attemptCount)
    (.queryInvalid "attemptCount must be a non-negative integer")
  let resolved ← resolvedPolicy policy
  if attemptCount = 0 then return resolved.retryBaseMs
  return min (resolved.retryBaseMs * 2 ^ (attemptCount - 1)) resolved.retryMaxMs

def assertedLease (item : CnipaDetailEnrichmentItem) (leaseId : String) :
    Except DetailStateError Unit :=
  match item.lifecycle, item.lease with
  | .leased, some lease => do
    let leaseId ← nonEmpty leaseId "leaseId"
    require (lease.leaseId = leaseId)
      (.queryInvalid "CNIPA DETAIL lease id does not match the active lease")
  | _, _ => .error (.queryInvalid "CNIPA DETAIL attempt requires an active lease")

namespace CnipaDetailAttemptOutcome

def observedAt : CnipaDetailAttemptOutcome → Timestamp
  | fetched at' _ _ | retryable at' _ _ _ | permanentlyUnavailable at' _ _ _
  | authSecurityHold at' _ _ => at'

/-- `outcomeMetadata`: the last error code, HTTP status and business code. -/
def metadata : CnipaDetailAttemptOutcome →
    Option String × Option SafeInteger × Option SafeInteger
  | fetched _ _ _ => (none, none, none)
  | retryable _ errorCode httpStatus businessCode
  | permanentlyUnavailable _ errorCode httpStatus businessCode =>
    (some errorCode, httpStatus, businessCode)
  | authSecurityHold _ errorCode httpStatus => (some errorCode, httpStatus, none)

/-- The item after an attempt, as every outcome leaves it. -/
def settle (outcome : CnipaDetailAttemptOutcome) (item : CnipaDetailEnrichmentItem)
    (lifecycle : CnipaDetailLifecycle) (nextAttemptAt : Option Timestamp) :
    CnipaDetailEnrichmentItem :=
  { item with
    lifecycle, holdReason := none, lease := none, attemptCount := item.attemptCount + 1
    lastAttemptAt := some outcome.observedAt, nextAttemptAt
    lastErrorCode := outcome.metadata.1, lastHttpStatus := outcome.metadata.2.1
    lastBusinessCode := outcome.metadata.2.2 }

end CnipaDetailAttemptOutcome

def applyCnipaDetailAttemptOutcome (item : CnipaDetailEnrichmentItem) (leaseId : String)
    (outcome : CnipaDetailAttemptOutcome) (policy : CnipaDetailRetryPolicy) :
    Except DetailStateError CnipaDetailAttemptTransition := do
  assertedLease item leaseId
  let observedAt ← iso outcome.observedAt "observedAt"
  match outcome with
  | .authSecurityHold _ _ _ =>
    -- a hold does not count as an attempt
    return {
      item := { outcome.settle item .pending none with
        holdReason := some .authSecurity, attemptCount := item.attemptCount }
      laneAction := .pauseAuthSecurity, deduplicated := false }
  | .fetched _ detailArtifactRef detailSha256 => do
    let sha256 ← nonEmpty detailSha256 "detailSha256"
    let artifactRef ← nonEmpty detailArtifactRef "detailArtifactRef"
    return {
      item := { outcome.settle item .fetched none with
        lastSuccessAt := some observedAt, detailArtifactRef := some artifactRef
        detailSha256 := some sha256 }
      laneAction := .continue, deduplicated := item.detailSha256 == some sha256 }
  | .permanentlyUnavailable _ _ _ _ =>
    return {
      item := outcome.settle item .permanentlyUnavailable none
      laneAction := .continue, deduplicated := false }
  | .retryable _ _ _ _ => do
    let delay ← cnipaDetailRetryDelayMs (item.attemptCount + 1) policy
    let nextAttemptAt ← later observedAt delay
    return {
      item := outcome.settle item .retryable (some nextAttemptAt)
      laneAction := .continue, deduplicated := false }

end MarkorbitKnowledge.Enrichment
