import MarkorbitKnowledge.Enrichment.DetailState
import MarkorbitKnowledge.Execution.Store
import MarkorbitKnowledge.Lib.Tables
import MarkorbitKnowledge.Lib.Transitions
import Mathlib.Data.List.MinMax

/-!
# The queue of detail documents

`cnipa-detail-enrichment-queue.ts`: the two tables of the repository and its calls.  A row of
`cnipa_detail_enrichment_queue` is the record the repository returns for it; the lane of a workspace
is its row of `cnipa_detail_lane_governance`.  Instants are compared as the texts that are stored.
A parameter that defaults to the clock, or to the usual lease, is given its value by the caller.
-/

namespace MarkorbitKnowledge.Enrichment

open Contracts Fallible Tables
open Execution (RegistryError)

structure CnipaDetailQueueRecord where
  workspaceId : Id
  documentKind : CnipaDocumentKind
  sourceRecordId : String
  detailCanonicalUri : String
  firstListArtifactRef : String
  lastListArtifactRef : String
  discoveredAt : Timestamp
  lastObservedAt : Timestamp
  observationCount : Nat
  lifecycle : CnipaDetailLifecycle
  holdReason : Option CnipaDetailHoldReason
  leaseId : Option String
  leasedAt : Option Timestamp
  leaseExpiresAt : Option Timestamp
  attemptCount : Nat
  lastAttemptAt : Option Timestamp
  nextAttemptAt : Option Timestamp
  lastErrorCode : Option String
  lastHttpStatus : Option SafeInteger
  lastBusinessCode : Option SafeInteger
  lastSuccessAt : Option Timestamp
  detailArtifactRef : Option String
  detailSha256 : Option String
  createdAt : Timestamp
  updatedAt : Timestamp
deriving DecidableEq

abbrev DetailIdentity := Id × CnipaDocumentKind × String

instance : Keyed CnipaDetailQueueRecord DetailIdentity where
  key row := (row.workspaceId, row.documentKind, row.sourceRecordId)

@[simp] theorem key_queueRecord (row : CnipaDetailQueueRecord) :
    key row = (row.workspaceId, row.documentKind, row.sourceRecordId) := rfl

/-- A row of `cnipa_detail_lane_governance`. -/
structure LaneRow where
  workspaceId : Id
  budgetWindowKey : String
  requestCount : Nat
  lastRequestAt : Option Timestamp
  updatedAt : Timestamp
deriving DecidableEq

instance : Keyed LaneRow Id where
  key lane := lane.workspaceId

@[simp] theorem key_laneRow (lane : LaneRow) : key lane = lane.workspaceId := rfl

inductive WorkspaceStatus where
  | active
  | suspended
  | archived
deriving DecidableEq

def WorkspaceStatus.text : WorkspaceStatus → String
  | active => "ACTIVE"
  | suspended => "SUSPENDED"
  | archived => "ARCHIVED"

/-- A row of `workspaces`, as far as a call asks for it. -/
structure WorkspaceRow where
  id : Id
  status : WorkspaceStatus

instance : Keyed WorkspaceRow Id where
  key row := row.id

structure QueueState where
  workspaces : List WorkspaceRow
  rows : List CnipaDetailQueueRecord
  lanes : List LaneRow

/-! ### Inputs -/

structure AdmitCnipaDetailPointerInput where
  workspaceId : Id
  documentKind : CnipaDocumentKind
  sourceRecordId : String
  detailCanonicalUri : String
  listArtifactRef : String
  observedAt : Timestamp

structure ClaimCnipaDetailInput where
  workspaceId : Id
  leaseId : String
  now : Timestamp
  leaseMs : Int

structure ClaimGovernedCnipaDetailInput extends ClaimCnipaDetailInput where
  budgetWindowKey : String
  minIntervalMs : Int
  maxRequestsPerBudgetWindow : Int

structure PersistCnipaDetailAttemptTransitionInput where
  workspaceId : Id
  documentKind : CnipaDocumentKind
  sourceRecordId : String
  expectedLeaseId : String
  lifecycle : CnipaDetailLifecycle
  notLeased : lifecycle ≠ .leased
  holdReason : Option CnipaDetailHoldReason
  attemptCount : Int
  lastAttemptAt : Option Timestamp
  nextAttemptAt : Option Timestamp
  lastErrorCode : Option String
  lastHttpStatus : Option SafeInteger
  lastBusinessCode : Option SafeInteger
  lastSuccessAt : Option Timestamp
  detailArtifactRef : Option String
  detailSha256 : Option String

structure ReleaseCnipaDetailAuthSecurityHoldInput where
  workspaceId : Id
  documentKind : CnipaDocumentKind
  sourceRecordId : String

inductive ClaimGovernedCnipaDetailResult where
  | claimed (record : CnipaDetailQueueRecord) (budgetWindowKey : String) (requestCount : Nat)
  | pacingBlocked (budgetWindowKey : String) (requestCount : Nat) (nextEligibleAt : Timestamp)
  | budgetExhausted (budgetWindowKey : String) (requestCount : Nat)
  | empty (budgetWindowKey : String) (requestCount : Nat)

/-! ### Checked values -/

def required (value label : String) : Except RegistryError String := do
  require (trim value ≠ "") (.validation (label ++ " is required"))
  return trim value

def timestamp (value : Timestamp) (label : String) : Except RegistryError Timestamp := do
  require (isDate value) (.validation (label ++ " must be an ISO timestamp"))
  return value

def normalizeNullableTime (value : Option Timestamp) (label : String) :
    Except RegistryError (Option Timestamp) :=
  value.mapM fun time => timestamp time label

/-- `new Date(Date.parse(base) + ms).toISOString()`. -/
def shifted (base : Timestamp) (ms : Int) : Except RegistryError Timestamp := do
  require (isDate (base + ms)) .invalidTimeValue
  return base + ms

def nonNegativeIntegerBounded (value : Int) (label : String) (maximum : Int) :
    Except RegistryError Unit :=
  require (0 ≤ value ∧ value ≤ maximum)
    (.validation (label ++ " must be an integer in 0.." ++ toString maximum))

def positiveIntegerBounded (value : Int) (label : String) (maximum : Int) :
    Except RegistryError Unit :=
  require (0 < value ∧ value ≤ maximum)
    (.validation (label ++ " must be an integer in 1.." ++ toString maximum))

/-- `/^[a-f0-9]{64}$/`. -/
def isSha256Text (s : String) : Bool :=
  decide (s.toList.length = 64) && s.toList.all fun c => c.isDigit || ('a' ≤ c && c ≤ 'f')

def cnipaDetailQueueCanonicalUri (kind : CnipaDocumentKind) (sourceRecordIdRaw : String) :
    Except RegistryError String := do
  let sourceRecordId ← required sourceRecordIdRaw "sourceRecordId"
  return detailUri kind sourceRecordId

namespace QueueState

def assertWorkspaceActive (s : QueueState) (workspaceId : Id) : Except RegistryError Unit := do
  let workspace ← orThrow (find? s.workspaces workspaceId)
    (.registry "WORKSPACE_NOT_FOUND" ("Workspace " ++ idText "wsp" workspaceId ++ " was not found"))
  require (workspace.status = .active)
    (.conflict "WORKSPACE_NOT_ACTIVE"
      ("Workspace " ++ idText "wsp" workspaceId ++ " is " ++ workspace.status.text))

def getByIdentity (s : QueueState) (workspaceId : Id) (kind : CnipaDocumentKind)
    (sourceRecordId : String) : Option CnipaDetailQueueRecord :=
  find? s.rows (workspaceId, kind, sourceRecordId)

end QueueState

/-! ### Admission -/

def newRecord (input : AdmitCnipaDetailPointerInput) (sourceRecordId detailCanonicalUri
    listArtifactRef : String) (now : Timestamp) : CnipaDetailQueueRecord where
  workspaceId := input.workspaceId
  documentKind := input.documentKind
  sourceRecordId := sourceRecordId
  detailCanonicalUri := detailCanonicalUri
  firstListArtifactRef := listArtifactRef
  lastListArtifactRef := listArtifactRef
  discoveredAt := input.observedAt
  lastObservedAt := input.observedAt
  observationCount := 1
  lifecycle := .pending
  holdReason := none
  leaseId := none
  leasedAt := none
  leaseExpiresAt := none
  attemptCount := 0
  lastAttemptAt := none
  nextAttemptAt := none
  lastErrorCode := none
  lastHttpStatus := none
  lastBusinessCode := none
  lastSuccessAt := none
  detailArtifactRef := none
  detailSha256 := none
  createdAt := now
  updatedAt := now

/-- A row that was observed once more. -/
def observedAgain (existing : CnipaDetailQueueRecord) (observedAt : Timestamp)
    (listArtifactRef : String) (now : Timestamp) : CnipaDetailQueueRecord :=
  let isNewestObservation := decide (isoOrder existing.lastObservedAt ≤ isoOrder observedAt)
  { existing with
    lastObservedAt := if isNewestObservation then observedAt else existing.lastObservedAt
    lastListArtifactRef :=
      if isNewestObservation then listArtifactRef else existing.lastListArtifactRef
    observationCount := existing.observationCount + 1
    updatedAt := now }

def admitDetailPointer (input : AdmitCnipaDetailPointerInput) (now : Timestamp) (s : QueueState) :
    Except RegistryError (CnipaDetailQueueRecord × QueueState) := do
  s.assertWorkspaceActive input.workspaceId
  let sourceRecordId ← required input.sourceRecordId "sourceRecordId"
  let detailCanonicalUri ← required input.detailCanonicalUri "detailCanonicalUri"
  let expectedUri ← cnipaDetailQueueCanonicalUri input.documentKind sourceRecordId
  require (detailCanonicalUri = expectedUri)
    (.conflict "CNIPA_DETAIL_IDENTITY_MISMATCH"
      "DETAIL URI does not match the CNIPA document-kind/source-record identity")
  let listArtifactRef ← required input.listArtifactRef "listArtifactRef"
  let observedAt ← timestamp input.observedAt "observedAt"
  match s.getByIdentity input.workspaceId input.documentKind sourceRecordId with
  | some existing => do
    require (existing.detailCanonicalUri = detailCanonicalUri)
      (.conflict "CNIPA_DETAIL_IDENTITY_MISMATCH"
        "Persisted DETAIL URI conflicts with the admitted pointer")
    let row := observedAgain existing observedAt listArtifactRef now
    return (row, { s with rows := update s.rows row })
  | none =>
    let row := newRecord input sourceRecordId detailCanonicalUri listArtifactRef now
    return (row, { s with rows := s.rows ++ [row] })

/-! ### Claims -/

/-- A row of the workspace gives its lease back if that ran out. -/
def reclaimedRow (workspaceId : Id) (now : Timestamp) (row : CnipaDetailQueueRecord) :
    CnipaDetailQueueRecord :=
  if row.workspaceId = workspaceId ∧ row.lifecycle = .leased ∧
      row.leaseExpiresAt.any (fun expiresAt => isExpired expiresAt now) = true then
    { row with
      lifecycle := .retryable, leaseId := none, leasedAt := none, leaseExpiresAt := none
      nextAttemptAt := some now, lastErrorCode := some "CNIPA_DETAIL_LEASE_EXPIRED"
      updatedAt := now }
  else row

def reclaimExpired (workspaceId : Id) (now : Timestamp) (rows : List CnipaDetailQueueRecord) :
    List CnipaDetailQueueRecord :=
  rows.map (reclaimedRow workspaceId now)

/-- The condition under which a claim selects and leases a row. -/
def isClaimable (workspaceId : Id) (now : Timestamp) (row : CnipaDetailQueueRecord) : Bool :=
  decide (row.workspaceId = workspaceId) &&
    (decide (row.lifecycle = .pending) || decide (row.lifecycle = .retryable)) &&
    decide (row.holdReason = none) && isDue row.nextAttemptAt now

/-- The text of a document kind. -/
def CnipaDocumentKind.text : CnipaDocumentKind → String
  | registrationExamination => "REGISTRATION_EXAMINATION"
  | oppositionDecision => "OPPOSITION_DECISION"
  | reviewAdjudication => "REVIEW_ADJUDICATION"

/-- `ORDER BY` of the claims. -/
def claimOrder (row : CnipaDetailQueueRecord) :
    Nat ×ₗ (Nat ×ₗ Int ×ₗ Timestamp) ×ₗ (Nat ×ₗ Int ×ₗ Timestamp) ×ₗ Text ×ₗ Text :=
  let rest := toLex (isoOrder row.discoveredAt,
    toLex (row.documentKind.text.toList, row.sourceRecordId.toList))
  match row.nextAttemptAt with
  | none => toLex (0, toLex (isoOrder 0, rest))
  | some nextAttemptAt => toLex (1, toLex (isoOrder nextAttemptAt, rest))

def nextCandidate (workspaceId : Id) (now : Timestamp) (rows : List CnipaDetailQueueRecord) :
    Option CnipaDetailQueueRecord :=
  (rows.filter (isClaimable workspaceId now)).argmin claimOrder

def leasedRow (row : CnipaDetailQueueRecord) (leaseId : String) (now leaseExpiresAt : Timestamp) :
    CnipaDetailQueueRecord :=
  { row with
    lifecycle := .leased, leaseId := some leaseId, leasedAt := some now
    leaseExpiresAt := some leaseExpiresAt, updatedAt := now }

def MAX_LEASE_MS : Int := 24 * 60 * 60000

def claimNext (input : ClaimCnipaDetailInput) (s : QueueState) :
    Except RegistryError (Option CnipaDetailQueueRecord × QueueState) := do
  s.assertWorkspaceActive input.workspaceId
  let leaseId ← required input.leaseId "leaseId"
  let now ← timestamp input.now "now"
  require (0 < input.leaseMs ∧ input.leaseMs ≤ MAX_LEASE_MS)
    (.validation "leaseMs must be an integer in 1..86400000")
  let leaseExpiresAt ← shifted now input.leaseMs
  let rows := reclaimExpired input.workspaceId now s.rows
  match nextCandidate input.workspaceId now rows with
  | none => return (none, { s with rows })
  | some candidate =>
    -- the candidate was read in the same transaction: the guarded update changes its row
    let row := leasedRow candidate leaseId now leaseExpiresAt
    return (some row, { s with rows := update rows row })

def upsertLane (lanes : List LaneRow) (lane : LaneRow) : List LaneRow :=
  if (find? lanes lane.workspaceId).isSome then update lanes lane else lanes ++ [lane]

/-- The requests already made in a budget window: the lane only knows the window it was last used
    in. -/
def windowRequests (lane : Option LaneRow) (budgetWindowKey : String) : Nat :=
  match lane with
  | some lane => if lane.budgetWindowKey = budgetWindowKey then lane.requestCount else 0
  | none => 0

/-- `nextEligibleAt`, where the lane was used before and there is an interval to keep. -/
def nextEligible (lane : Option LaneRow) (minIntervalMs : Int) :
    Except RegistryError (Option Timestamp) :=
  match lane.bind (·.lastRequestAt) with
  | some lastRequestAt =>
    if 0 < minIntervalMs then some <$> shifted lastRequestAt minIntervalMs else return none
  | none => return none

def claimNextGoverned (input : ClaimGovernedCnipaDetailInput) (s : QueueState) :
    Except RegistryError (ClaimGovernedCnipaDetailResult × QueueState) := do
  s.assertWorkspaceActive input.workspaceId
  let leaseId ← required input.leaseId "leaseId"
  let budgetWindowKey ← required input.budgetWindowKey "budgetWindowKey"
  require (jsLength budgetWindowKey ≤ 128)
    (.validation "budgetWindowKey must be at most 128 characters")
  let now ← timestamp input.now "now"
  positiveIntegerBounded input.leaseMs "leaseMs" MAX_LEASE_MS
  nonNegativeIntegerBounded input.minIntervalMs "minIntervalMs" MAX_LEASE_MS
  positiveIntegerBounded input.maxRequestsPerBudgetWindow "maxRequestsPerBudgetWindow" 100000
  let leaseExpiresAt ← shifted now input.leaseMs
  let rows := reclaimExpired input.workspaceId now s.rows
  let lane := find? s.lanes input.workspaceId
  let requestCount := windowRequests lane budgetWindowKey
  let nextEligibleAt ← nextEligible lane input.minIntervalMs
  if nextEligibleAt.any (fun next => decide (isoOrder now < isoOrder next)) = true then
    return (.pacingBlocked budgetWindowKey requestCount (nextEligibleAt.getD now), { s with rows })
  if input.maxRequestsPerBudgetWindow ≤ requestCount then
    return (.budgetExhausted budgetWindowKey requestCount, { s with rows })
  match nextCandidate input.workspaceId now rows with
  | none => return (.empty budgetWindowKey requestCount, { s with rows })
  | some candidate =>
    -- the candidate was read in the same transaction: one row changes, and it is there afterwards
    let row := leasedRow candidate leaseId now leaseExpiresAt
    let lane : LaneRow := {
      workspaceId := input.workspaceId, budgetWindowKey, requestCount := requestCount + 1
      lastRequestAt := some now, updatedAt := now }
    return (.claimed row budgetWindowKey (requestCount + 1),
      { s with rows := update rows row, lanes := upsertLane s.lanes lane })

/-! ### Transitions of a leased row -/

def transitionedRow (input : PersistCnipaDetailAttemptTransitionInput)
    (current : CnipaDetailQueueRecord) (now : Timestamp) : CnipaDetailQueueRecord :=
  { current with
    lifecycle := input.lifecycle, holdReason := input.holdReason
    leaseId := none, leasedAt := none, leaseExpiresAt := none
    attemptCount := input.attemptCount.toNat, lastAttemptAt := input.lastAttemptAt
    nextAttemptAt := input.nextAttemptAt, lastErrorCode := input.lastErrorCode
    lastHttpStatus := input.lastHttpStatus, lastBusinessCode := input.lastBusinessCode
    lastSuccessAt := input.lastSuccessAt
    detailArtifactRef := (input.detailArtifactRef.map trim).filter (· ≠ "")
    detailSha256 := input.detailSha256, updatedAt := now }

def persistAttemptTransition (input : PersistCnipaDetailAttemptTransitionInput) (now : Timestamp)
    (s : QueueState) : Except RegistryError (CnipaDetailQueueRecord × QueueState) := do
  let sourceRecordId ← required input.sourceRecordId "sourceRecordId"
  let expectedLeaseId ← required input.expectedLeaseId "expectedLeaseId"
  let current ← orThrow (s.getByIdentity input.workspaceId input.documentKind sourceRecordId)
    (.conflict "CNIPA_DETAIL_QUEUE_ITEM_NOT_FOUND" "CNIPA DETAIL queue item was not found")
  require (current.lifecycle = .leased ∧ current.leaseId = some expectedLeaseId)
    (.conflict "CNIPA_DETAIL_STALE_LEASE"
      "CNIPA DETAIL transition does not own the active queue lease")
  require (0 ≤ input.attemptCount ∧ input.attemptCount ≤ 9007199254740991)
    (.validation "attemptCount must be a non-negative integer")
  require (current.attemptCount ≤ input.attemptCount)
    (.conflict "CNIPA_DETAIL_ATTEMPT_REGRESSION"
      "CNIPA DETAIL transition cannot reduce attemptCount")
  require (input.lifecycle = .fetched → input.detailArtifactRef.any (fun r => trim r ≠ "") = true ∧
      isSha256Text (input.detailSha256.getD "") = true)
    (.validation "FETCHED CNIPA DETAIL transition requires artifact ref and SHA-256")
  require (input.lifecycle = .fetched → input.lastSuccessAt.isSome = true)
    (.validation "FETCHED CNIPA DETAIL transition requires lastSuccessAt")
  require (input.holdReason = some .authSecurity → input.lifecycle = .pending)
    (.validation "AUTH_SECURITY hold requires PENDING lifecycle")
  let _ ← normalizeNullableTime input.lastAttemptAt "lastAttemptAt"
  let _ ← normalizeNullableTime input.nextAttemptAt "nextAttemptAt"
  let _ ← normalizeNullableTime input.lastSuccessAt "lastSuccessAt"
  -- the row still carries the lease that was just read: the guarded update changes it
  let row := transitionedRow input current now
  return (row, { s with rows := update s.rows row })

def releaseAuthSecurityHold (input : ReleaseCnipaDetailAuthSecurityHoldInput) (now : Timestamp)
    (s : QueueState) : Except RegistryError (CnipaDetailQueueRecord × QueueState) := do
  let sourceRecordId ← required input.sourceRecordId "sourceRecordId"
  let current ← orThrow (s.getByIdentity input.workspaceId input.documentKind sourceRecordId)
    (.conflict "CNIPA_DETAIL_QUEUE_ITEM_NOT_FOUND" "CNIPA DETAIL queue item was not found")
  require (current.holdReason = some .authSecurity ∧ current.leaseId = none)
    (.conflict "CNIPA_DETAIL_AUTH_HOLD_NOT_ACTIVE"
      "CNIPA DETAIL item does not have a releasable auth/security hold")
  let row := { current with holdReason := none, nextAttemptAt := none, updatedAt := now }
  return (row, { s with rows := update s.rows row })

/-! ### Runs -/

/-- A call of the repository, with the reading of the clock where it takes one, or a change of the
    workspaces by somebody else. -/
inductive QueueCall where
  | admitDetailPointer (input : AdmitCnipaDetailPointerInput) (now : Timestamp)
  | claimNext (input : ClaimCnipaDetailInput)
  | claimNextGoverned (input : ClaimGovernedCnipaDetailInput)
  | persistAttemptTransition (input : PersistCnipaDetailAttemptTransitionInput) (now : Timestamp)
  | releaseAuthSecurityHold (input : ReleaseCnipaDetailAuthSecurityHoldInput) (now : Timestamp)
  | setWorkspaces (workspaces : List WorkspaceRow)

/-- What a call leaves behind.  It runs in one transaction, or changes one row. -/
def QueueCall.perform (s : QueueState) : QueueCall → QueueState
  | admitDetailPointer input now => (commit (Enrichment.admitDetailPointer input now) s).2
  | claimNext input => (commit (Enrichment.claimNext input) s).2
  | claimNextGoverned input => (commit (Enrichment.claimNextGoverned input) s).2
  | persistAttemptTransition input now =>
    (commit (Enrichment.persistAttemptTransition input now) s).2
  | releaseAuthSecurityHold input now =>
    (commit (Enrichment.releaseAuthSecurityHold input now) s).2
  | setWorkspaces workspaces => { s with workspaces }

def queue : Transitions.Machine QueueState QueueCall where
  init := { workspaces := [], rows := [], lanes := [] }
  step := QueueCall.perform

end MarkorbitKnowledge.Enrichment
