import MarkorbitKnowledge.Enrichment.QueueRows

/-!
# The queue follows the state machine

A row of the queue is an item of the state machine together with where and when it was seen.  Each
call is compared with the pure transitions: a claim gives back every lease of the workspace that ran
out, as `reclaimExpiredCnipaDetailLease` does, and leases the row it returns; a transition stores
what it is given, which is the outcome the state machine produces whenever the caller passes it on.
-/

namespace MarkorbitKnowledge.Enrichment

open Contracts Fallible Tables
open Execution (RegistryError)

/-! ### The items of the queue -/

/-- An item and the workspace it belongs to. -/
structure WorkspaceItem where
  workspaceId : Id
  item : CnipaDetailEnrichmentItem

instance : Keyed WorkspaceItem DetailIdentity where
  key e := (e.workspaceId, e.item.documentKind, e.item.sourceRecordId)

@[simp] theorem key_workspaceItem (e : WorkspaceItem) :
    key e = (e.workspaceId, e.item.documentKind, e.item.sourceRecordId) := rfl

def CnipaDetailQueueRecord.workspaceItem (row : CnipaDetailQueueRecord) : WorkspaceItem :=
  { workspaceId := row.workspaceId, item := row.item }

/-- The items of the queue. -/
def itemsOf (rows : List CnipaDetailQueueRecord) : List WorkspaceItem :=
  rows.map CnipaDetailQueueRecord.workspaceItem

theorem itemsOf_update (rows : List CnipaDetailQueueRecord) (row : CnipaDetailQueueRecord) :
    itemsOf (update rows row) = update (itemsOf rows) row.workspaceItem :=
  map_update CnipaDetailQueueRecord.workspaceItem (fun _ => rfl) rows row

/-- What the update of a transition does to an item. -/
def persistedItem (input : PersistCnipaDetailAttemptTransitionInput)
    (item : CnipaDetailEnrichmentItem) : CnipaDetailEnrichmentItem :=
  { item with
    lifecycle := input.lifecycle, holdReason := input.holdReason, lease := none
    attemptCount := input.attemptCount.toNat, lastAttemptAt := input.lastAttemptAt
    nextAttemptAt := input.nextAttemptAt, lastErrorCode := input.lastErrorCode
    lastHttpStatus := input.lastHttpStatus, lastBusinessCode := input.lastBusinessCode
    lastSuccessAt := input.lastSuccessAt
    detailArtifactRef := (input.detailArtifactRef.map trim).filter (· ≠ "")
    detailSha256 := input.detailSha256 }

/-- `transitionInput` of the worker: how an item that is no longer leased is handed to the queue. -/
def transitionInput (workspaceId : Id) (leaseId : String) (item : CnipaDetailEnrichmentItem)
    (notLeased : item.lifecycle ≠ .leased) : PersistCnipaDetailAttemptTransitionInput where
  workspaceId := workspaceId
  documentKind := item.documentKind
  sourceRecordId := item.sourceRecordId
  expectedLeaseId := leaseId
  lifecycle := item.lifecycle
  notLeased := notLeased
  holdReason := item.holdReason
  attemptCount := item.attemptCount
  lastAttemptAt := item.lastAttemptAt
  nextAttemptAt := item.nextAttemptAt
  lastErrorCode := item.lastErrorCode
  lastHttpStatus := item.lastHttpStatus
  lastBusinessCode := item.lastBusinessCode
  lastSuccessAt := item.lastSuccessAt
  detailArtifactRef := item.detailArtifactRef
  detailSha256 := item.detailSha256

/-! ### What each call does to the items -/

/-- An admission changes no item, or appends the one the state machine creates. -/
def Admits (input : AdmitCnipaDetailPointerInput) (items : List WorkspaceItem)
    (row : CnipaDetailQueueRecord) (items' : List WorkspaceItem) : Prop :=
  (items' = items ∧ row.workspaceItem ∈ items) ∨
    (∀ e ∈ items, key e ≠ key row.workspaceItem) ∧
      row.workspaceId = input.workspaceId ∧
      createCnipaDetailEnrichmentItem input.documentKind input.sourceRecordId input.observedAt
        (some (trim input.detailCanonicalUri)) = .ok row.item ∧
      items' = items ++ [row.workspaceItem]

/-- An item of the workspace gives back a lease that ran out; the others stay. -/
def Reclaims (workspaceId : Id) (now : Timestamp) (e e' : WorkspaceItem) : Prop :=
  e'.workspaceId = e.workspaceId ∧
    (e.workspaceId = workspaceId → reclaimExpiredCnipaDetailLease e.item now = .ok e'.item) ∧
    (e.workspaceId ≠ workspaceId → e' = e)

/-- A claim gives back the leases that ran out, and leases the item it returns, if any. -/
def Claims (input : ClaimCnipaDetailInput) (items : List WorkspaceItem) :
    Option CnipaDetailQueueRecord → List WorkspaceItem → Prop
  | none, items' => List.Forall₂ (Reclaims input.workspaceId input.now) items items'
  | some row, items' => ∃ reclaimed,
    List.Forall₂ (Reclaims input.workspaceId input.now) items reclaimed ∧
      ∃ e ∈ reclaimed, e.workspaceId = input.workspaceId ∧ key e = key row ∧
        leaseCnipaDetailEnrichmentItem e.item input.leaseId input.now
          { DEFAULT_CNIPA_DETAIL_RETRY_POLICY with leaseMs := input.leaseMs } = .ok row.item ∧
        items' = update reclaimed row.workspaceItem

/-- A transition moves the item that holds the lease to what it is given. -/
def Persists (input : PersistCnipaDetailAttemptTransitionInput) (items : List WorkspaceItem)
    (row : CnipaDetailQueueRecord) (items' : List WorkspaceItem) : Prop :=
  ∃ e ∈ items, key e = (input.workspaceId, input.documentKind, trim input.sourceRecordId) ∧
    (∃ lease, e.item.lease = some lease ∧ lease.leaseId = trim input.expectedLeaseId) ∧
    row.workspaceId = input.workspaceId ∧ row.item = persistedItem input e.item ∧
    items' = update items row.workspaceItem

def Releases (input : ReleaseCnipaDetailAuthSecurityHoldInput) (items : List WorkspaceItem)
    (row : CnipaDetailQueueRecord) (items' : List WorkspaceItem) : Prop :=
  ∃ e ∈ items, key e = (input.workspaceId, input.documentKind, trim input.sourceRecordId) ∧
    e.item.holdReason = some .authSecurity ∧ row.workspaceId = input.workspaceId ∧
    row.item = releaseCnipaDetailAuthSecurityHold e.item ∧ items' = update items row.workspaceItem

/-- A call that throws leaves the queue as it was; one that returns does what `P` says. -/
def Performs {α : Type} (body : QueueState → Except RegistryError (α × QueueState))
    (s after : QueueState) (P : α → List WorkspaceItem → Prop) : Prop :=
  (∃ e, body s = .error e ∧ after = s) ∨ ∃ a, body s = .ok (a, after) ∧ P a (itemsOf after.rows)

/-- What a call does, by the transitions of the state machine. -/
def Refines (s : QueueState) : QueueCall → QueueState → Prop
  | .admitDetailPointer input now, after =>
    Performs (Enrichment.admitDetailPointer input now) s after (Admits input (itemsOf s.rows))
  | .claimNext input, after =>
    Performs (Enrichment.claimNext input) s after (Claims input (itemsOf s.rows))
  | .claimNextGoverned input, after =>
    Performs (Enrichment.claimNextGoverned input) s after fun result =>
      Claims input.toClaimCnipaDetailInput (itemsOf s.rows) result.record
  | .persistAttemptTransition input now, after =>
    Performs (Enrichment.persistAttemptTransition input now) s after (Persists input (itemsOf s.rows))
  | .releaseAuthSecurityHold input now, after =>
    Performs (Enrichment.releaseAuthSecurityHold input now) s after (Releases input (itemsOf s.rows))
  | .setWorkspaces _, after => after.rows = s.rows ∧ after.lanes = s.lanes

theorem performs_commit {α : Type} {body : QueueState → Except RegistryError (α × QueueState)}
    {s : QueueState} {P : α → List WorkspaceItem → Prop}
    (h : ∀ a s', body s = .ok (a, s') → P a (itemsOf s'.rows)) :
    Performs body s (commit body s).2 P := by
  cases hbody : body s with
  | error e => exact Or.inl ⟨e, hbody, by rw [commit_of_error hbody]⟩
  | ok result =>
    obtain ⟨a, s'⟩ := result
    rw [commit_of_ok hbody]
    exact Or.inr ⟨a, hbody, h a s' hbody⟩

theorem mem_itemsOf {rows : List CnipaDetailQueueRecord} {row : CnipaDetailQueueRecord}
    (h : row ∈ rows) : row.workspaceItem ∈ itemsOf rows :=
  List.mem_map_of_mem h

/-- A stored item observed again is the item it was. -/
theorem admits_of_ok {input : AdmitCnipaDetailPointerInput} {now : Timestamp} {s s' : QueueState}
    {row : CnipaDetailQueueRecord} (hrows : RowsOk s.rows) (h : admitDetailPointer input now s = .ok (row, s')) :
    Admits input (itemsOf s.rows) row (itemsOf s'.rows) := by
  obtain ⟨hid, hdate, huri, ⟨existing, hmem, -, rfl, rfl⟩ | ⟨hfresh, rfl, rfl⟩⟩ := admit_eq_ok h
  · left
    have hitem : (observedAgain existing input.observedAt (trim input.listArtifactRef) now).workspaceItem
        = existing.workspaceItem := rfl
    constructor
    · rw [itemsOf_update, hitem]
      have hunique : KeysUnique (itemsOf s.rows) :=
        (keysUnique_map CnipaDetailQueueRecord.workspaceItem fun _ => rfl).mpr hrows.unique
      exact hunique.update_self (mem_itemsOf hmem)
    · rw [hitem]
      exact mem_itemsOf hmem
  · right
    refine ⟨?_, rfl, ?_, by simp [itemsOf]⟩
    · intro e he
      obtain ⟨stored, hstored, rfl⟩ := List.mem_map.mp he
      exact hfresh stored hstored
    · have hne : trim (trim input.sourceRecordId) ≠ "" := by rwa [trim_trim]
      simp only [createCnipaDetailEnrichmentItem, cnipaDetailCanonicalUri, bind_eq_ok, nonEmpty_eq_ok,
        pure_eq_ok, require_eq_ok, iso]
      refine ⟨_, ⟨hid, rfl⟩, _, ⟨_, ⟨hne, trim_trim _⟩, rfl⟩, (), ?_, _, ⟨(), hdate, rfl⟩, rfl⟩
      intro uri hmem
      rw [Option.mem_some_iff] at hmem
      exact Or.inr (hmem ▸ huri)

theorem reclaims_reclaimedRow {row : CnipaDetailQueueRecord} (h : WellFormed row) (workspaceId : Id)
    {now : Timestamp} (hnow : isDate now = true) :
    Reclaims workspaceId now row.workspaceItem (reclaimedRow workspaceId now row).workspaceItem := by
  refine ⟨?_, ?_, ?_⟩
  · unfold reclaimedRow
    split <;> rfl
  · intro hworkspace
    have hworkspace : row.workspaceId = workspaceId := hworkspace
    by_cases hleased : row.lifecycle = .leased
    · obtain ⟨lease, hlease, -, -, hexpires⟩ := h.lease_eq_some hleased
      simp only [reclaimExpiredCnipaDetailLease, CnipaDetailQueueRecord.workspaceItem,
        CnipaDetailQueueRecord.item, hleased, hlease, iso, bind_eq_ok, require_eq_ok, pure_eq_ok]
      refine ⟨now, ⟨(), hnow, rfl⟩, ?_⟩
      by_cases hexpired : isExpired lease.leaseExpiresAt now = true
      · simp [reclaimedRow, hworkspace, hleased, hexpires, hexpired, CnipaDetailQueueRecord.lease]
      · simp [reclaimedRow, hworkspace, hleased, hexpires, hexpired, hlease]
    · have hsame : reclaimedRow workspaceId now row = row := if_neg fun h => hleased h.2.1
      rw [hsame]
      unfold reclaimExpiredCnipaDetailLease
      split
      · rename_i hlifecycle _
        exact absurd hlifecycle hleased
      · rfl
  · intro hworkspace
    have hsame : reclaimedRow workspaceId now row = row := if_neg fun h => hworkspace h.1
    rw [hsame]

theorem reclaims_reclaimExpired {rows : List CnipaDetailQueueRecord} (h : RowsOk rows)
    (workspaceId : Id) {now : Timestamp} (hnow : isDate now = true) :
    List.Forall₂ (Reclaims workspaceId now) (itemsOf rows)
      (itemsOf (reclaimExpired workspaceId now rows)) := by
  rw [itemsOf, itemsOf, reclaimExpired, List.map_map, List.forall₂_map_left_iff,
    List.forall₂_map_right_iff, List.forall₂_same]
  intro row hrow
  exact reclaims_reclaimedRow (h.wellFormed row hrow) workspaceId hnow

/-- The policy a claim leases under is a valid one. -/
theorem resolvedPolicy_of_allowed {input : ClaimCnipaDetailInput} (h : ClaimAllowed input) :
    resolvedPolicy { DEFAULT_CNIPA_DETAIL_RETRY_POLICY with leaseMs := input.leaseMs } =
      .ok { DEFAULT_CNIPA_DETAIL_RETRY_POLICY with leaseMs := input.leaseMs } := by
  have hms := h.leaseMs
  rw [MAX_LEASE_MS] at hms
  simp only [resolvedPolicy, positiveSafe, bind_eq_ok, require_eq_ok, pure_eq_ok]
  exact ⟨(), by omega, (), by decide, (), by decide, (), by decide, trivial⟩

theorem lease_of_claimable {input : ClaimCnipaDetailInput} (hallowed : ClaimAllowed input)
    {row : CnipaDetailQueueRecord}
    (hclaimable : isClaimable input.workspaceId input.now row = true) :
    leaseCnipaDetailEnrichmentItem row.item input.leaseId input.now
        { DEFAULT_CNIPA_DETAIL_RETRY_POLICY with leaseMs := input.leaseMs } =
      .ok (leasedRow row (trim input.leaseId) input.now (input.now + input.leaseMs)).item := by
  obtain ⟨-, hlifecycle, hheld, hdue⟩ := isClaimable_iff.mp hclaimable
  have heligible : isCnipaDetailEligible row.item input.now = .ok true := by
    have hwaiting : ¬(row.item.lifecycle ≠ .pending ∧ row.item.lifecycle ≠ .retryable) := by
      rintro ⟨hpending, hretryable⟩
      exact hlifecycle.elim hpending hretryable
    have hfree : ¬row.item.holdReason ≠ none := not_not_intro hheld
    rw [isCnipaDetailEligible, if_neg hfree, if_neg hwaiting]
    simp only [iso, bind_eq_ok, require_eq_ok, pure_eq_ok]
    exact ⟨_, ⟨(), hallowed.now, rfl⟩, hdue⟩
  simp only [leaseCnipaDetailEnrichmentItem, iso, later, nonEmpty_eq_ok, bind_eq_ok, require_eq_ok,
    pure_eq_ok]
  exact ⟨_, resolvedPolicy_of_allowed hallowed, _, ⟨(), hallowed.now, rfl⟩, true, heligible, (), rfl, _,
    ⟨hallowed.leaseId, rfl⟩, _, ⟨(), hallowed.expires, rfl⟩, rfl⟩

theorem claims_of_claimedRows {input : ClaimCnipaDetailInput}
    {rows rows' : List CnipaDetailQueueRecord} {row : Option CnipaDetailQueueRecord}
    (h : RowsOk rows) (hallowed : ClaimAllowed input) (hclaimed : ClaimedRows input rows row rows') :
    Claims input (itemsOf rows) row (itemsOf rows') := by
  have hreclaims := reclaims_reclaimExpired h input.workspaceId hallowed.now
  cases row with
  | none =>
    rw [ClaimedRows] at hclaimed
    exact hclaimed ▸ hreclaims
  | some row =>
    obtain ⟨candidate, hmem, hclaimable, rfl, rfl⟩ := hclaimed
    refine ⟨_, hreclaims, candidate.workspaceItem, mem_itemsOf hmem, (isClaimable_iff.mp hclaimable).1,
      rfl, lease_of_claimable hallowed hclaimable, ?_⟩
    rw [itemsOf_update]

theorem persists_of_ok {input : PersistCnipaDetailAttemptTransitionInput} {now : Timestamp}
    {s s' : QueueState} {row : CnipaDetailQueueRecord} (hrows : RowsOk s.rows)
    (h : persistAttemptTransition input now s = .ok (row, s')) :
    Persists input (itemsOf s.rows) row (itemsOf s'.rows) := by
  obtain ⟨current, hcurrent, -, hallowed, rfl, rfl⟩ := persistAttemptTransition_eq_ok.mp h
  have hmem := (mem_rows_of_getByIdentity hcurrent).1
  obtain ⟨lease, hlease, hid, -, -⟩ :=
    (hrows.wellFormed current hmem).lease_eq_some hallowed.lease.2.1
  have hid : lease.leaseId = trim input.expectedLeaseId :=
    Option.some.inj (hid.symm.trans hallowed.lease.2.2)
  have hworkspace : current.workspaceId = input.workspaceId := congrArg Prod.fst hallowed.identity
  exact ⟨current.workspaceItem, mem_itemsOf hmem, hallowed.identity, ⟨lease, hlease, hid⟩, hworkspace,
    rfl, itemsOf_update _ _⟩

theorem releases_of_ok {input : ReleaseCnipaDetailAuthSecurityHoldInput} {now : Timestamp}
    {s s' : QueueState} {row : CnipaDetailQueueRecord} (hrows : RowsOk s.rows)
    (h : releaseAuthSecurityHold input now s = .ok (row, s')) :
    Releases input (itemsOf s.rows) row (itemsOf s'.rows) := by
  obtain ⟨current, hmem, hkey, hheld, rfl, rfl⟩ := releaseAuthSecurityHold_eq_ok h
  have hpending : current.lifecycle = .pending :=
    (hrows.wellFormed current hmem).held (by simp [hheld])
  have hworkspace : current.workspaceId = input.workspaceId := congrArg Prod.fst hkey
  refine ⟨current.workspaceItem, mem_itemsOf hmem, hkey, hheld, hworkspace, ?_, itemsOf_update _ _⟩
  simp [releaseCnipaDetailAuthSecurityHold, CnipaDetailQueueRecord.workspaceItem,
    CnipaDetailQueueRecord.item, hheld, hpending, CnipaDetailQueueRecord.lease]

theorem refines_perform {s : QueueState} (h : RowsOk s.rows) (call : QueueCall) :
    Refines s call (call.perform s) := by
  cases call with
  | admitDetailPointer input now =>
    rw [Refines, QueueCall.perform]
    refine performs_commit ?_
    intro row s' hok
    exact admits_of_ok h hok
  | claimNext input =>
    refine performs_commit ?_
    intro row s' hok
    obtain ⟨hallowed, -, hclaimed⟩ := claimNext_eq_ok hok
    exact claims_of_claimedRows h hallowed hclaimed
  | claimNextGoverned input =>
    refine performs_commit ?_
    intro result s' hok
    obtain ⟨hallowed, -, hclaimed⟩ := claimNextGoverned_eq_ok hok
    exact claims_of_claimedRows h hallowed hclaimed
  | persistAttemptTransition input now =>
    rw [Refines, QueueCall.perform]
    refine performs_commit ?_
    intro row s' hok
    exact persists_of_ok h hok
  | releaseAuthSecurityHold input now =>
    rw [Refines, QueueCall.perform]
    refine performs_commit ?_
    intro row s' hok
    exact releases_of_ok h hok
  | setWorkspaces workspaces => exact ⟨rfl, rfl⟩

/-! ### The outcomes of the state machine are stored -/

theorem assertedLease_eq_ok {item : CnipaDetailEnrichmentItem} {leaseId : String}
    (h : assertedLease item leaseId = .ok ()) :
    item.lifecycle = .leased ∧ trim leaseId ≠ "" ∧
      ∃ lease, item.lease = some lease ∧ lease.leaseId = trim leaseId := by
  unfold assertedLease at h
  split at h
  · rename_i lease hlifecycle hlease
    simp only [bind_eq_ok, nonEmpty_eq_ok, require_eq_ok] at h
    obtain ⟨_, ⟨hne, rfl⟩, hid⟩ := h
    exact ⟨hlifecycle, hne, lease, hlease, hid⟩
  · cases h

/-- What the state machine produces from an item: the item is settled, with instants that `Date`
    can hold and with what the outcome brings. -/
@[mk_iff] structure Produced (item item' : CnipaDetailEnrichmentItem) : Prop where
  identity : item'.documentKind = item.documentKind ∧ item'.sourceRecordId = item.sourceRecordId ∧
    item'.detailCanonicalUri = item.detailCanonicalUri ∧ item'.discoveredAt = item.discoveredAt
  settled : item'.lifecycle ≠ .leased ∧ item'.lease = none
  attempts : item.attemptCount ≤ item'.attemptCount
  held : item'.holdReason = some .authSecurity → item'.lifecycle = .pending
  times : (∀ t ∈ item'.lastAttemptAt, isDate t = true) ∧ ∀ t ∈ item'.nextAttemptAt, isDate t = true
  success : (∀ t ∈ item'.lastSuccessAt, isDate t = true) ∨ item'.lastSuccessAt = item.lastSuccessAt
  artifactRef : (∀ ref ∈ item'.detailArtifactRef, trim ref = ref ∧ ref ≠ "") ∨
    item'.detailArtifactRef = item.detailArtifactRef
  fetched : item'.lifecycle = .fetched → item'.detailArtifactRef.any (fun r => trim r ≠ "") = true ∧
    item'.lastSuccessAt.isSome = true

theorem produced_of_apply {item : CnipaDetailEnrichmentItem} {leaseId : String}
    {outcome : CnipaDetailAttemptOutcome} {policy : CnipaDetailRetryPolicy}
    {transition : CnipaDetailAttemptTransition}
    (h : applyCnipaDetailAttemptOutcome item leaseId outcome policy = .ok transition) :
    assertedLease item leaseId = .ok () ∧ Produced item transition.item := by
  simp only [applyCnipaDetailAttemptOutcome, bind_eq_ok, iso, require_eq_ok, pure_eq_ok] at h
  obtain ⟨_, hlease, _, ⟨_, hdate, rfl⟩, h⟩ := h
  refine ⟨hlease, ?_⟩
  cases outcome with
  | authSecurityHold at' errorCode httpStatus =>
    simp only [pure_eq_ok] at h
    subst h
    constructor <;> simp [CnipaDetailAttemptOutcome.settle, hdate]
  | fetched at' ref sha =>
    simp only [bind_eq_ok, nonEmpty_eq_ok, pure_eq_ok] at h
    obtain ⟨_, -, _, ⟨href, rfl⟩, rfl⟩ := h
    constructor <;> simp [CnipaDetailAttemptOutcome.settle, hdate, trim_trim, href]
  | permanentlyUnavailable at' errorCode httpStatus businessCode =>
    simp only [pure_eq_ok] at h
    subst h
    constructor <;> simp [CnipaDetailAttemptOutcome.settle, hdate]
  | retryable at' errorCode httpStatus businessCode =>
    simp only [bind_eq_ok, later, require_eq_ok, pure_eq_ok] at h
    obtain ⟨delay, -, _, ⟨_, hnext, rfl⟩, rfl⟩ := h
    constructor <;> simp [CnipaDetailAttemptOutcome.settle, hdate, hnext]

theorem filter_map_trim {ref : Option String} (h : ∀ r ∈ ref, trim r = r ∧ r ≠ "") :
    (ref.map trim).filter (· ≠ "") = ref := by
  cases ref with
  | none => rfl
  | some r =>
    obtain ⟨htrim, hne⟩ := h r rfl
    simp [htrim, hne]

/-- An outcome handed to the queue is the item that is stored. -/
theorem persistedItem_transitionInput {row : CnipaDetailQueueRecord} (hrow : WellFormed row)
    {item : CnipaDetailEnrichmentItem} (h : Produced row.item item) (leaseId : String) :
    persistedItem (transitionInput row.workspaceId leaseId item h.settled.1) row.item = item := by
  have href : (item.detailArtifactRef.map trim).filter (· ≠ "") = item.detailArtifactRef := by
    rcases h.artifactRef with href | href
    · exact filter_map_trim href
    · rw [href]
      exact filter_map_trim hrow.artifactRef
  apply CnipaDetailEnrichmentItem.ext
  case documentKind => exact h.identity.1.symm
  case sourceRecordId => exact h.identity.2.1.symm
  case detailCanonicalUri => exact h.identity.2.2.1.symm
  case discoveredAt => exact h.identity.2.2.2.symm
  case lease => exact h.settled.2.symm
  case detailArtifactRef => exact href
  all_goals rfl

/-- The condition under which the queue takes an outcome: a count that is a safe integer and, for a
    fetched document, a digest of 64 hexadecimal digits. -/
def Storable (item : CnipaDetailEnrichmentItem) : Prop :=
  item.attemptCount ≤ 9007199254740991 ∧
    (item.lifecycle = .fetched → isSha256Text (item.detailSha256.getD "") = true)

theorem persist_produced {s : QueueState} (hrows : RowsOk s.rows) {stored : CnipaDetailQueueRecord}
    (hstored : stored ∈ s.rows) {leaseId : String} {outcome : CnipaDetailAttemptOutcome}
    {policy : CnipaDetailRetryPolicy} {transition : CnipaDetailAttemptTransition}
    (happly : applyCnipaDetailAttemptOutcome stored.item leaseId outcome policy = .ok transition)
    (hstorable : Storable transition.item) (now : Timestamp) :
    ∃ (notLeased : transition.item.lifecycle ≠ .leased) (row : CnipaDetailQueueRecord)
      (s' : QueueState),
      persistAttemptTransition
          (transitionInput stored.workspaceId leaseId transition.item notLeased) now s =
        .ok (row, s') ∧ row.item = transition.item ∧
      itemsOf s'.rows = update (itemsOf s.rows)
        { workspaceId := stored.workspaceId, item := transition.item } := by
  obtain ⟨hasserted, hproduced⟩ := produced_of_apply happly
  obtain ⟨hleased, hleaseId, lease, hlease, hid⟩ := assertedLease_eq_ok hasserted
  have hwell := hrows.wellFormed stored hstored
  obtain ⟨lease', hlease', hid', -, -⟩ := hwell.lease_eq_some hleased
  have hsame : lease' = lease := Option.some.inj (hlease'.symm.trans hlease)
  have htrim : trim transition.item.sourceRecordId = stored.sourceRecordId := by
    rw [hproduced.identity.2.1]
    exact hwell.identity.1
  have hkey : (stored.workspaceId, transition.item.documentKind, trim transition.item.sourceRecordId) =
      key stored := by
    rw [htrim, hproduced.identity.1]
    rfl
  have hfind : s.getByIdentity stored.workspaceId transition.item.documentKind
      (trim transition.item.sourceRecordId) = some stored := by
    rw [QueueState.getByIdentity, hkey]
    exact hrows.unique.find?_of_mem hstored
  have hitem := persistedItem_transitionInput hwell hproduced leaseId
  have hattempts := hproduced.attempts
  refine ⟨hproduced.settled.1, _, _, persistAttemptTransition_eq_ok.mpr
    ⟨stored, hfind, ?_, ?_, rfl, rfl⟩, hitem, ?_⟩
  · rw [transitionInput, htrim]
    exact hwell.identity.2
  · constructor
    case identity => exact hkey.symm
    case lease => exact ⟨hleaseId, hleased, by rw [hid', hsame, hid, transitionInput]⟩
    case attempts => exact ⟨Int.natCast_nonneg _, Int.ofNat_le.mpr hstorable.1⟩
    case noRegression => exact Int.ofNat_le.mpr hattempts
    case fetched => exact fun hfetched => ⟨(hproduced.fetched hfetched).1, hstorable.2 hfetched⟩
    case success => exact fun hfetched => (hproduced.fetched hfetched).2
    case held => exact hproduced.held
    case times =>
      refine ⟨hproduced.times.1, hproduced.times.2, ?_⟩
      rcases hproduced.success with hsuccess | hsuccess
      · exact hsuccess
      · have hsuccess : transition.item.lastSuccessAt = stored.lastSuccessAt := hsuccess
        intro t ht
        exact hwell.success t (hsuccess ▸ ht)
  · rw [itemsOf_update]
    refine congrArg (update (itemsOf s.rows)) ?_
    exact congrArg (WorkspaceItem.mk stored.workspaceId) hitem

/-- Every call does to the stored items what the transitions of the state machine do, and leaves the
    other rows alone, or throws and changes nothing; and every storable outcome of a stored item is
    stored as it is. -/
theorem queue_refines (calls : List QueueCall) :
    RowsOk (queue.run calls).rows ∧
      (∀ call, Refines (queue.run calls) call (queue.step (queue.run calls) call) ∧
        Frame (queue.run calls) call (queue.step (queue.run calls) call)) ∧
      (∀ more, RowsAdvance (queue.run calls).rows (queue.runFrom (queue.run calls) more).rows) ∧
      ∀ stored ∈ (queue.run calls).rows, ∀ leaseId outcome policy transition,
        applyCnipaDetailAttemptOutcome stored.item leaseId outcome policy = .ok transition →
        Storable transition.item → ∀ now,
        ∃ (notLeased : transition.item.lifecycle ≠ .leased) (row : CnipaDetailQueueRecord)
          (s' : QueueState),
          persistAttemptTransition
              (transitionInput stored.workspaceId leaseId transition.item notLeased) now
              (queue.run calls) = .ok (row, s') ∧ row.item = transition.item ∧
          itemsOf s'.rows = update (itemsOf (queue.run calls).rows)
            { workspaceId := stored.workspaceId, item := transition.item } := by
  have hrows := rowsOk_run calls
  refine ⟨hrows, fun call => ⟨refines_perform hrows call, frame_perform _ call⟩,
    fun more => rowsAdvance_runFrom hrows more, ?_⟩
  intro stored hstored leaseId outcome policy transition happly hstorable now
  exact persist_produced hrows hstored happly hstorable now

/-! ### Calls without a counterpart -/

def samplePointer (sourceRecordId : String) : AdmitCnipaDetailPointerInput where
  workspaceId := 1
  documentKind := .oppositionDecision
  sourceRecordId := sourceRecordId
  detailCanonicalUri := detailUri .oppositionDecision sourceRecordId
  listArtifactRef := "list-1"
  observedAt := 0

def sampleClaim (leaseId : String) (now : Timestamp) : ClaimCnipaDetailInput where
  workspaceId := 1
  leaseId := leaseId
  now := now
  leaseMs := 1000

/-- Two documents, both leased until a second has passed. -/
def sampleCalls : List QueueCall :=
  [.setWorkspaces [{ id := 1, status := .active }], .admitDetailPointer (samplePointer "a") 0,
    .admitDetailPointer (samplePointer "b") 0, .claimNext (sampleClaim "lease-1" 0),
    .claimNext (sampleClaim "lease-2" 0)]

/-- A transition that gives the lease back and nothing else. -/
def sampleTransition : PersistCnipaDetailAttemptTransitionInput where
  workspaceId := 1
  documentKind := .oppositionDecision
  sourceRecordId := "a"
  expectedLeaseId := "lease-1"
  lifecycle := .pending
  notLeased := by decide
  holdReason := none
  attemptCount := 0
  lastAttemptAt := none
  nextAttemptAt := none
  lastErrorCode := none
  lastHttpStatus := none
  lastBusinessCode := none
  lastSuccessAt := none
  detailArtifactRef := none
  detailSha256 := none

/-- No outcome leaves an item waiting without a hold. -/
theorem apply_ne_waiting {item : CnipaDetailEnrichmentItem} {leaseId : String}
    {outcome : CnipaDetailAttemptOutcome} {policy : CnipaDetailRetryPolicy}
    {transition : CnipaDetailAttemptTransition}
    (h : applyCnipaDetailAttemptOutcome item leaseId outcome policy = .ok transition) :
    ¬(transition.item.lifecycle = .pending ∧ transition.item.holdReason = none) := by
  simp only [applyCnipaDetailAttemptOutcome, bind_eq_ok, iso, require_eq_ok, pure_eq_ok] at h
  obtain ⟨_, -, _, ⟨_, -, rfl⟩, h⟩ := h
  cases outcome with
  | authSecurityHold at' errorCode httpStatus =>
    simp only [pure_eq_ok] at h
    subst h
    simp
  | fetched at' ref sha =>
    simp only [bind_eq_ok, pure_eq_ok] at h
    obtain ⟨_, -, _, -, rfl⟩ := h
    simp [CnipaDetailAttemptOutcome.settle]
  | permanentlyUnavailable at' errorCode httpStatus businessCode =>
    simp only [pure_eq_ok] at h
    subst h
    simp [CnipaDetailAttemptOutcome.settle]
  | retryable at' errorCode httpStatus businessCode =>
    simp only [bind_eq_ok, pure_eq_ok] at h
    obtain ⟨_, -, _, -, rfl⟩ := h
    simp [CnipaDetailAttemptOutcome.settle]

/-- A claim changed a row that it did not return. -/
def changesOthers (input : ClaimCnipaDetailInput) (s : QueueState) : Bool :=
  match claimNext input s with
  | .ok (some row, s') =>
    s.rows.any fun other => decide (key other ≠ key row) && decide (other ∉ s'.rows)
  | _ => false

def sampleOutcome : CnipaDetailAttemptOutcome := .fetched 0 "artifact-1" "abc"

theorem sampleCalls_facts :
    changesOthers (sampleClaim "lease-3" 5000) (queue.run sampleCalls) = true ∧
      (persistAttemptTransition sampleTransition 0 (queue.run sampleCalls)).isOk = true ∧
      (queue.run sampleCalls).rows.any (fun stored =>
        (applyCnipaDetailAttemptOutcome stored.item "lease-1" sampleOutcome
          DEFAULT_CNIPA_DETAIL_RETRY_POLICY).isOk) = true := by
  decide +kernel

theorem not_refines_of_facts {calls : List QueueCall}
    (hchanges : changesOthers (sampleClaim "lease-3" 5000) (queue.run calls) = true)
    (hpersists : (persistAttemptTransition sampleTransition 0 (queue.run calls)).isOk = true)
    (happlies : (queue.run calls).rows.any (fun stored =>
      (applyCnipaDetailAttemptOutcome stored.item "lease-1" sampleOutcome
        DEFAULT_CNIPA_DETAIL_RETRY_POLICY).isOk) = true) :
    (¬∀ calls input row s', claimNext input (queue.run calls) = .ok (some row, s') →
      ∀ other ∈ (queue.run calls).rows, key other ≠ key row → other ∈ s'.rows) ∧
    (¬∀ calls input now row s',
      persistAttemptTransition input now (queue.run calls) = .ok (row, s') →
      ∃ stored ∈ (queue.run calls).rows, ∃ leaseId outcome policy transition,
        applyCnipaDetailAttemptOutcome stored.item leaseId outcome policy = .ok transition ∧
          row.item = transition.item) ∧
    ¬∀ calls, ∀ stored ∈ (queue.run calls).rows, ∀ leaseId outcome policy transition,
      applyCnipaDetailAttemptOutcome stored.item leaseId outcome policy = .ok transition →
      ∀ (notLeased : transition.item.lifecycle ≠ .leased) now, ∃ row s',
        persistAttemptTransition (transitionInput stored.workspaceId leaseId transition.item notLeased)
          now (queue.run calls) = .ok (row, s') := by
  refine ⟨?_, ?_, ?_⟩
  · intro h
    unfold changesOthers at hchanges
    split at hchanges
    · rename_i row s' hclaim
      obtain ⟨other, hother, hchanged⟩ := List.any_eq_true.mp hchanges
      simp only [Bool.and_eq_true, decide_eq_true_eq] at hchanged
      exact hchanged.2 (h calls _ row s' hclaim other hother hchanged.1)
    · cases hchanges
  · intro h
    obtain ⟨⟨row, s'⟩, hrow⟩ := isOk_iff.mp hpersists
    obtain ⟨stored, -, leaseId, outcome, policy, transition, happly, hitem⟩ := h calls _ 0 row s' hrow
    obtain ⟨current, -, -, -, rfl, -⟩ := persistAttemptTransition_eq_ok.mp hrow
    refine apply_ne_waiting happly ?_
    rw [← hitem]
    exact ⟨rfl, rfl⟩
  · intro h
    obtain ⟨stored, hstored, happly⟩ := List.any_eq_true.mp happlies
    obtain ⟨transition, happly⟩ := isOk_iff.mp happly
    have hproduced := (produced_of_apply happly).2
    obtain ⟨row, s', hrow⟩ :=
      h calls stored hstored "lease-1" sampleOutcome _ transition happly hproduced.settled.1 0
    obtain ⟨_, -, -, hallowed, -, -⟩ := persistAttemptTransition_eq_ok.mp hrow
    simp only [applyCnipaDetailAttemptOutcome, sampleOutcome, bind_eq_ok, nonEmpty_eq_ok, pure_eq_ok]
      at happly
    obtain ⟨_, _, _, _, _, ⟨_, rfl⟩, _, _, rfl⟩ := happly
    have hsha : isSha256Text (trim "abc") = true := (hallowed.fetched rfl).2
    have hshort : isSha256Text (trim "abc") = false := by decide
    rw [hshort] at hsha
    cases hsha

/-- A claim changes rows it does not name, a transition need not be an outcome of the state machine,
    and not every outcome is stored. -/
theorem queue_not_refines :
    (¬∀ calls input row s', claimNext input (queue.run calls) = .ok (some row, s') →
      ∀ other ∈ (queue.run calls).rows, key other ≠ key row → other ∈ s'.rows) ∧
    (¬∀ calls input now row s',
      persistAttemptTransition input now (queue.run calls) = .ok (row, s') →
      ∃ stored ∈ (queue.run calls).rows, ∃ leaseId outcome policy transition,
        applyCnipaDetailAttemptOutcome stored.item leaseId outcome policy = .ok transition ∧
          row.item = transition.item) ∧
    ¬∀ calls, ∀ stored ∈ (queue.run calls).rows, ∀ leaseId outcome policy transition,
      applyCnipaDetailAttemptOutcome stored.item leaseId outcome policy = .ok transition →
      ∀ (notLeased : transition.item.lifecycle ≠ .leased) now, ∃ row s',
        persistAttemptTransition (transitionInput stored.workspaceId leaseId transition.item notLeased)
          now (queue.run calls) = .ok (row, s') :=
  not_refines_of_facts sampleCalls_facts.1 sampleCalls_facts.2.1 sampleCalls_facts.2.2

end MarkorbitKnowledge.Enrichment
