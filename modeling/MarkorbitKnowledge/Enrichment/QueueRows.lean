import MarkorbitKnowledge.Enrichment.DetailQueue

/-!
# The rows of the queue

What each call of the queue does to its rows: one lemma inverts a successful call, and from it
follow the well-formedness of every stored row (`rowsOk_run`) and how a row may change over a run
(`rowsAdvance_runFrom`).
-/

namespace MarkorbitKnowledge.Enrichment

open Contracts Fallible Tables
open Execution (RegistryError)

/-! ### Rows and items -/

/-- The lease a row holds, if its three columns are set. -/
def CnipaDetailQueueRecord.lease (row : CnipaDetailQueueRecord) : Option CnipaDetailLease := do
  let leaseId ← row.leaseId
  let leasedAt ← row.leasedAt
  let leaseExpiresAt ← row.leaseExpiresAt
  return { leaseId, leasedAt, leaseExpiresAt }

/-- `queueState`: the item a row stands for. -/
def CnipaDetailQueueRecord.item (row : CnipaDetailQueueRecord) : CnipaDetailEnrichmentItem where
  documentKind := row.documentKind
  sourceRecordId := row.sourceRecordId
  detailCanonicalUri := row.detailCanonicalUri
  discoveredAt := row.discoveredAt
  lifecycle := row.lifecycle
  holdReason := row.holdReason
  lease := row.lease
  attemptCount := row.attemptCount
  lastAttemptAt := row.lastAttemptAt
  nextAttemptAt := row.nextAttemptAt
  lastErrorCode := row.lastErrorCode
  lastHttpStatus := row.lastHttpStatus
  lastBusinessCode := row.lastBusinessCode
  lastSuccessAt := row.lastSuccessAt
  detailArtifactRef := row.detailArtifactRef
  detailSha256 := row.detailSha256

/-- What holds of every stored row: the lease columns are set together and exactly while the row is
    leased, only a waiting row is held, and the stored values have passed the checks. -/
@[mk_iff] structure WellFormed (row : CnipaDetailQueueRecord) : Prop where
  leased : row.lifecycle = .leased → row.leaseId.isSome = true ∧ row.leasedAt.isSome = true ∧
    row.leaseExpiresAt.isSome = true
  unleased : row.lifecycle ≠ .leased → row.leaseId = none ∧ row.leasedAt = none ∧
    row.leaseExpiresAt = none
  held : row.holdReason ≠ none → row.lifecycle = .pending
  identity : trim row.sourceRecordId = row.sourceRecordId ∧ row.sourceRecordId ≠ ""
  leaseId : ∀ leaseId ∈ row.leaseId, trim leaseId = leaseId ∧ leaseId ≠ ""
  attempts : row.attemptCount ≤ 9007199254740991
  success : ∀ time ∈ row.lastSuccessAt, isDate time = true
  artifactRef : ∀ ref ∈ row.detailArtifactRef, trim ref = ref ∧ ref ≠ ""

theorem WellFormed.lease_eq_some {row : CnipaDetailQueueRecord} (h : WellFormed row)
    (hleased : row.lifecycle = .leased) :
    ∃ lease, row.lease = some lease ∧ row.leaseId = some lease.leaseId ∧
      row.leasedAt = some lease.leasedAt ∧ row.leaseExpiresAt = some lease.leaseExpiresAt := by
  obtain ⟨hid, hat, hexpires⟩ := h.leased hleased
  obtain ⟨id, hid⟩ := Option.isSome_iff_exists.mp hid
  obtain ⟨at', hat⟩ := Option.isSome_iff_exists.mp hat
  obtain ⟨expires, hexpires⟩ := Option.isSome_iff_exists.mp hexpires
  refine ⟨⟨id, at', expires⟩, ?_, hid, hat, hexpires⟩
  simp [CnipaDetailQueueRecord.lease, hid, hat, hexpires]

theorem required_eq_ok {value label : String} {s : String} :
    required value label = .ok s ↔ trim value ≠ "" ∧ trim value = s := by
  simp [required]

theorem nonEmpty_eq_ok {value label : String} {s : String} :
    nonEmpty value label = .ok s ↔ trim value ≠ "" ∧ trim value = s := by
  simp [nonEmpty]

theorem timestamp_eq_ok {value t : Timestamp} {label : String} :
    timestamp value label = .ok t ↔ isDate value = true ∧ value = t := by
  simp [timestamp]

theorem shifted_eq_ok {base t : Timestamp} {ms : Int} :
    shifted base ms = .ok t ↔ isDate (base + ms) = true ∧ base + ms = t := by
  simp [shifted]

/-! ### What each call does to the rows -/

theorem mem_rows_of_getByIdentity {s : QueueState} {workspaceId : Id} {kind : CnipaDocumentKind}
    {sourceRecordId : String} {row : CnipaDetailQueueRecord}
    (h : s.getByIdentity workspaceId kind sourceRecordId = some row) :
    row ∈ s.rows ∧ key row = (workspaceId, kind, sourceRecordId) :=
  ⟨mem_of_find? h, key_of_find? h⟩

/-- An admission observes the row of its document once more, or appends a first one. -/
theorem admit_eq_ok {input : AdmitCnipaDetailPointerInput} {now : Timestamp} {s s' : QueueState}
    {row : CnipaDetailQueueRecord} (h : admitDetailPointer input now s = .ok (row, s')) :
    trim input.sourceRecordId ≠ "" ∧ isDate input.observedAt = true ∧
      trim input.detailCanonicalUri =
        detailUri input.documentKind (trim input.sourceRecordId) ∧
      ((∃ existing ∈ s.rows, key existing = key row ∧
          row = observedAgain existing input.observedAt (trim input.listArtifactRef) now ∧
          s' = { s with rows := update s.rows row }) ∨
        ((∀ stored ∈ s.rows, key stored ≠ key row) ∧
          row = newRecord input (trim input.sourceRecordId)
            (detailUri input.documentKind (trim input.sourceRecordId)) (trim input.listArtifactRef)
            now ∧
          s' = { s with rows := s.rows ++ [row] })) := by
  simp only [admitDetailPointer, bind_eq_ok, required_eq_ok, timestamp_eq_ok, require_eq_ok,
    cnipaDetailQueueCanonicalUri, pure_eq_ok] at h
  obtain ⟨_, -, _, ⟨hid, rfl⟩, _, ⟨-, rfl⟩, _, ⟨_, ⟨-, rfl⟩, rfl⟩, _, huri, _, ⟨-, rfl⟩, _, ⟨hdate, rfl⟩,
    h⟩ := h
  rw [trim_trim] at huri
  refine ⟨hid, hdate, huri, ?_⟩
  split at h
  · rename_i existing hexisting
    obtain ⟨hmem, hkey⟩ := mem_rows_of_getByIdentity hexisting
    simp only [bind_eq_ok, require_eq_ok, pure_eq_ok, Prod.mk.injEq] at h
    obtain ⟨_, -, rfl, rfl⟩ := h
    exact Or.inl ⟨existing, hmem, rfl, rfl, rfl⟩
  · rename_i hnone
    simp only [pure_eq_ok, Prod.mk.injEq] at h
    obtain ⟨rfl, rfl⟩ := h
    refine Or.inr ⟨find?_eq_none.mp hnone, ?_, rfl⟩
    rw [huri]

/-- The rows after a claim, and the row it returns. -/
def ClaimedRows (input : ClaimCnipaDetailInput) (rows : List CnipaDetailQueueRecord) :
    Option CnipaDetailQueueRecord → List CnipaDetailQueueRecord → Prop
  | none, rows' => rows' = reclaimExpired input.workspaceId input.now rows
  | some row, rows' =>
    ∃ candidate ∈ reclaimExpired input.workspaceId input.now rows,
      isClaimable input.workspaceId input.now candidate = true ∧
      row = leasedRow candidate (trim input.leaseId) input.now (input.now + input.leaseMs) ∧
      rows' = update (reclaimExpired input.workspaceId input.now rows) row

/-- The checks of a claim. -/
@[mk_iff] structure ClaimAllowed (input : ClaimCnipaDetailInput) : Prop where
  leaseId : trim input.leaseId ≠ ""
  now : isDate input.now = true
  leaseMs : 0 < input.leaseMs ∧ input.leaseMs ≤ MAX_LEASE_MS
  expires : isDate (input.now + input.leaseMs) = true

theorem claimable_of_nextCandidate {workspaceId : Id} {now : Timestamp}
    {rows : List CnipaDetailQueueRecord} {candidate : CnipaDetailQueueRecord}
    (h : nextCandidate workspaceId now rows = some candidate) :
    candidate ∈ rows ∧ isClaimable workspaceId now candidate = true :=
  List.mem_filter.mp (List.argmin_mem h)

theorem claimNext_eq_ok {input : ClaimCnipaDetailInput} {s s' : QueueState}
    {row : Option CnipaDetailQueueRecord} (h : claimNext input s = .ok (row, s')) :
    ClaimAllowed input ∧ s' = { s with rows := s'.rows } ∧ ClaimedRows input s.rows row s'.rows := by
  simp only [claimNext, bind_eq_ok, required_eq_ok, timestamp_eq_ok, require_eq_ok, shifted_eq_ok]
    at h
  obtain ⟨_, -, _, ⟨hid, rfl⟩, _, ⟨hnow, rfl⟩, _, hms, _, ⟨hexpires, rfl⟩, h⟩ := h
  refine ⟨⟨hid, hnow, hms, hexpires⟩, ?_⟩
  split at h
  · simp only [pure_eq_ok, Prod.mk.injEq] at h
    obtain ⟨rfl, rfl⟩ := h
    exact ⟨rfl, rfl⟩
  · rename_i candidate hcandidate
    simp only [pure_eq_ok, Prod.mk.injEq] at h
    obtain ⟨rfl, rfl⟩ := h
    obtain ⟨hmem, hclaimable⟩ := claimable_of_nextCandidate hcandidate
    exact ⟨rfl, candidate, hmem, hclaimable, rfl, rfl⟩

/-- The row a governed claim returns. -/
def ClaimGovernedCnipaDetailResult.record :
    ClaimGovernedCnipaDetailResult → Option CnipaDetailQueueRecord
  | claimed record _ _ => some record
  | pacingBlocked _ _ _ | budgetExhausted _ _ | empty _ _ => none

theorem claimNextGoverned_eq_ok {input : ClaimGovernedCnipaDetailInput} {s s' : QueueState}
    {result : ClaimGovernedCnipaDetailResult} (h : claimNextGoverned input s = .ok (result, s')) :
    ClaimAllowed input.toClaimCnipaDetailInput ∧
      s'.workspaces = s.workspaces ∧
      ClaimedRows input.toClaimCnipaDetailInput s.rows result.record s'.rows := by
  simp only [claimNextGoverned, bind_eq_ok, required_eq_ok, timestamp_eq_ok, require_eq_ok,
    shifted_eq_ok, positiveIntegerBounded, nonNegativeIntegerBounded] at h
  obtain ⟨_, -, _, ⟨hid, rfl⟩, _, ⟨-, rfl⟩, _, -, _, ⟨hnow, rfl⟩, _, hms, _, -, _, -, _,
    ⟨hexpires, rfl⟩, next, -, h⟩ := h
  refine ⟨⟨hid, hnow, hms, hexpires⟩, ?_⟩
  split at h
  · simp only [pure_eq_ok, Prod.mk.injEq] at h
    obtain ⟨rfl, rfl⟩ := h
    exact ⟨rfl, rfl⟩
  · split at h
    · simp only [pure_eq_ok, Prod.mk.injEq] at h
      obtain ⟨rfl, rfl⟩ := h
      exact ⟨rfl, rfl⟩
    · split at h
      · simp only [pure_eq_ok, Prod.mk.injEq] at h
        obtain ⟨rfl, rfl⟩ := h
        exact ⟨rfl, rfl⟩
      · rename_i candidate hcandidate
        simp only [pure_eq_ok, Prod.mk.injEq] at h
        obtain ⟨rfl, rfl⟩ := h
        obtain ⟨hmem, hclaimable⟩ := claimable_of_nextCandidate hcandidate
        exact ⟨rfl, candidate, hmem, hclaimable, rfl, rfl⟩

theorem normalizeNullableTime_eq_ok {value time : Option Timestamp} {label : String} :
    normalizeNullableTime value label = .ok time ↔
      (∀ t ∈ value, isDate t = true) ∧ value = time := by
  cases value with
  | none => cases time <;> simp [normalizeNullableTime]
  | some t =>
    cases time with
    | none => simp [normalizeNullableTime]
    | some u => simp [normalizeNullableTime, timestamp_eq_ok]

/-- What the checks of a transition say of the row it moves. -/
@[mk_iff] structure TransitionAllowed (input : PersistCnipaDetailAttemptTransitionInput)
    (current : CnipaDetailQueueRecord) : Prop where
  identity : key current = (input.workspaceId, input.documentKind, trim input.sourceRecordId)
  lease : trim input.expectedLeaseId ≠ "" ∧ current.lifecycle = .leased ∧
    current.leaseId = some (trim input.expectedLeaseId)
  attempts : 0 ≤ input.attemptCount ∧ input.attemptCount ≤ 9007199254740991
  noRegression : current.attemptCount ≤ input.attemptCount
  fetched : input.lifecycle = .fetched → input.detailArtifactRef.any (fun r => trim r ≠ "") = true ∧
    isSha256Text (input.detailSha256.getD "") = true
  success : input.lifecycle = .fetched → input.lastSuccessAt.isSome = true
  held : input.holdReason = some .authSecurity → input.lifecycle = .pending
  times : (∀ t ∈ input.lastAttemptAt, isDate t = true) ∧ (∀ t ∈ input.nextAttemptAt, isDate t = true) ∧
    ∀ t ∈ input.lastSuccessAt, isDate t = true

theorem persistAttemptTransition_eq_ok {input : PersistCnipaDetailAttemptTransitionInput}
    {now : Timestamp} {s s' : QueueState} {row : CnipaDetailQueueRecord} :
    persistAttemptTransition input now s = .ok (row, s') ↔
      ∃ current, s.getByIdentity input.workspaceId input.documentKind (trim input.sourceRecordId) =
          some current ∧ trim input.sourceRecordId ≠ "" ∧ TransitionAllowed input current ∧
        row = transitionedRow input current now ∧ s' = { s with rows := update s.rows row } := by
  simp only [persistAttemptTransition, bind_eq_ok, required_eq_ok, orThrow_eq_ok, require_eq_ok,
    normalizeNullableTime_eq_ok, pure_eq_ok, Prod.mk.injEq]
  constructor
  · rintro ⟨_, ⟨hid, rfl⟩, _, ⟨hlease, rfl⟩, current, hcurrent, _, hstale, _, hattempts, _, hregression,
      _, hfetched, _, hsuccess, _, hheld, _, ⟨hlast, -⟩, _, ⟨hnext, -⟩, _, ⟨htime, -⟩, rfl, rfl⟩
    exact ⟨current, hcurrent, hid, ⟨(mem_rows_of_getByIdentity hcurrent).2, ⟨hlease, hstale⟩, hattempts,
      hregression, hfetched, hsuccess, hheld, hlast, hnext, htime⟩, rfl, rfl⟩
  · rintro ⟨current, hcurrent, hid, h, rfl, rfl⟩
    exact ⟨_, ⟨hid, rfl⟩, _, ⟨h.lease.1, rfl⟩, current, hcurrent, (), h.lease.2, (), h.attempts, (),
      h.noRegression, (), h.fetched, (), h.success, (), h.held, _, ⟨h.times.1, rfl⟩, _,
      ⟨h.times.2.1, rfl⟩, _, ⟨h.times.2.2, rfl⟩, rfl, rfl⟩

theorem releaseAuthSecurityHold_eq_ok {input : ReleaseCnipaDetailAuthSecurityHoldInput}
    {now : Timestamp} {s s' : QueueState} {row : CnipaDetailQueueRecord}
    (h : releaseAuthSecurityHold input now s = .ok (row, s')) :
    ∃ current ∈ s.rows, key current = (input.workspaceId, input.documentKind,
        trim input.sourceRecordId) ∧ current.holdReason = some .authSecurity ∧
      row = { current with holdReason := none, nextAttemptAt := none, updatedAt := now } ∧
      s' = { s with rows := update s.rows row } := by
  simp only [releaseAuthSecurityHold, bind_eq_ok, required_eq_ok, orThrow_eq_ok, require_eq_ok,
    pure_eq_ok, Prod.mk.injEq] at h
  obtain ⟨_, ⟨-, rfl⟩, current, hcurrent, _, hheld, rfl, rfl⟩ := h
  obtain ⟨hmem, hkey⟩ := mem_rows_of_getByIdentity hcurrent
  exact ⟨current, hmem, hkey, hheld.1, rfl, rfl⟩

/-! ### Rows stay well formed and move on -/

/-- How a row may change: it keeps its identity, never loses an attempt, and never changes the item
    of a document that was fetched or given up. -/
@[mk_iff] structure Advance (row row' : CnipaDetailQueueRecord) : Prop where
  key : key row' = key row
  attempts : row.attemptCount ≤ row'.attemptCount
  final : row.lifecycle = .fetched ∨ row.lifecycle = .permanentlyUnavailable → row'.item = row.item

namespace Advance

theorem refl (row : CnipaDetailQueueRecord) : Advance row row :=
  ⟨rfl, Nat.le_refl _, fun _ => rfl⟩

theorem trans {a b c : CnipaDetailQueueRecord} (hab : Advance a b) (hbc : Advance b c) :
    Advance a c := by
  refine ⟨hbc.key.trans hab.key, Nat.le_trans hab.attempts hbc.attempts, ?_⟩
  intro hfinal
  have hitem := hab.final hfinal
  have hlifecycle : b.lifecycle = a.lifecycle := congrArg (·.lifecycle) hitem
  rw [hbc.final (hlifecycle ▸ hfinal), hitem]

end Advance

/-- Every row is still there, and has only moved on. -/
def RowsAdvance (rows rows' : List CnipaDetailQueueRecord) : Prop :=
  ∀ row ∈ rows, ∃ row' ∈ rows', Advance row row'

/-- The rows of a reachable queue: one for each identity, all well formed. -/
@[mk_iff] structure RowsOk (rows : List CnipaDetailQueueRecord) : Prop where
  unique : KeysUnique rows
  wellFormed : ∀ row ∈ rows, WellFormed row

theorem RowsAdvance.refl (rows : List CnipaDetailQueueRecord) : RowsAdvance rows rows :=
  fun row hrow => ⟨row, hrow, Advance.refl row⟩

theorem RowsAdvance.trans {rows rows' rows'' : List CnipaDetailQueueRecord}
    (h : RowsAdvance rows rows') (h' : RowsAdvance rows' rows'') : RowsAdvance rows rows'' := by
  intro row hrow
  obtain ⟨row', hrow', hadvance⟩ := h row hrow
  obtain ⟨row'', hrow'', hadvance'⟩ := h' row' hrow'
  exact ⟨row'', hrow'', hadvance.trans hadvance'⟩

/-- Replacing one row by what it moved on to. -/
theorem RowsOk.update {rows : List CnipaDetailQueueRecord} {stored row : CnipaDetailQueueRecord}
    (h : RowsOk rows) (hstored : stored ∈ rows) (hadvance : Advance stored row)
    (hwell : WellFormed row) : RowsOk (update rows row) ∧ RowsAdvance rows (update rows row) := by
  refine ⟨⟨h.unique.update row, ?_⟩, ?_⟩
  · intro x hx
    rcases mem_update.mp hx with ⟨hx, -⟩ | ⟨rfl, -⟩
    · exact h.wellFormed x hx
    · exact hwell
  · intro x hx
    by_cases hkey : key x = key row
    · have hsame : x = stored := h.unique.eq_of_key hx hstored (hkey.trans hadvance.key)
      exact ⟨row, mem_update.mpr (Or.inr ⟨rfl, stored, hstored, hadvance.key.symm⟩), hsame ▸ hadvance⟩
    · exact ⟨x, mem_update.mpr (Or.inl ⟨hx, hkey⟩), Advance.refl x⟩

theorem RowsOk.append {rows : List CnipaDetailQueueRecord} {row : CnipaDetailQueueRecord}
    (h : RowsOk rows) (hfresh : ∀ stored ∈ rows, key stored ≠ key row) (hwell : WellFormed row) :
    RowsOk (rows ++ [row]) ∧ RowsAdvance rows (rows ++ [row]) := by
  refine ⟨⟨h.unique.append_singleton hfresh, ?_⟩, ?_⟩
  · intro x hx
    rcases List.mem_append.mp hx with hx | hx
    · exact h.wellFormed x hx
    · exact List.mem_singleton.mp hx ▸ hwell
  · intro x hx
    exact ⟨x, List.mem_append_left _ hx, Advance.refl x⟩

theorem wellFormed_newRecord {input : AdmitCnipaDetailPointerInput} {uri ref : String}
    {now : Timestamp} (hid : trim input.sourceRecordId ≠ "") :
    WellFormed (newRecord input (trim input.sourceRecordId) uri ref now) := by
  constructor <;> simp [newRecord, trim_trim, hid]

theorem wellFormed_observedAgain {row : CnipaDetailQueueRecord} (h : WellFormed row)
    (observedAt : Timestamp) (ref : String) (now : Timestamp) :
    WellFormed (observedAgain row observedAt ref now) :=
  ⟨h.leased, h.unleased, h.held, h.identity, h.leaseId, h.attempts, h.success, h.artifactRef⟩

theorem advance_observedAgain (row : CnipaDetailQueueRecord) (observedAt : Timestamp) (ref : String)
    (now : Timestamp) : Advance row (observedAgain row observedAt ref now) :=
  ⟨rfl, Nat.le_refl _, fun _ => rfl⟩

theorem reclaimedRow_spec {row : CnipaDetailQueueRecord} (h : WellFormed row) (workspaceId : Id)
    (now : Timestamp) : WellFormed (reclaimedRow workspaceId now row) ∧
      Advance row (reclaimedRow workspaceId now row) := by
  unfold reclaimedRow
  split
  · rename_i hexpired
    constructor
    · constructor
      · simp
      · simp
      · intro hheld
        have := h.held hheld
        rw [hexpired.2.1] at this
        cases this
      · exact h.identity
      · simp
      · exact h.attempts
      · exact h.success
      · exact h.artifactRef
    · refine ⟨rfl, Nat.le_refl _, ?_⟩
      intro hfinal
      rw [hexpired.2.1] at hfinal
      rcases hfinal with hfinal | hfinal <;> cases hfinal
  · exact ⟨h, Advance.refl row⟩

theorem RowsOk.reclaimExpired {rows : List CnipaDetailQueueRecord} (h : RowsOk rows)
    (workspaceId : Id) (now : Timestamp) :
    RowsOk (reclaimExpired workspaceId now rows) ∧
      RowsAdvance rows (reclaimExpired workspaceId now rows) := by
  have hkey : ∀ row, key (reclaimedRow workspaceId now row) = key row := by
    intro row
    unfold reclaimedRow
    split <;> rfl
  refine ⟨⟨(keysUnique_map _ hkey).mpr h.unique, ?_⟩, ?_⟩
  · intro row hrow
    obtain ⟨stored, hstored, rfl⟩ := List.mem_map.mp hrow
    exact (reclaimedRow_spec (h.wellFormed stored hstored) workspaceId now).1
  · intro row hrow
    exact ⟨_, List.mem_map_of_mem hrow, (reclaimedRow_spec (h.wellFormed row hrow) workspaceId now).2⟩

theorem isClaimable_iff {workspaceId : Id} {now : Timestamp} {row : CnipaDetailQueueRecord} :
    isClaimable workspaceId now row = true ↔ row.workspaceId = workspaceId ∧
      (row.lifecycle = .pending ∨ row.lifecycle = .retryable) ∧ row.holdReason = none ∧
      isDue row.nextAttemptAt now = true := by
  simp [isClaimable, and_assoc]

theorem leasedRow_spec {row : CnipaDetailQueueRecord} (h : WellFormed row) {workspaceId : Id}
    {now : Timestamp} (expiresAt : Timestamp) (hclaimable : isClaimable workspaceId now row = true)
    {leaseId : String} (hlease : trim leaseId ≠ "") :
    WellFormed (leasedRow row (trim leaseId) now expiresAt) ∧
      Advance row (leasedRow row (trim leaseId) now expiresAt) := by
  obtain ⟨-, hlifecycle, hheld, -⟩ := isClaimable_iff.mp hclaimable
  constructor
  · constructor
    · simp [leasedRow]
    · simp [leasedRow]
    · intro hne
      exact absurd hheld hne
    · exact h.identity
    · simp [leasedRow, trim_trim, hlease]
    · exact h.attempts
    · exact h.success
    · exact h.artifactRef
  · refine ⟨rfl, Nat.le_refl _, ?_⟩
    intro hfinal
    rcases hlifecycle with hlifecycle | hlifecycle <;> simp [hlifecycle] at hfinal

theorem transitionedRow_spec {input : PersistCnipaDetailAttemptTransitionInput}
    {row : CnipaDetailQueueRecord} (h : WellFormed row) (hallowed : TransitionAllowed input row)
    (now : Timestamp) :
    WellFormed (transitionedRow input row now) ∧ Advance row (transitionedRow input row now) := by
  have hattempts := hallowed.attempts
  have hregression := hallowed.noRegression
  constructor
  · constructor
    · intro hleased
      exact absurd hleased input.notLeased
    · simp [transitionedRow]
    · intro hne
      obtain ⟨reason, hreason⟩ := Option.ne_none_iff_exists'.mp hne
      cases reason
      exact hallowed.held hreason
    · exact h.identity
    · simp [transitionedRow]
    · simp only [transitionedRow]
      omega
    · exact hallowed.times.2.2
    · intro ref href
      simp only [transitionedRow, Option.mem_def, Option.filter_eq_some_iff, Option.map_eq_some_iff]
        at href
      obtain ⟨⟨raw, -, rfl⟩, hne⟩ := href
      exact ⟨trim_trim raw, by simpa using hne⟩
  · refine ⟨rfl, ?_, ?_⟩
    · simp only [transitionedRow]
      omega
    · intro hfinal
      rw [hallowed.lease.2.1] at hfinal
      rcases hfinal with hfinal | hfinal <;> cases hfinal

theorem releasedRow_spec {row : CnipaDetailQueueRecord} (h : WellFormed row)
    (hheld : row.holdReason = some .authSecurity) (now : Timestamp) :
    WellFormed { row with holdReason := none, nextAttemptAt := none, updatedAt := now } ∧
      Advance row { row with holdReason := none, nextAttemptAt := none, updatedAt := now } := by
  have hpending : row.lifecycle = .pending := h.held (by simp [hheld])
  constructor
  · exact ⟨h.leased, h.unleased, fun hne => absurd rfl hne, h.identity, h.leaseId, h.attempts, h.success,
      h.artifactRef⟩
  · refine ⟨rfl, Nat.le_refl _, ?_⟩
    intro hfinal
    rw [hpending] at hfinal
    rcases hfinal with hfinal | hfinal <;> cases hfinal

theorem RowsOk.claimed {input : ClaimCnipaDetailInput} {rows rows' : List CnipaDetailQueueRecord}
    {row : Option CnipaDetailQueueRecord} (h : RowsOk rows) (hallowed : ClaimAllowed input)
    (hclaimed : ClaimedRows input rows row rows') : RowsOk rows' ∧ RowsAdvance rows rows' := by
  obtain ⟨hreclaimed, hadvance⟩ := h.reclaimExpired input.workspaceId input.now
  cases row with
  | none =>
    rw [ClaimedRows] at hclaimed
    exact hclaimed ▸ ⟨hreclaimed, hadvance⟩
  | some row =>
    obtain ⟨candidate, hmem, hclaimable, rfl, rfl⟩ := hclaimed
    obtain ⟨hwell, hmoved⟩ := leasedRow_spec (hreclaimed.wellFormed candidate hmem)
      (input.now + input.leaseMs) hclaimable hallowed.leaseId
    obtain ⟨hok, hlast⟩ := hreclaimed.update hmem hmoved hwell
    exact ⟨hok, hadvance.trans hlast⟩

def KeepsRows (s s' : QueueState) : Prop := RowsOk s'.rows ∧ RowsAdvance s.rows s'.rows

/-- Every call keeps the rows well formed and only moves them on. -/
theorem perform_rows {s : QueueState} (h : RowsOk s.rows) (call : QueueCall) :
    KeepsRows s (call.perform s) := by
  have hstay : KeepsRows s s := ⟨h, RowsAdvance.refl s.rows⟩
  cases call with
  | admitDetailPointer input now =>
    refine commit_rel (R := KeepsRows) hstay ?_
    intro row s' hok
    obtain ⟨hid, -, -, ⟨existing, hmem, -, rfl, rfl⟩ | ⟨hfresh, rfl, rfl⟩⟩ := admit_eq_ok hok
    · exact h.update hmem (advance_observedAgain existing _ _ _)
        (wellFormed_observedAgain (h.wellFormed existing hmem) _ _ _)
    · exact h.append hfresh (wellFormed_newRecord hid)
  | claimNext input =>
    refine commit_rel (R := KeepsRows) hstay ?_
    intro row s' hok
    obtain ⟨hallowed, -, hclaimed⟩ := claimNext_eq_ok hok
    exact h.claimed hallowed hclaimed
  | claimNextGoverned input =>
    refine commit_rel (R := KeepsRows) hstay ?_
    intro result s' hok
    obtain ⟨hallowed, -, hclaimed⟩ := claimNextGoverned_eq_ok hok
    exact h.claimed hallowed hclaimed
  | persistAttemptTransition input now =>
    refine commit_rel (R := KeepsRows) hstay ?_
    intro row s' hok
    obtain ⟨current, hcurrent, -, hallowed, rfl, rfl⟩ := persistAttemptTransition_eq_ok.mp hok
    have hmem := (mem_rows_of_getByIdentity hcurrent).1
    obtain ⟨hwell, hadvance⟩ := transitionedRow_spec (h.wellFormed current hmem) hallowed now
    exact h.update hmem hadvance hwell
  | releaseAuthSecurityHold input now =>
    refine commit_rel (R := KeepsRows) hstay ?_
    intro row s' hok
    obtain ⟨current, hmem, -, hheld, rfl, rfl⟩ := releaseAuthSecurityHold_eq_ok hok
    obtain ⟨hwell, hadvance⟩ := releasedRow_spec (h.wellFormed current hmem) hheld now
    exact h.update hmem hadvance hwell
  | setWorkspaces workspaces => exact hstay

/-! ### What a call leaves alone -/

/-- A row after the reclaiming that a claim begins with. -/
def reclaimedBy (call : QueueCall) (row : CnipaDetailQueueRecord) : CnipaDetailQueueRecord :=
  match call with
  | .claimNext input => reclaimedRow input.workspaceId input.now row
  | .claimNextGoverned input => reclaimedRow input.workspaceId input.now row
  | _ => row

/-- The frame of a call: the workspaces, the lanes unless it is governed, and all rows but one, up to
    the leases that ran out. -/
structure Frame (s : QueueState) (call : QueueCall) (after : QueueState) : Prop where
  workspaces : (∀ workspaces, call ≠ .setWorkspaces workspaces) → after.workspaces = s.workspaces
  lanes : (∀ input, call ≠ .claimNextGoverned input) → after.lanes = s.lanes
  rows : after.rows = s.rows ∨
    ∃ named, ∀ row ∈ s.rows, key row ≠ named → reclaimedBy call row ∈ after.rows

theorem key_reclaimedRow (workspaceId : Id) (now : Timestamp) (row : CnipaDetailQueueRecord) :
    key (reclaimedRow workspaceId now row) = key row := by
  unfold reclaimedRow
  split <;> rfl

theorem ClaimedRows.frame {input : ClaimCnipaDetailInput} {rows rows' : List CnipaDetailQueueRecord}
    {row : Option CnipaDetailQueueRecord} (h : ClaimedRows input rows row rows') :
    ∃ named, ∀ stored ∈ rows, key stored ≠ named →
      reclaimedRow input.workspaceId input.now stored ∈ rows' := by
  have hreclaimed : ∀ stored ∈ rows, reclaimedRow input.workspaceId input.now stored ∈
      reclaimExpired input.workspaceId input.now rows := fun _ => List.mem_map_of_mem
  cases row with
  | none =>
    rw [ClaimedRows] at h
    exact ⟨(0, .oppositionDecision, ""), fun stored hstored _ => h ▸ hreclaimed stored hstored⟩
  | some row =>
    obtain ⟨candidate, -, -, -, rfl⟩ := h
    refine ⟨key row, fun stored hstored hother => mem_update.mpr (Or.inl ⟨hreclaimed stored hstored, ?_⟩)⟩
    rw [key_reclaimedRow]
    exact hother

theorem frame_perform (s : QueueState) (call : QueueCall) : Frame s call (call.perform s) := by
  have hstay : Frame s call s := ⟨fun _ => rfl, fun _ => rfl, Or.inl rfl⟩
  cases call with
  | admitDetailPointer input now =>
    refine commit_rel (R := fun s s' => Frame s (.admitDetailPointer input now) s') hstay ?_
    intro row s' hok
    obtain ⟨-, -, -, ⟨_, -, -, -, rfl⟩ | ⟨-, -, rfl⟩⟩ := admit_eq_ok hok
    · exact ⟨fun _ => rfl, fun _ => rfl,
        Or.inr ⟨key row, fun _ hstored hother => mem_update.mpr (Or.inl ⟨hstored, hother⟩)⟩⟩
    · exact ⟨fun _ => rfl, fun _ => rfl,
        Or.inr ⟨key row, fun _ hstored _ => List.mem_append_left _ hstored⟩⟩
  | claimNext input =>
    refine commit_rel (R := fun s s' => Frame s (.claimNext input) s') hstay ?_
    intro row s' hok
    obtain ⟨-, hrows, hclaimed⟩ := claimNext_eq_ok hok
    rw [hrows]
    exact ⟨fun _ => rfl, fun _ => rfl, Or.inr hclaimed.frame⟩
  | claimNextGoverned input =>
    refine commit_rel (R := fun s s' => Frame s (.claimNextGoverned input) s') hstay ?_
    intro result s' hok
    obtain ⟨-, hworkspaces, hclaimed⟩ := claimNextGoverned_eq_ok hok
    exact ⟨fun _ => hworkspaces, fun hnot => absurd rfl (hnot input), Or.inr hclaimed.frame⟩
  | persistAttemptTransition input now =>
    refine commit_rel (R := fun s s' => Frame s (.persistAttemptTransition input now) s') hstay ?_
    intro row s' hok
    obtain ⟨_, -, -, -, -, rfl⟩ := persistAttemptTransition_eq_ok.mp hok
    exact ⟨fun _ => rfl, fun _ => rfl,
      Or.inr ⟨key row, fun _ hstored hother => mem_update.mpr (Or.inl ⟨hstored, hother⟩)⟩⟩
  | releaseAuthSecurityHold input now =>
    refine commit_rel (R := fun s s' => Frame s (.releaseAuthSecurityHold input now) s') hstay ?_
    intro row s' hok
    obtain ⟨_, -, -, -, -, rfl⟩ := releaseAuthSecurityHold_eq_ok hok
    exact ⟨fun _ => rfl, fun _ => rfl,
      Or.inr ⟨key row, fun _ hstored hother => mem_update.mpr (Or.inl ⟨hstored, hother⟩)⟩⟩
  | setWorkspaces workspaces =>
    exact ⟨fun hnot => absurd rfl (hnot workspaces), fun _ => rfl, Or.inl rfl⟩

theorem rowsOk_run (calls : List QueueCall) : RowsOk (queue.run calls).rows := by
  have hinit : RowsOk queue.init.rows := by
    refine ⟨List.nodup_nil, ?_⟩
    intro row hrow
    cases hrow
  exact Transitions.Machine.run_invariant (M := queue) (P := fun s => RowsOk s.rows) hinit
    (fun s call h => (perform_rows h call).1) calls

theorem rowsAdvance_runFrom {s : QueueState} (h : RowsOk s.rows) (calls : List QueueCall) :
    RowsAdvance s.rows (queue.runFrom s calls).rows := by
  have hrun := Transitions.Machine.runFrom_invariant (M := queue)
    (P := fun t => RowsOk t.rows ∧ RowsAdvance s.rows t.rows)
    (fun t call ht => ⟨(perform_rows ht.1 call).1, ht.2.trans (perform_rows ht.1 call).2⟩)
    ⟨h, RowsAdvance.refl s.rows⟩ calls
  exact hrun.2

end MarkorbitKnowledge.Enrichment
