import MarkorbitKnowledge.Conversion.OutputReady
import MarkorbitKnowledge.Lib.Window

/-!
# Closing the leases that have expired

`production-conversion-worker-service.ts`: before a worker is given work, the expired leases of its
workspace are closed.  The sweep asks for the newest ACTIVE leases of the workspace, up to a limit, and
only then looks which of them have expired.  `sweep_closes_iff` says what follows: a sweep makes
progress exactly when one of the expired leases is among the newest ACTIVE leases, and
`expired_leases_drained` that sweeps which all make progress leave none.
-/

namespace MarkorbitKnowledge.Conversion

open Contracts Fallible Tables Transitions Window
open Execution (RegistryError)

/-! ### The page of leases -/

structure ConversionLeaseListFilters where
  workspaceId : Option Id
  workerId : Option Id
  conversionRunId : Option Id
  status : Option ConversionLeaseStatus
  limit : Option Nat
  offset : Option Nat

def DEFAULT_LIMIT : Nat := 25
def MAX_LIMIT : Nat := 100

def normalizeLimit (value : Option Nat) : Except RegistryError Nat :=
  match value with
  | none => pure DEFAULT_LIMIT
  | some value => do
    require (0 < value) (.validation "limit must be a positive integer")
    pure (min value MAX_LIMIT)

def ConversionLeaseListFilters.accepts (filters : ConversionLeaseListFilters)
    (lease : ConversionLease) : Bool :=
  filters.workspaceId.all (fun id => decide (lease.workspaceId = id)) &&
    filters.workerId.all (fun id => decide (lease.workerId = id)) &&
    filters.conversionRunId.all (fun id => decide (lease.conversionRunId = id)) &&
    filters.status.all fun status => decide (lease.status = status)

/-- `ORDER BY issued_at DESC`.  The leases of a status are read through the index on their status and
    expiry, so leases issued at one instant come by their expiry, and then in the order they were
    stored. -/
def newestFirst (leases : List ConversionLease) (lease : ConversionLease) :
    (Nat ×ₗ Int ×ₗ Timestamp)ᵒᵈ ×ₗ (Nat ×ₗ Int ×ₗ Timestamp) ×ₗ Nat :=
  toLex (OrderDual.toDual (isoOrder lease.issuedAt),
    toLex (isoOrder lease.expiresAt, (leases.map (·.id)).idxOf lease.id))

structure ConversionLeaseListResult where
  items : List ConversionLease
  total : Nat
  limit : Nat
  offset : Nat

def parseLease (lease : ConversionLease) : Except RegistryError ConversionLease := do
  require (isConversionLease lease = true) (.validation "Persisted ConversionLease is invalid")
  pure lease

def listLeases (filters : ConversionLeaseListFilters) (db : ConversionDatabase) :
    Except RegistryError ConversionLeaseListResult := do
  let limit ← normalizeLimit filters.limit
  let offset := filters.offset.getD 0
  let rows := db.leases.filter filters.accepts
  let items ← (((ordered (newestFirst db.leases) rows).drop offset).take limit).mapM parseLease
  pure { items, total := rows.length, limit, offset }

/-! ### The sweep -/

/-- The clock reading and the event id a repository uses when it closes a lease. -/
structure ReconciliationValues where
  clock : Timestamp
  eventId : Id

/-- A call of `reconcileExpiredConversionLeases`. -/
structure Sweep where
  workspaceId : Id
  limit : Nat
  now : Timestamp
  values : Id → ReconciliationValues

inductive LeaseOutcome where
  | expiredBeforeStart | failedStarted | failed
deriving DecidableEq

structure ExpiredConversionLeaseReconciliationResult where
  inspected : Nat
  expiredBeforeStart : Nat
  failedStarted : Nat
  failed : Nat
deriving DecidableEq

def ExpiredConversionLeaseReconciliationResult.count
    (result : ExpiredConversionLeaseReconciliationResult) (outcome : LeaseOutcome) :
    ExpiredConversionLeaseReconciliationResult :=
  match outcome with
  | .expiredBeforeStart => { result with expiredBeforeStart := result.expiredBeforeStart + 1 }
  | .failedStarted => { result with failedStarted := result.failedStarted + 1 }
  | .failed => { result with failed := result.failed + 1 }

def leaseExpiredKey (lease : ConversionLease) : String :=
  "lease-expired:" ++ idText "cvl" lease.id ++ ":" ++ toString lease.generation

def beforeStartInput (sweep : Sweep) (lease : ConversionLease) : CloseConversionLeaseInput where
  workspaceId := sweep.workspaceId
  workerId := lease.workerId
  reconciliationCode := "CONVERSION_LEASE_EXPIRED_BEFORE_START"

def beforeStartClosing (sweep : Sweep) (lease : ConversionLease) : ConversionCall :=
  .expireBeforeStart lease.id (beforeStartInput sweep lease) (sweep.values lease.id).clock

def startedInput (sweep : Sweep) (lease : ConversionLease) :
    ReconcileExpiredConversionLeaseInput where
  workspaceId := sweep.workspaceId
  reconcilerId := "conversion-worker-claim-reconciler"
  idempotencyKey := leaseExpiredKey lease

def startedClosing (sweep : Sweep) (lease : ConversionLease) : ConversionCall :=
  .reconcileExpiredStartedLease lease.id (startedInput sweep lease) (sweep.values lease.id).clock
    (sweep.values lease.id).eventId

section Sweep

variable (platform : ConversionPlatform) (sweep : Sweep)

/-- What the repositories do with an expired lease whose attempt is in this state. -/
def closingOf (attempt : ConversionAttempt) (lease : ConversionLease) :
    Option (ConversionCall × LeaseOutcome) :=
  if attempt.status = .claimed ∧ attempt.startedAt = none then
    some (beforeStartClosing sweep lease, .expiredBeforeStart)
  else if attempt.status = .started ∧ attempt.startedAt.isSome then
    some (startedClosing sweep lease, .failedStarted)
  else none

/-- The body of the loop for an expired lease; what a repository throws is counted. -/
def reconcileLease (lease : ConversionLease) (db : ConversionDatabase) :
    LeaseOutcome × ConversionDatabase :=
  match db.getAttempt lease.conversionAttemptId with
  | .error _ => (.failed, db)
  | .ok attempt =>
    match closingOf sweep attempt lease with
    | none => (.failed, db)
    | some (call, outcome) =>
      match perform platform db call with
      | (.ok _, db) => (outcome, db)
      | (.error _, db) => (.failed, db)

def inspectLease (state : ExpiredConversionLeaseReconciliationResult × ConversionDatabase)
    (lease : ConversionLease) : ExpiredConversionLeaseReconciliationResult × ConversionDatabase :=
  if sweep.now < lease.expiresAt then state
  else
    let (outcome, db) := reconcileLease platform sweep lease state.2
    ({ state.1 with inspected := state.1.inspected + 1 }.count outcome, db)

def reconcileExpiredConversionLeases (db : ConversionDatabase) :
    ExpiredConversionLeaseReconciliationResult × ConversionDatabase :=
  let result : ExpiredConversionLeaseReconciliationResult :=
    { inspected := 0, expiredBeforeStart := 0, failedStarted := 0, failed := 0 }
  match listLeases { workspaceId := some sweep.workspaceId, workerId := none
                     conversionRunId := none, status := some .active
                     limit := some sweep.limit, offset := none } db with
  | .error _ => ({ result with failed := result.failed + 1 }, db)
  | .ok page => page.items.foldl (inspectLease platform sweep) (result, db)

/-- Sweeps, one after another. -/
def sweeper : Machine ConversionDatabase Sweep where
  init := .empty
  step db sweep := (reconcileExpiredConversionLeases platform sweep db).2

end Sweep

/-! ### What the page shows -/

/-- The ACTIVE leases of a workspace. -/
def activeLeases (db : ConversionDatabase) (workspaceId : Id) : List ConversionLease :=
  db.leases.filter fun lease =>
    decide (lease.workspaceId = workspaceId) && decide (lease.status = .active)

/-- Those of them that have expired at `now`. -/
def expiredLeases (db : ConversionDatabase) (workspaceId : Id) (now : Timestamp) :
    List ConversionLease :=
  (activeLeases db workspaceId).filter fun lease => decide (lease.expiresAt ≤ now)

/-- The ACTIVE leases of a workspace that the page shows before this one. -/
def newerLeases (db : ConversionDatabase) (workspaceId : Id) (lease : ConversionLease) : Nat :=
  before (newestFirst db.leases) (activeLeases db workspaceId) lease

section Page

variable {db : ConversionDatabase} {workspaceId : Id} {lease : ConversionLease}

theorem mem_activeLeases : lease ∈ activeLeases db workspaceId ↔
    lease ∈ db.leases ∧ lease.workspaceId = workspaceId ∧ lease.status = .active := by
  simp [activeLeases]

theorem mem_expiredLeases {now : Timestamp} : lease ∈ expiredLeases db workspaceId now ↔
    lease ∈ activeLeases db workspaceId ∧ lease.expiresAt ≤ now := by
  simp [expiredLeases]

theorem newestFirst_injective (hkeys : KeysUnique db.leases) :
    ((activeLeases db workspaceId).map (newestFirst db.leases)).Nodup := by
  have hids : ((activeLeases db workspaceId).map Tables.key).Nodup := hkeys.filter _
  refine List.pairwise_map.mpr ((List.pairwise_map.mp hids).imp_of_mem ?_)
  intro left right hleft hright hne heq
  have hposition : (db.leases.map (·.id)).idxOf left.id = (db.leases.map (·.id)).idxOf right.id :=
    congrArg (fun key => (ofLex (ofLex key).2).2) heq
  have hstored : left.id ∈ db.leases.map (·.id) :=
    List.mem_map_of_mem (mem_activeLeases.mp hleft).1
  exact hne ((List.idxOf_inj hstored).mp hposition)

/-- The page a sweep asks for. -/
theorem listLeases_eq_ok (hs : Sound db) (workspaceId : Id) {limit : Nat} (hlimit : 1 ≤ limit) :
    ∃ page, listLeases { workspaceId := some workspaceId, workerId := none, conversionRunId := none
                         status := some .active, limit := some limit, offset := none } db = .ok page ∧
      page.items = window (newestFirst db.leases) (min limit MAX_LIMIT) (activeLeases db workspaceId) := by
  have hrows : db.leases.filter (ConversionLeaseListFilters.accepts
      { workspaceId := some workspaceId, workerId := none, conversionRunId := none
        status := some .active, limit := some limit, offset := none }) = activeLeases db workspaceId := by
    refine List.filter_congr fun lease _ => ?_
    simp [ConversionLeaseListFilters.accepts]
  have hitems : (window (newestFirst db.leases) (min limit MAX_LIMIT)
      (activeLeases db workspaceId)).mapM parseLease =
        .ok (window (newestFirst db.leases) (min limit MAX_LIMIT) (activeLeases db workspaceId)) := by
    have hparse : ∀ lease (parsed : ConversionLease), parseLease lease = .ok parsed ↔
        isConversionLease lease = true ∧ lease = parsed := by
      intro lease parsed
      simp only [parseLease, bind_eq_ok, require_eq_ok, pure_eq_ok]
      constructor
      · rintro ⟨_, hvalid, heq⟩
        exact ⟨hvalid, heq⟩
      · rintro ⟨hvalid, heq⟩
        exact ⟨(), hvalid, heq⟩
    rw [mapM_guarded hparse, List.map_id']
    refine ⟨fun lease hlease => hs.stored.leases lease ?_, rfl⟩
    have hactive := ((mem_window (newestFirst_injective hs.stored.leaseKeys)).mp hlease).1
    exact (mem_activeLeases.mp hactive).1
  have hpositive : 0 < limit := hlimit
  refine ⟨⟨_, (activeLeases db workspaceId).length, min limit MAX_LIMIT, 0⟩, ?_, rfl⟩
  simp only [listLeases, normalizeLimit, hrows, bind_eq_ok, require_eq_ok, pure_eq_ok]
  exact ⟨_, ⟨(), hpositive, rfl⟩, _, hitems, rfl⟩

end Page

/-! ### What an expired lease needs to be closed -/

def startedKey (sweep : Sweep) (lease : ConversionLease) : VerifierKey where
  workspaceId := sweep.workspaceId
  verifierId := "conversion-worker-claim-reconciler"
  idempotencyKey := leaseExpiredKey lease

/-- What closing a lease after its attempt started needs. -/
@[mk_iff]
structure StartedClosable (db : ConversionDatabase) (sweep : Sweep) (lease : ConversionLease) :
    Prop where
  expired : lease.expiresAt ≤ (sweep.values lease.id).clock
  started : ∀ run ∈ db.run? lease.conversionRunId, ∀ startedAt ∈ run.startedAt,
    startedAt ≤ (sweep.values lease.id).clock
  freshKey : ∀ row ∈ db.verifierTransitions, verifierKeyed (startedKey sweep lease) row = false
  freshEvent : ∀ stored ∈ db.events, stored.id ≠ (sweep.values lease.id).eventId
  room : (eventsOfRun db lease.conversionRunId).length + 1 ≤ 2 ^ 53 - 1

/-- What closing a lease needs: the clock of the repository is not behind the instants it has to
    follow, and, once the attempt started, the key and the event id of the closing are unused. -/
@[mk_iff]
structure Closable (db : ConversionDatabase) (sweep : Sweep) (lease : ConversionLease) : Prop where
  clock : isRfc3339 (sweep.values lease.id).clock = true
  issued : lease.issuedAt ≤ (sweep.values lease.id).clock
  started : ∀ attempt ∈ find? db.attempts lease.conversionAttemptId, attempt.status = .started →
    StartedClosable db sweep lease

instance (db : ConversionDatabase) (sweep : Sweep) (lease : ConversionLease) :
    Decidable (StartedClosable db sweep lease) := decidable_of_iff' _ (startedClosable_iff db sweep lease)

instance (db : ConversionDatabase) (sweep : Sweep) (lease : ConversionLease) :
    Decidable (Closable db sweep lease) := decidable_of_iff' _ (closable_iff db sweep lease)

/-- The lease, and no other, is closed. -/
def Closes (lease : ConversionLease) (db db' : ConversionDatabase) : Prop :=
  ∃ closed : ConversionLease, closed.id = lease.id ∧ closed.status = .expired ∧
    db'.leases = update db.leases closed

/-- An attempt that is started has a starting instant. -/
def StartsDated (h : RunHistory) : Prop :=
  ∀ attempt ∈ h.attempts, attempt.status = .started → attempt.startedAt ≠ none

theorem startsDated_step {h h' : RunHistory} (_ : KeysUnique h.attempts) (hstep : RunStep h h')
    (hdated : StartsDated h) : StartsDated h' := by
  cases hstep with
  | dispatched => exact hdated
  | cancelled => exact hdated
  | renewed => exact hdated
  | claimed _ _ _ _ _ _ hattempt =>
    intro attempt hmem hstarted
    rcases List.mem_append.mp hmem with hmem | hmem
    · exact hdated attempt hmem hstarted
    · obtain rfl := List.mem_singleton.mp hmem
      rw [hattempt] at hstarted
      cases hstarted
  | @closed _ _ closing =>
    intro attempt hmem hstarted
    rcases mem_update.mp hmem with ⟨hmem, -⟩ | ⟨rfl, -⟩
    · exact hdated attempt hmem hstarted
    · cases closing <;> cases hstarted
  | @moved run attempt lease t _ _ hattempt _ _ hmoved =>
    intro other hmem hstarted
    rcases mem_update.mp hmem with ⟨hmem, -⟩ | ⟨rfl, -⟩
    · exact hdated other hmem hstarted
    · cases hmoved with
      | started => simp [startedTransition]
      | progress _ hattemptStarted => exact hdated attempt hattempt hattemptStarted
      | outputReady => cases hstarted
      | failed => cases hstarted
      | completed _ hreported =>
        rw [completedTransition, hreported] at hstarted
        cases hstarted
      | verificationFailed => exact hdated attempt hattempt hstarted
      | expired => cases hstarted

/-- What holds in every reachable state of the store. -/
structure Reconcilable (db : ConversionDatabase) : Prop where
  sound : Sound db
  dated : ∀ runId, StartsDated (history db runId)

theorem reconcilable_run (platform : ConversionPlatform) (calls : List ConversionCall) :
    Reconcilable ((store platform).run calls) where
  sound := sound_run calls
  dated _ := history_runFrom startsDated_step sound_empty (fun _ hattempt => by cases hattempt) calls

/-- The run and the attempt of an active lease. -/
structure HeldClaim (db : ConversionDatabase) (lease : ConversionLease) (run : ConversionRun)
    (attempt : ConversionAttempt) : Prop where
  findRun : db.run? lease.conversionRunId = some run
  runId : run.id = lease.conversionRunId
  findAttempt : find? db.attempts lease.conversionAttemptId = some attempt
  last : LastClaim db run.id attempt lease
  tenure : Tenure run attempt lease
  phase : Phase attempt lease run.status

/-- The attempt of an active lease has not started, or its run is running. -/
theorem Phase.of_active {attempt : ConversionAttempt} {lease : ConversionLease}
    {status : ConversionRunStatus} (h : Phase attempt lease status) (hactive : lease.status = .active) :
    attempt.status = .claimed ∧ attempt.startedAt = none ∨
      attempt.status = .started ∧ status = .running := by
  cases h with
  | claimed hattempt hunstarted => exact Or.inl ⟨hattempt, hunstarted⟩
  | cancelled hattempt hunstarted => exact Or.inl ⟨hattempt, hunstarted⟩
  | running hattempt => exact Or.inr ⟨hattempt, rfl⟩
  | _ => simp_all

theorem Reconcilable.held {db : ConversionDatabase} (hr : Reconcilable db) {lease : ConversionLease}
    (hlease : lease ∈ db.leases) (hactive : lease.status = .active) :
    ∃ run attempt, HeldClaim db lease run attempt := by
  have hmem : lease ∈ (history db lease.conversionRunId).leases := mem_leasesOfRun.mpr ⟨hlease, rfl⟩
  have hagrees := hr.sound.agrees lease.conversionRunId
  cases hrun : (history db lease.conversionRunId).run with
  | none =>
    rw [hagrees.absent hrun] at hmem
    cases hmem
  | some run =>
    obtain ⟨claims, hclaimed⟩ := hagrees.claimed run hrun
    obtain ⟨attempt, hpair⟩ := hclaimed.exists_of_lease hmem
    obtain ⟨earlier, rfl, -, hphase⟩ := hclaimed.phase.active_last hpair hactive
    have hid : run.id = lease.conversionRunId := id_of_run? hrun
    have htenure := hclaimed.tenure _ hpair
    have hattempt := (mem_attemptsOfRun.mp (hclaimed.attempt_mem hpair)).1
    refine ⟨run, attempt, hrun, hid, ?_, ?_, htenure, hphase⟩
    · exact hr.sound.stored.attemptKeys.find?_eq_some_iff.mpr ⟨hattempt, htenure.attemptId.symm⟩
    · change Claimed (db.attemptsOfRun lease.conversionRunId) (db.leasesOfRun lease.conversionRunId)
        run _ at hclaimed
      rw [← hid] at hclaimed
      exact hclaimed.lastClaim

/-! ### Closing one lease -/

section Closing

variable {run : ConversionRun} {attempt : ConversionAttempt} {lease : ConversionLease} {t : Timestamp}

theorem expired_lease_valid (hvalid : isConversionLease lease = true)
    (hactive : lease.status = .active) :
    isConversionLease { lease with status := .expired, expiredAt := some t } = true ↔
      isRfc3339 t = true ∧ lease.issuedAt ≤ t := by
  obtain ⟨hreleased, -, hsuperseded⟩ := closing_instants_none hvalid hactive
  simp only [isConversionLease, Bool.and_eq_true] at hvalid
  obtain ⟨⟨hfields, -⟩, -⟩ := hvalid
  simp [isConversionLease, hreleased, hsuperseded, hfields]

theorem ended_attempt_valid (hvalid : isConversionAttempt attempt = true) {code : String}
    (hcode : isStr code 100 = true) {failure : Option AttemptFailure}
    (hfailure : failure.all AttemptFailure.isValid = true) :
    isConversionAttempt
        { attempt with
          status := .leaseLost, outcome := some .leaseLost, endedAt := some t, failure
          reconciliation := some code } = true ↔ isRfc3339 t = true := by
  simp only [isConversionAttempt, Bool.and_eq_true] at hvalid
  obtain ⟨⟨⟨⟨hfields, -⟩, -⟩, -⟩, -⟩ := hvalid
  simp [isConversionAttempt, hfields, hcode, hfailure]

theorem failed_run_valid (hvalid : isConversionRun run = true) (hstatus : run.status = .running)
    {failure : ConversionFailure} (hfailure : failure.isValid = true) (ht : isRfc3339 t = true) :
    isConversionRun (failedRun run failure t) = true ↔ ∀ startedAt ∈ run.startedAt, startedAt ≤ t := by
  obtain ⟨startedAt, hstarted, hrfc, hcreated, hverifying, hcompleted, -, hcancelled, -, hdocument⟩ :=
    running_instants hvalid hstatus
  simp only [isConversionRun, Bool.and_eq_true] at hvalid
  obtain ⟨⟨⟨⟨⟨hfields, hcreatedAt⟩, -⟩, -⟩, -⟩, -⟩ := hvalid
  have hsnapshots : snapshotsMatch (failedRun run failure t) = snapshotsMatch run := rfl
  rw [isConversionRun, hsnapshots]
  simp [failedRun, runLifecycle, timestampsOrdered, ConversionRun.instants, hstarted,
    hrfc, ht, hverifying, hcompleted, hcancelled, hdocument, hfailure, hcreated, hcreatedAt, hfields]

variable {db : ConversionDatabase} {sweep : Sweep} (platform : ConversionPlatform)

theorem expireBeforeStart_eq_ok (hr : Reconcilable db) (hlease : lease ∈ db.leases)
    (hactive : lease.status = .active) (hheld : HeldClaim db lease run attempt)
    (hclaimed : attempt.status = .claimed) (hunstarted : attempt.startedAt = none)
    (input : CloseConversionLeaseInput) (t : Timestamp)
    (hscope : lease.workspaceId = input.workspaceId ∧ lease.workerId = input.workerId)
    (hcode : isStr input.reconciliationCode 100 = true) {closed : ConversionLease}
    {db' : ConversionDatabase} :
    expireBeforeStart lease.id input t db = .ok (closed, db') ↔
      (isRfc3339 t = true ∧ lease.issuedAt ≤ t) ∧
        closed = PreStartClosing.expired.closedLease lease t ∧
        db' = updateAttempt (updateLease db closed)
          (PreStartClosing.expired.endedAttempt attempt input.reconciliationCode t) := by
  have hvalid := hr.sound.stored.leases lease hlease
  have hattemptValid := hr.sound.stored.attempts attempt (mem_of_find? hheld.findAttempt)
  have hfind : find? db.leases lease.id = some lease :=
    hr.sound.stored.leaseKeys.find?_eq_some_iff.mpr ⟨hlease, rfl⟩
  have hfailure : attempt.failure.all AttemptFailure.isValid = true := by
    simp only [isConversionAttempt, Bool.and_eq_true] at hattemptValid
    exact hattemptValid.1.2
  have hleaseNext : isConversionLease (PreStartClosing.expired.closedLease lease t) = true ↔ _ :=
    expired_lease_valid hvalid hactive
  have hattemptNext : isConversionAttempt
      (PreStartClosing.expired.endedAttempt attempt input.reconciliationCode t) = true ↔ _ :=
    ended_attempt_valid hattemptValid hcode hfailure
  simp only [expireBeforeStart, closeBeforeStart, leaseScope, bind_eq_ok, require_eq_ok, pure_eq_ok,
    getLease_eq_ok, getAttempt_eq_ok, Prod.mk.injEq]
  constructor
  · rintro ⟨_, ⟨hlease', -⟩, _, -, _, -, _, ⟨hattempt', -⟩, _, -, _, ⟨hnext, -⟩, rfl, rfl⟩
    obtain rfl := Option.some.inj (hfind.symm.trans hlease')
    obtain rfl := Option.some.inj (hheld.findAttempt.symm.trans hattempt')
    exact ⟨hleaseNext.mp hnext, rfl, rfl⟩
  · rintro ⟨hinstants, rfl, rfl⟩
    exact ⟨lease, ⟨hfind, hvalid⟩, (), hscope, (), hactive, attempt, ⟨hheld.findAttempt, hattemptValid⟩,
      (), ⟨hclaimed, hunstarted⟩, (), ⟨hleaseNext.mpr hinstants, hattemptNext.mpr hinstants.1⟩, rfl,
      rfl⟩

/-- Closing before the start closes the lease, or changes nothing. -/
theorem beforeStartClosing_spec (hr : Reconcilable db) (hlease : lease ∈ db.leases)
    (hactive : lease.status = .active) (hworkspace : lease.workspaceId = sweep.workspaceId)
    (hheld : HeldClaim db lease run attempt) (hclaimed : attempt.status = .claimed)
    (hunstarted : attempt.startedAt = none) :
    (Closable db sweep lease → Closes lease db (perform platform db (beforeStartClosing sweep lease)).2) ∧
    (¬ Closable db sweep lease → (perform platform db (beforeStartClosing sweep lease)).2 = db) := by
  have hcode : isStr (beforeStartInput sweep lease).reconciliationCode 100 = true := by
    change isStr "CONVERSION_LEASE_EXPIRED_BEFORE_START" 100 = true
    decide
  constructor
  · intro hclosable
    have hclosed := (expireBeforeStart_eq_ok hr hlease hactive hheld hclaimed hunstarted
      (beforeStartInput sweep lease) (sweep.values lease.id).clock ⟨hworkspace, rfl⟩ hcode).mpr
      ⟨⟨hclosable.clock, hclosable.issued⟩, rfl, rfl⟩
    obtain ⟨outcome, db', hbody, hleases⟩ : ∃ outcome db',
        body platform (beforeStartClosing sweep lease) db = .ok (outcome, db') ∧
          db'.leases = update db.leases
            (PreStartClosing.expired.closedLease lease (sweep.values lease.id).clock) := by
      simp only [body, beforeStartClosing, bind_eq_ok, pure_eq_ok]
      exact ⟨_, _, ⟨_, hclosed, rfl⟩, rfl⟩
    rw [perform, commit_of_ok hbody]
    exact ⟨PreStartClosing.expired.closedLease lease _, rfl, rfl, hleases⟩
  · intro hnot
    cases hbody : body platform (beforeStartClosing sweep lease) db with
    | error error => rw [perform, commit_of_error hbody]
    | ok result =>
      simp only [body, beforeStartClosing, bind_eq_ok] at hbody
      obtain ⟨_, hclosed, -⟩ := hbody
      obtain ⟨⟨hclock, hissued⟩, -⟩ := (expireBeforeStart_eq_ok hr hlease hactive hheld hclaimed
        hunstarted (beforeStartInput sweep lease) (sweep.values lease.id).clock ⟨hworkspace, rfl⟩
        hcode).mp hclosed
      refine absurd ⟨hclock, hissued, fun other hother hstarted => ?_⟩ hnot
      obtain rfl := Option.some.inj (hheld.findAttempt.symm.trans hother)
      rw [hclaimed] at hstarted
      cases hstarted

theorem isIdempotencyKey_leaseExpired (hvalid : isConversionLease lease = true) :
    isIdempotencyKey (leaseExpiredKey lease) = true := by
  have hgeneration : lease.generation < 10 ^ 16 := by
    simp only [isConversionLease, positiveInteger, isSafeInteger, Bool.and_eq_true,
      decide_eq_true_eq] at hvalid
    omega
  have hdigits : (Nat.toDigits 10 lease.generation).length ≤ 16 :=
    (Nat.length_toDigits_le_iff (by decide) (by decide)).mpr hgeneration
  have hlist : (leaseExpiredKey lease).toList = 'l' :: ("ease-expired:cvl_".toList ++
      encodeBase32 lease.id 26 ++ ':' :: Nat.toDigits 10 lease.generation) := by
    have hkey : leaseExpiredKey lease =
        "lease-expired:" ++ idText "cvl" lease.id ++ ":" ++ toString lease.generation := rfl
    rw [hkey]
    simp [toList_idText]
  rw [isIdempotencyKey, hlist]
  have hlength : ("ease-expired:cvl_".toList ++ encodeBase32 lease.id 26 ++
      ':' :: Nat.toDigits 10 lease.generation).length ≤ 199 := by
    have hprefix : "ease-expired:cvl_".toList.length = 17 := rfl
    simp only [List.length_append, List.length_cons, length_encodeBase32, hprefix]
    omega
  have hall : ∀ c ∈ "ease-expired:cvl_".toList ++ encodeBase32 lease.id 26 ++
      ':' :: Nat.toDigits 10 lease.generation,
      (isAlnum c || c == '.' || c == '_' || c == ':' || c == '-') = true := by
    intro c hc
    rcases List.mem_append.mp hc with hc | hc
    · rcases List.mem_append.mp hc with hc | hc
      · exact List.all_eq_true.mp (by decide : "ease-expired:cvl_".toList.all fun d =>
          isAlnum d || d == '.' || d == '_' || d == ':' || d == '-') c hc
      · simp [isAlnum_of_crockford (mem_encodeBase32 c hc)]
    · rcases List.mem_cons.mp hc with rfl | hc
      · decide
      · have hdigit := Nat.isDigit_of_mem_toDigits (by decide) (by decide) hc
        simp [isAlnum, isLowerAlnum, hdigit]
  simp only [Bool.and_eq_true, decide_eq_true_eq]
  exact ⟨⟨by decide, hlength⟩, List.all_eq_true.mpr hall⟩

theorem expired_event_valid (hstatus : run.status = .running) (actorId : String)
    (hactor : isActorId actorId = true) (ht : isRfc3339 t = true) (eventId : Id) :
    isConversionExecutionEvent ((expiredTransition actorId t run attempt lease).event db run eventId) =
        true ↔ maxSequence db run.id + 1 ≤ 2 ^ 53 - 1 := by
  have hfailure : ConversionFailure.isValid
      { kind := .timeout, code := leaseExpiredFailure.code, message := leaseExpiredFailure.message
        retryable := false } = true := by decide
  simp [isConversionExecutionEvent, expiredTransition, Transition.event, failedRun, hstatus, ht,
    canTransitionConversionRun, eventTransition, eventPayload, positiveInteger, isSafeInteger,
    systemActor, ConversionActor.isValid, hactor, hfailure]

/-- The last attempt of a run has its highest ordinal. -/
theorem LastClaim.latest (hlast : LastClaim db run.id attempt lease)
    (hordinals : (db.attemptsOfRun run.id).map (·.ordinal) =
      List.range' 1 (db.attemptsOfRun run.id).length) :
    attempt ∈ (db.attemptsOfRun run.id).argmax (·.ordinal) := by
  obtain ⟨earlier, hsplit⟩ := List.getLast?_eq_some_iff.mp hlast.last
  rw [hsplit, List.map_append, List.length_append, List.length_singleton, List.range'_1_concat] at hordinals
  obtain ⟨hearlier, hordinal⟩ := List.append_inj' hordinals rfl
  rw [hsplit, List.argmax_concat]
  cases hmax : earlier.argmax (·.ordinal) with
  | none => rfl
  | some other =>
    have hother : other.ordinal ∈ earlier.map (·.ordinal) :=
      List.mem_map_of_mem (List.argmax_mem hmax)
    have hlt : other.ordinal < attempt.ordinal := by
      have heq : attempt.ordinal = 1 + earlier.length := (List.cons.inj hordinal).1
      rw [hearlier, List.mem_range'_1] at hother
      omega
    simp [hlt]

theorem verifierReplay_eq_none {key : VerifierKey} {requestDigest : Digest}
    (h : verifierReplay db key requestDigest = .ok none) :
    db.verifierTransitions.find? (verifierKeyed key) = none := by
  unfold verifierReplay at h
  cases hfind : db.verifierTransitions.find? (verifierKeyed key) with
  | none => rfl
  | some previous =>
    rw [hfind] at h
    simp only [bind_eq_ok, map_eq_ok] at h
    obtain ⟨_, -, _, -, hsome⟩ := h
    cases hsome

theorem startedClosing_eq (hvalid : isConversionLease lease = true)
    (hlease : find? db.leases lease.id = some lease) {outcome : ConversionOutcome}
    {db' : ConversionDatabase} :
    body platform (startedClosing sweep lease) db = .ok (outcome, db') ↔
      ∃ result, applyVerifierTransition platform
        (.reconcileExpired lease.id sweep.workspaceId "conversion-worker-claim-reconciler"
          (leaseExpiredKey lease))
        lease.conversionRunId (sweep.values lease.id).clock (sweep.values lease.id).eventId db =
          .ok (result, db') ∧ outcome = .transitioned result := by
  have hactor : isActorId "conversion-worker-claim-reconciler" = true ∧
      trim "conversion-worker-claim-reconciler" = "conversion-worker-claim-reconciler" := by decide
  have hkey := isIdempotencyKey_leaseExpired hvalid
  simp only [body, startedClosing, startedInput, reconcileExpiredStartedLease, validateActor,
    transitionKeyOf, idempotencyKeyOf, trim_of_isIdempotencyKey hkey, hactor.2, bind_eq_ok,
    require_eq_ok, pure_eq_ok, loadLease_eq_ok, Prod.mk.injEq]
  constructor
  · rintro ⟨⟨result, _⟩, ⟨_, ⟨_, -, rfl⟩, _, ⟨_, -, rfl⟩, _, ⟨hlease', -⟩, happly⟩, rfl, rfl⟩
    obtain rfl := Option.some.inj (hlease.symm.trans hlease')
    exact ⟨result, happly, rfl⟩
  · rintro ⟨result, happly, rfl⟩
    exact ⟨(result, db'), ⟨_, ⟨(), hactor.1, rfl⟩, _, ⟨(), hkey, rfl⟩, lease, ⟨hlease, hvalid⟩, happly⟩,
      rfl, rfl⟩

/-- When the transition of an expired lease can be stored. -/
theorem expiredTransition_stored_iff (hr : Reconcilable db) (hlease : lease ∈ db.leases)
    (hactive : lease.status = .active) (hheld : HeldClaim db lease run attempt)
    (hstatus : run.status = .running) {actorId : String} (hactor : isActorId actorId = true)
    {eventId : Id} :
    (∃ result mid, storeTransition db run (expiredTransition actorId t run attempt lease) eventId =
        .ok (result, mid)) ↔
      (isRfc3339 t = true ∧ lease.issuedAt ≤ t) ∧ (∀ startedAt ∈ run.startedAt, startedAt ≤ t) ∧
        (∀ stored ∈ db.events, stored.id ≠ eventId) ∧
        (eventsOfRun db lease.conversionRunId).length + 1 ≤ 2 ^ 53 - 1 := by
  obtain ⟨row, hrow, heq⟩ := run?_eq_some.mp hheld.findRun
  have hrunValid : isConversionRun run = true := heq ▸ hr.sound.stored.runs row (mem_of_find? hrow)
  have hattemptValid := hr.sound.stored.attempts attempt (mem_of_find? hheld.findAttempt)
  have hfailure : ConversionFailure.isValid
      { kind := .timeout, code := leaseExpiredFailure.code, message := leaseExpiredFailure.message
        retryable := false } = true := by decide
  have hnextLease : isConversionLease (expiredTransition actorId t run attempt lease).lease = true ↔ _ :=
    expired_lease_valid (hr.sound.stored.leases lease hlease) hactive
  have hnextAttempt :
      isConversionAttempt (expiredTransition actorId t run attempt lease).attempt = true ↔ _ :=
    ended_attempt_valid hattemptValid (by decide : isStr leaseExpiredFailure.code 100 = true)
      (by decide : (some leaseExpiredFailure).all AttemptFailure.isValid = true)
  constructor
  · rintro ⟨result, mid, hstored⟩
    obtain ⟨⟨hrun, -, hclosed, hevent⟩, hfresh, -⟩ := storeTransition_eq_ok.mp hstored
    have hinstants := hnextLease.mp hclosed
    have hroom := (expired_event_valid hstatus actorId hactor hinstants.1 eventId).mp hevent
    rw [hr.sound.maxSequence_eq run.id, hheld.runId] at hroom
    exact ⟨hinstants, (failed_run_valid hrunValid hstatus hfailure hinstants.1).mp hrun, hfresh, hroom⟩
  · rintro ⟨hinstants, hstarted, hfresh, hroom⟩
    rw [← hheld.runId, ← hr.sound.maxSequence_eq run.id] at hroom
    refine ⟨_, _, storeTransition_eq_ok.mpr ⟨⟨?_, hnextAttempt.mpr hinstants.1, hnextLease.mpr hinstants,
      ?_⟩, hfresh, hr.sound.sequence_fresh run.id, rfl, rfl⟩⟩
    · exact (failed_run_valid hrunValid hstatus hfailure hinstants.1).mpr hstarted
    · exact (expired_event_valid hstatus actorId hactor hinstants.1 eventId).mpr hroom

/-- The request that closes a lease after its attempt started, in a state where the lease is held. -/
theorem acceptExpired_eq_ok (hr : Reconcilable db) (hlease : lease ∈ db.leases)
    (hactive : lease.status = .active) (hheld : HeldClaim db lease run attempt)
    (hattempt : attempt.status = .started) (hstatus : run.status = .running)
    {workspaceId : Id} (hworkspace : lease.workspaceId = workspaceId) {actorId key : String}
    {digest : Digest} {eventId : Id} {result : ConversionRuntimeTransitionResult}
    {db' : ConversionDatabase} :
    acceptRequest (.reconcileExpired lease.id workspaceId actorId key) digest lease.conversionRunId t
        eventId db = .ok (result, db') ↔
      lease.expiresAt ≤ t ∧ ∃ mid, storeTransition db run (expiredTransition actorId t run attempt lease)
        eventId = .ok (result, mid) ∧
        db' = { mid with
          verifierTransitions := mid.verifierTransitions ++
            [{ workspaceId, verifierId := actorId, idempotencyKey := key, requestDigest := digest
               conversionRunId := run.id, eventId := result.event.id, createdAt := t }] } := by
  have hvalid := hr.sound.stored.leases lease hlease
  have hfind : find? db.leases attempt.conversionLeaseId = some lease :=
    hr.sound.stored.leaseKeys.find?_eq_some_iff.mpr ⟨hlease, hheld.tenure.leaseId.symm⟩
  obtain ⟨row, hrow, heq⟩ := run?_eq_some.mp hheld.findRun
  have hrunStored := mem_of_find? hrow
  have hrunValid : isConversionRun run = true := heq ▸ hr.sound.stored.runs row hrunStored
  have hattemptValid := hr.sound.stored.attempts attempt (mem_of_find? hheld.findAttempt)
  have hlatest := hheld.last.latest (heq ▸ (hr.sound.runAgreement hrunStored).ordinals)
  have hof : run.workspaceId = workspaceId := hheld.tenure.leaseWorkspace.symm.trans hworkspace
  simp only [acceptRequest, verifierTransition, VerifierRequest.key, bind_eq_ok, require_eq_ok,
    pure_eq_ok, loadRun_eq_ok, loadLatestAttempt_eq_ok, loadLease_eq_ok, Prod.mk.injEq]
  constructor
  · rintro ⟨_, ⟨hrun', -⟩, _, -, _, ⟨hlatest', -⟩, _, ⟨hfind', -⟩, _, ⟨_, -, _, hexpired, rfl⟩,
      ⟨_, mid⟩, hstored, rfl, rfl⟩
    obtain rfl := Option.some.inj (hheld.findRun.symm.trans hrun')
    obtain rfl := Option.some.inj (hlatest.symm.trans hlatest')
    obtain rfl := Option.some.inj (hfind.symm.trans hfind')
    exact ⟨hexpired, mid, hstored, rfl⟩
  · rintro ⟨hexpired, mid, hstored, rfl⟩
    exact ⟨run, ⟨hheld.findRun, hrunValid⟩, (), require_eq_ok.mpr hof, attempt, ⟨hlatest, hattemptValid⟩, lease,
      ⟨hfind, hvalid⟩, _, ⟨(), ⟨hactive, hattempt, hstatus⟩, (), hexpired, rfl⟩, (result, mid), hstored,
      rfl, rfl⟩

/-- Closing after the start closes the lease, or changes nothing. -/
theorem startedClosing_spec (hr : Reconcilable db) (hlease : lease ∈ db.leases)
    (hactive : lease.status = .active) (hworkspace : lease.workspaceId = sweep.workspaceId)
    (hheld : HeldClaim db lease run attempt) (hattempt : attempt.status = .started)
    (hstatus : run.status = .running) :
    (Closable db sweep lease → Closes lease db (perform platform db (startedClosing sweep lease)).2) ∧
    (¬ Closable db sweep lease → (perform platform db (startedClosing sweep lease)).2 = db) := by
  have hvalid := hr.sound.stored.leases lease hlease
  have hfind : find? db.leases lease.id = some lease :=
    hr.sound.stored.leaseKeys.find?_eq_some_iff.mpr ⟨hlease, rfl⟩
  have hactor : isActorId "conversion-worker-claim-reconciler" = true := by decide
  have hstoring := @expiredTransition_stored_iff run attempt lease (sweep.values lease.id).clock db hr
    hlease hactive hheld hstatus _ hactor (sweep.values lease.id).eventId
  constructor
  · intro hclosable
    have hstarted := hclosable.started attempt hheld.findAttempt hattempt
    have hnew : db.verifierTransitions.find? (verifierKeyed (startedKey sweep lease)) = none :=
      List.find?_eq_none.mpr fun row hrow => by simp [hstarted.freshKey row hrow]
    obtain ⟨result, mid, hstored⟩ := hstoring.mpr ⟨⟨hclosable.clock, hclosable.issued⟩,
      hstarted.started run hheld.findRun, hstarted.freshEvent, hstarted.room⟩
    obtain ⟨-, -, -, -, hmid⟩ := storeTransition_eq_ok.mp hstored
    have haccepted := fun digest => (@acceptExpired_eq_ok _ _ _ (sweep.values lease.id).clock db hr
      hlease hactive hheld hattempt hstatus _ hworkspace "conversion-worker-claim-reconciler"
      (leaseExpiredKey lease) digest _ result _).mpr ⟨hstarted.expired, mid, hstored, rfl⟩
    obtain ⟨db', happly, hleases⟩ : ∃ db', applyVerifierTransition platform
        (.reconcileExpired lease.id sweep.workspaceId "conversion-worker-claim-reconciler"
          (leaseExpiredKey lease))
        lease.conversionRunId (sweep.values lease.id).clock (sweep.values lease.id).eventId db =
          .ok (result, db') ∧ db'.leases = mid.leases := by
      simp only [applyVerifierTransition, verifierReplay, VerifierRequest.key, bind_eq_ok]
      rw [startedKey] at hnew
      rw [hnew]
      exact ⟨_, ⟨none, rfl, haccepted _⟩, rfl⟩
    have hbody := (startedClosing_eq platform hvalid hfind).mpr ⟨result, happly, rfl⟩
    rw [perform, commit_of_ok hbody]
    refine ⟨{ lease with status := .expired, expiredAt := some (sweep.values lease.id).clock }, rfl, rfl,
      hleases.trans ?_⟩
    rw [hmid]
    rfl
  · intro hnot
    cases hbody : body platform (startedClosing sweep lease) db with
    | error error => rw [perform, commit_of_error hbody]
    | ok done =>
      obtain ⟨outcome, db'⟩ := done
      rw [perform, commit_of_ok hbody]
      obtain ⟨result, happly, -⟩ := (startedClosing_eq platform hvalid hfind).mp hbody
      simp only [applyVerifierTransition, bind_eq_ok] at happly
      obtain ⟨replay, hreplay, happly⟩ := happly
      cases replay with
      | some replay =>
        simp only [pure_eq_ok, Prod.mk.injEq] at happly
        exact happly.2.symm
      | none =>
        obtain ⟨hexpired, mid, hstored, -⟩ :=
          (acceptExpired_eq_ok hr hlease hactive hheld hattempt hstatus hworkspace).mp happly
        obtain ⟨⟨hclock, hissued⟩, hstarted, hfresh, hroom⟩ := hstoring.mp ⟨result, mid, hstored⟩
        refine absurd ⟨hclock, hissued, fun other hother _ => ⟨hexpired, fun run' hrun' => ?_, ?_, hfresh,
          hroom⟩⟩ hnot
        · obtain rfl := Option.some.inj (hheld.findRun.symm.trans hrun')
          exact hstarted
        · intro row hrow
          have hnew := verifierReplay_eq_none hreplay
          exact Bool.eq_false_iff.mpr (List.find?_eq_none.mp hnew row hrow)

/-- What the sweep does with an expired lease: it closes the lease, and no other, or changes
    nothing. -/
theorem reconcileLease_spec (hr : Reconcilable db) (hlease : lease ∈ activeLeases db sweep.workspaceId) :
    (Closable db sweep lease → Closes lease db (reconcileLease platform sweep lease db).2) ∧
    (¬ Closable db sweep lease → (reconcileLease platform sweep lease db).2 = db) := by
  obtain ⟨hstored, hworkspace, hactive⟩ := mem_activeLeases.mp hlease
  obtain ⟨run, attempt, hheld⟩ := hr.held hstored hactive
  have hattemptStored := mem_of_find? hheld.findAttempt
  have hget : db.getAttempt lease.conversionAttemptId = .ok attempt :=
    getAttempt_eq_ok.mpr ⟨hheld.findAttempt, hr.sound.stored.attempts attempt hattemptStored⟩
  have hperform : ∀ call outcome, closingOf sweep attempt lease = some (call, outcome) →
      (reconcileLease platform sweep lease db).2 = (perform platform db call).2 := by
    intro call outcome hclosing
    simp only [reconcileLease, hget, hclosing]
    rcases perform platform db call with ⟨result | result, db'⟩ <;> rfl
  rcases hheld.phase.of_active hactive with ⟨hclaimed, hunstarted⟩ | ⟨hstarted, hrunning⟩
  · rw [hperform _ _ (if_pos ⟨hclaimed, hunstarted⟩)]
    exact beforeStartClosing_spec platform hr hstored hactive hworkspace hheld hclaimed hunstarted
  · have hdated : attempt.startedAt ≠ none :=
      hr.dated attempt.conversionRunId attempt (mem_attemptsOfRun.mpr ⟨hattemptStored, rfl⟩) hstarted
    have hclosing : closingOf sweep attempt lease = some (startedClosing sweep lease, .failedStarted) := by
      rw [closingOf, if_neg (by simp [hstarted]), if_pos ⟨hstarted, Option.isSome_iff_ne_none.mpr hdated⟩]
    rw [hperform _ _ hclosing]
    exact startedClosing_spec platform hr hstored hactive hworkspace hheld hstarted hrunning

theorem Reconcilable.perform (hr : Reconcilable db) (call : ConversionCall) :
    Reconcilable (perform platform db call).2 where
  sound := hr.sound.advances (perform_advances hr.sound call)
  dated _ := history_advances startsDated_step hr.sound (perform_advances hr.sound call) (hr.dated _)

theorem Reconcilable.reconcileLease (hr : Reconcilable db) (lease : ConversionLease) :
    Reconcilable (reconcileLease platform sweep lease db).2 := by
  unfold Conversion.reconcileLease
  split
  · exact hr
  · split
    · exact hr
    · rename_i call outcome _
      have hnext := hr.perform platform call
      split <;> rename_i hcall <;> rw [hcall] at hnext <;> exact hnext

end Closing

/-! ### One sweep -/

/-- What happens to a stored lease in a sweep: nothing, unless it has expired. -/
def LeaseSwept (sweep : Sweep) (lease swept : ConversionLease) : Prop :=
  swept = lease ∨ lease.expiresAt ≤ sweep.now ∧ lease.workspaceId = sweep.workspaceId ∧
    swept.id = lease.id ∧ swept.status = .expired

def Swept (sweep : Sweep) (db db' : ConversionDatabase) : Prop :=
  List.Forall₂ (LeaseSwept sweep) db.leases db'.leases

/-- The sweep has closed one of the leases that had expired. -/
def ClosesExpired (sweep : Sweep) (db db' : ConversionDatabase) : Prop :=
  ∃ lease ∈ expiredLeases db sweep.workspaceId sweep.now, ∃ closed ∈ db'.leases,
    closed.id = lease.id ∧ closed.status = .expired

/-- Nothing has expired, or a lease that has expired is among the newest ACTIVE leases of its workspace
    and can be closed. -/
def Reaches (db : ConversionDatabase) (sweep : Sweep) : Prop :=
  expiredLeases db sweep.workspaceId sweep.now = [] ∨
    ∃ lease ∈ expiredLeases db sweep.workspaceId sweep.now,
      newerLeases db sweep.workspaceId lease < min sweep.limit MAX_LIMIT ∧ Closable db sweep lease

instance (db : ConversionDatabase) (sweep : Sweep) : Decidable (Reaches db sweep) :=
  inferInstanceAs (Decidable (_ ∨ _))

section Loop

variable {db db' : ConversionDatabase} {sweep : Sweep} (platform : ConversionPlatform)

theorem Swept.refl (db : ConversionDatabase) : Swept sweep db db :=
  List.forall₂_same.mpr fun _ _ => Or.inl rfl

theorem LeaseSwept.trans {lease mid swept : ConversionLease} (h : LeaseSwept sweep lease mid)
    (h' : LeaseSwept sweep mid swept) : LeaseSwept sweep lease swept := by
  rcases h with rfl | ⟨hexpired, hworkspace, hid, hstatus⟩
  · exact h'
  · rcases h' with rfl | ⟨-, -, hid', hstatus'⟩
    · exact Or.inr ⟨hexpired, hworkspace, hid, hstatus⟩
    · exact Or.inr ⟨hexpired, hworkspace, hid'.trans hid, hstatus'⟩

theorem Swept.trans {mid : ConversionDatabase} (h : Swept sweep db mid) (h' : Swept sweep mid db') :
    Swept sweep db db' := by
  unfold Swept at h h' ⊢
  generalize db.leases = leases, mid.leases = swept, db'.leases = later at h h' ⊢
  induction h generalizing later with
  | nil =>
    cases h'
    exact .nil
  | cons hlease _ ih =>
    cases h' with
    | cons hlater hrest => exact .cons (hlease.trans hlater) (ih _ hrest)

theorem Swept.mem (h : Swept sweep db db') {lease : ConversionLease} (hlease : lease ∈ db.leases) :
    ∃ swept ∈ db'.leases, LeaseSwept sweep lease swept := by
  unfold Swept at h
  generalize db.leases = leases, db'.leases = later at h hlease ⊢
  induction h with
  | nil => cases hlease
  | cons hfirst _ ih =>
    rcases List.mem_cons.mp hlease with rfl | hlease
    · exact ⟨_, List.mem_cons_self, hfirst⟩
    · obtain ⟨swept, hmem, hswept⟩ := ih hlease
      exact ⟨swept, List.mem_cons_of_mem _ hmem, hswept⟩

theorem Swept.closed (h : Swept sweep db db') {id : Id}
    (hclosed : ∃ closed ∈ db.leases, closed.id = id ∧ closed.status = .expired) :
    ∃ closed ∈ db'.leases, closed.id = id ∧ closed.status = .expired := by
  obtain ⟨closed, hmem, rfl, hstatus⟩ := hclosed
  obtain ⟨swept, hswept, hkept⟩ := h.mem hmem
  rcases hkept with rfl | ⟨-, -, hid, hexpired⟩
  · exact ⟨swept, hswept, rfl, hstatus⟩
  · exact ⟨swept, hswept, hid, hexpired⟩

theorem Closes.swept (hr : Reconcilable db) {lease : ConversionLease}
    (hlease : lease ∈ expiredLeases db sweep.workspaceId sweep.now) (h : Closes lease db db') :
    Swept sweep db db' ∧ ∃ closed ∈ db'.leases, closed.id = lease.id ∧ closed.status = .expired := by
  obtain ⟨closed, hid, hstatus, hleases⟩ := h
  obtain ⟨hactive, hexpired⟩ := mem_expiredLeases.mp hlease
  obtain ⟨hstored, hworkspace, -⟩ := mem_activeLeases.mp hactive
  rw [Swept, hleases]
  constructor
  · refine forall₂_update (fun _ _ => Or.inl rfl) fun other hother hsame => Or.inr ?_
    obtain rfl := hr.sound.stored.leaseKeys.eq_of_key hother hstored (hsame.trans hid)
    exact ⟨hexpired, hworkspace, hid, hstatus⟩
  · exact ⟨closed, mem_update.mpr (Or.inr ⟨rfl, lease, hstored, hid.symm⟩), hid, hstatus⟩

/-- One round of the loop: an expired lease that can be closed is closed, and otherwise nothing
    happens. -/
theorem inspectLease_spec (hr : Reconcilable db) {lease : ConversionLease}
    (hlease : lease ∈ activeLeases db sweep.workspaceId)
    (result : ExpiredConversionLeaseReconciliationResult) :
    (lease.expiresAt ≤ sweep.now ∧ Closable db sweep lease →
      Closes lease db (inspectLease platform sweep (result, db) lease).2) ∧
    (¬ (lease.expiresAt ≤ sweep.now ∧ Closable db sweep lease) →
      (inspectLease platform sweep (result, db) lease).2 = db) := by
  obtain ⟨hcloses, hleaves⟩ := reconcileLease_spec platform hr hlease
  unfold inspectLease
  by_cases hexpired : sweep.now < lease.expiresAt
  · rw [if_pos hexpired]
    exact ⟨fun h => absurd hexpired (not_lt.mpr h.1), fun _ => rfl⟩
  · rw [if_neg hexpired]
    exact ⟨fun h => hcloses h.2, fun h => hleaves fun hclosable => h ⟨not_lt.mp hexpired, hclosable⟩⟩

theorem Reconcilable.inspectLease (hr : Reconcilable db) (lease : ConversionLease)
    (result : ExpiredConversionLeaseReconciliationResult) :
    Reconcilable (inspectLease platform sweep (result, db) lease).2 := by
  unfold Conversion.inspectLease
  split
  · exact hr
  · exact hr.reconcileLease platform lease

/-- The other leases of the page stay as they are when one is closed. -/
theorem Closes.active_rest {lease other : ConversionLease} (h : Closes lease db db')
    (hother : other ∈ activeLeases db sweep.workspaceId) (hne : other.id ≠ lease.id) :
    other ∈ activeLeases db' sweep.workspaceId := by
  obtain ⟨closed, hid, -, hleases⟩ := h
  obtain ⟨hstored, hactive⟩ := mem_activeLeases.mp hother
  refine mem_activeLeases.mpr ⟨?_, hactive⟩
  rw [hleases]
  exact mem_update.mpr (Or.inl ⟨hstored, fun hsame => hne (hsame.trans hid)⟩)

/-- What the loop over a page makes of the leases, by induction on the page: the leases behind the
    current one are still stored as the page shows them. -/
theorem foldl_inspectLease {page : List ConversionLease} (hkeys : KeysUnique page) :
    ∀ {result : ExpiredConversionLeaseReconciliationResult} {db : ConversionDatabase},
      Reconcilable db → (∀ lease ∈ page, lease ∈ activeLeases db sweep.workspaceId) →
      let db' := (page.foldl (inspectLease platform sweep) (result, db)).2
      (Reconcilable db' ∧ Swept sweep db db') ∧
        ((∃ lease ∈ page, lease.expiresAt ≤ sweep.now ∧ Closable db sweep lease) →
          ClosesExpired sweep db db') ∧
        ((¬ ∃ lease ∈ page, lease.expiresAt ≤ sweep.now ∧ Closable db sweep lease) → db' = db) := by
  induction page with
  | nil =>
    intro result db hr _
    refine ⟨⟨hr, .refl db⟩, ?_, fun _ => rfl⟩
    rintro ⟨_, hmem, _⟩
    exact absurd hmem List.not_mem_nil
  | cons lease page ih =>
    intro result db hr hpage
    rw [KeysUnique, List.map_cons, List.nodup_cons] at hkeys
    obtain ⟨hlease, hpage⟩ := List.forall_mem_cons.mp hpage
    obtain ⟨hcloses, hleaves⟩ := inspectLease_spec platform hr hlease result
    have hnext : Reconcilable (inspectLease platform sweep (result, db) lease).2 :=
      hr.inspectLease platform lease result
    rw [List.foldl_cons]
    generalize inspectLease platform sweep (result, db) lease = state at hcloses hleaves hnext ⊢
    obtain ⟨result', mid⟩ := state
    by_cases hclosable : lease.expiresAt ≤ sweep.now ∧ Closable db sweep lease
    · have hclosed := hcloses hclosable
      have hexpired := mem_expiredLeases.mpr ⟨hlease, hclosable.1⟩
      obtain ⟨hswept, hdone⟩ := hclosed.swept hr hexpired
      have hrest : ∀ other ∈ page, other ∈ activeLeases mid sweep.workspaceId := by
        intro other hother
        have hne : other.id ≠ lease.id := fun hsame =>
          hkeys.1 (List.mem_map.mpr ⟨other, hother, hsame⟩)
        exact hclosed.active_rest (hpage other hother) hne
      obtain ⟨⟨hr', hswept'⟩, -⟩ := @ih hkeys.2 result' mid hnext hrest
      refine ⟨⟨hr', hswept.trans hswept'⟩, fun _ => ⟨lease, hexpired, hswept'.closed hdone⟩, ?_⟩
      exact fun hnone => absurd ⟨lease, List.mem_cons_self, hclosable⟩ hnone
    · obtain rfl : mid = db := hleaves hclosable
      obtain ⟨hkept, hsome, hnone⟩ := @ih hkeys.2 result' mid hnext hpage
      have htail : (∃ other ∈ page, other.expiresAt ≤ sweep.now ∧ Closable mid sweep other) →
          ∃ other ∈ lease :: page, other.expiresAt ≤ sweep.now ∧ Closable mid sweep other := by
        rintro ⟨other, hother, hgood⟩
        exact ⟨other, List.mem_cons_of_mem _ hother, hgood⟩
      refine ⟨hkept, ?_, fun h => hnone (mt htail h)⟩
      rintro ⟨other, hother, hgood⟩
      rcases List.mem_cons.mp hother with rfl | hother
      · exact absurd hgood hclosable
      · exact hsome ⟨other, hother, hgood⟩

/-- A sweep keeps what holds in every reachable state, closes expired leases only, and closes one of
    them if it reaches one. -/
theorem sweep_spec (hr : Reconcilable db) (hlimit : 1 ≤ sweep.limit) :
    let db' := (sweeper platform).step db sweep
    (Reconcilable db' ∧ Swept sweep db db') ∧
      (expiredLeases db sweep.workspaceId sweep.now = [] ∨ ClosesExpired sweep db db' ↔
        Reaches db sweep) := by
  obtain ⟨page, hpage, hitems⟩ := listLeases_eq_ok hr.sound sweep.workspaceId hlimit
  have hinjective :
      ((activeLeases db sweep.workspaceId).map (newestFirst db.leases)).Nodup :=
    newestFirst_injective hr.sound.stored.leaseKeys
  have hshown : ∀ lease, lease ∈ page.items ↔ lease ∈ activeLeases db sweep.workspaceId ∧
      newerLeases db sweep.workspaceId lease < min sweep.limit MAX_LIMIT := by
    intro lease
    rw [hitems]
    exact mem_window hinjective
  have hkeys : KeysUnique page.items := by
    have hactiveKeys : KeysUnique (activeLeases db sweep.workspaceId) :=
      hr.sound.stored.leaseKeys.filter _
    rw [hitems]
    exact ((ordered_perm.map key).nodup_iff.mpr hactiveKeys).sublist
      ((List.take_sublist _ _).map key)
  have hstep : (sweeper platform).step db sweep = (page.items.foldl (inspectLease platform sweep)
      (⟨0, 0, 0, 0⟩, db)).2 := by
    change (reconcileExpiredConversionLeases platform sweep db).2 = _
    rw [reconcileExpiredConversionLeases, hpage]
  obtain ⟨hkept, hsome, hnone⟩ := @foldl_inspectLease sweep platform page.items hkeys ⟨0, 0, 0, 0⟩ db hr
    fun lease hlease => ((hshown lease).mp hlease).1
  rw [hstep]
  refine ⟨hkept, ?_⟩
  constructor
  · rintro (hempty | ⟨lease, hlease, closed, hclosed, hid, hstatus⟩)
    · exact Or.inl hempty
    · refine Or.inr (by_contra fun hunreached => ?_)
      have hsame := hnone fun ⟨other, hother, hexpired, hclosable⟩ =>
        hunreached ⟨other, mem_expiredLeases.mpr ⟨((hshown other).mp hother).1, hexpired⟩,
          ((hshown other).mp hother).2, hclosable⟩
      rw [hsame] at hclosed
      obtain ⟨hstored, -, hactive⟩ := mem_activeLeases.mp (mem_expiredLeases.mp hlease).1
      obtain rfl := hr.sound.stored.leaseKeys.eq_of_key hclosed hstored hid
      rw [hactive] at hstatus
      cases hstatus
  · rintro (hempty | ⟨lease, hlease, hnewer, hclosable⟩)
    · exact Or.inl hempty
    · obtain ⟨hactive, hexpired⟩ := mem_expiredLeases.mp hlease
      exact Or.inr (hsome ⟨lease, (hshown lease).mpr ⟨hactive, hnewer⟩, hexpired, hclosable⟩)

theorem Reconcilable.step_sweep (hr : Reconcilable db) : Reconcilable ((sweeper platform).step db sweep) := by
  by_cases hlimit : 1 ≤ sweep.limit
  · exact (sweep_spec platform hr hlimit).1.1
  · have hzero : sweep.limit = 0 := by omega
    change Reconcilable (reconcileExpiredConversionLeases platform sweep db).2
    rw [reconcileExpiredConversionLeases, hzero]
    exact hr

end Loop

/-! ### Sweeps, one after another -/

section Sweeps

variable {db db' : ConversionDatabase} {sweep : Sweep}

/-- A sweep takes expired leases away, and adds none. -/
theorem Swept.sublist (h : Swept sweep db db') (workspaceId : Id) (now : Timestamp) :
    (expiredLeases db' workspaceId now).Sublist (expiredLeases db workspaceId now) := by
  unfold Swept at h
  unfold expiredLeases activeLeases
  generalize db.leases = leases, db'.leases = later at h ⊢
  induction h with
  | nil => exact .refl _
  | @cons lease swept _ _ hlease _ ih =>
    simp only [List.filter_filter] at ih ⊢
    rcases hlease with rfl | ⟨-, -, -, hstatus⟩
    · rw [List.filter_cons, List.filter_cons]
      split
      · exact ih.cons_cons _
      · exact ih
    · rw [List.filter_cons_of_neg (by simp [hstatus])]
      exact ih.trans ((List.sublist_cons_self _ _).filter _)

/-- A sweep that closes an expired lease leaves fewer of them. -/
theorem ClosesExpired.length_lt (hr : Reconcilable db') (hswept : Swept sweep db db')
    (h : ClosesExpired sweep db db') {horizon : Timestamp} (hnow : sweep.now ≤ horizon) :
    (expiredLeases db' sweep.workspaceId horizon).length <
      (expiredLeases db sweep.workspaceId horizon).length := by
  have hsublist := hswept.sublist sweep.workspaceId horizon
  refine lt_of_le_of_ne hsublist.length_le fun hlength => ?_
  obtain ⟨lease, hlease, closed, hclosed, hid, hstatus⟩ := h
  obtain ⟨hactive, hexpired⟩ := mem_expiredLeases.mp hlease
  have hlater : lease ∈ expiredLeases db' sweep.workspaceId horizon := by
    rw [hsublist.eq_of_length hlength]
    exact mem_expiredLeases.mpr ⟨hactive, le_trans hexpired hnow⟩
  obtain ⟨hstored, -, hopen⟩ := mem_activeLeases.mp (mem_expiredLeases.mp hlater).1
  obtain rfl := hr.sound.stored.leaseKeys.eq_of_key hclosed hstored hid
  rw [hopen] at hstatus
  cases hstatus

theorem expiredLeases_mono {workspaceId : Id} {earlier later : Timestamp} (hle : earlier ≤ later)
    (hempty : expiredLeases db workspaceId later = []) : expiredLeases db workspaceId earlier = [] := by
  refine List.eq_nil_iff_forall_not_mem.mpr fun lease hlease => ?_
  obtain ⟨hactive, hexpired⟩ := mem_expiredLeases.mp hlease
  have hlater := mem_expiredLeases.mpr ⟨hactive, le_trans hexpired hle⟩
  rw [hempty] at hlater
  cases hlater

/-- Sweeps that all reach an expired lease leave none, once they are as many as the leases that expire
    by the time of the last of them.  The induction is on the sweeps; a sweep that finds none expired
    leaves none to the sweeps after it. -/
theorem drained_runFrom (platform : ConversionPlatform) {workspaceId : Id} {now horizon : Timestamp}
    (hle : now ≤ horizon) {sweeps : List Sweep} (hsweeps : ∀ sweep ∈ sweeps,
      sweep.workspaceId = workspaceId ∧ 1 ≤ sweep.limit ∧ now ≤ sweep.now ∧ sweep.now ≤ horizon) :
    ∀ {db : ConversionDatabase}, Reconcilable db → (sweeper platform).Throughout Reaches db sweeps →
      (expiredLeases db workspaceId now = [] ∨
        (expiredLeases db workspaceId horizon).length ≤ sweeps.length) →
      expiredLeases ((sweeper platform).runFrom db sweeps) workspaceId now = [] := by
  induction sweeps with
  | nil =>
    rintro db - - (hempty | hlength)
    · exact hempty
    · exact expiredLeases_mono hle (List.eq_nil_of_length_eq_zero (Nat.le_zero.mp hlength))
  | cons sweep sweeps ih =>
    obtain ⟨⟨rfl, hlimit, hnow, hhorizon⟩, hsweeps⟩ := List.forall_mem_cons.mp hsweeps
    intro db hr hreaches hstart
    obtain ⟨⟨hr', hswept⟩, hprogress⟩ := sweep_spec platform hr hlimit
    refine ih hsweeps hr' hreaches.2 ?_
    have hkept : expiredLeases db sweep.workspaceId now = [] →
        expiredLeases ((sweeper platform).step db sweep) sweep.workspaceId now = [] := fun hempty =>
      List.sublist_nil.mp (hempty ▸ hswept.sublist sweep.workspaceId now)
    rcases hstart with hempty | hlength
    · exact Or.inl (hkept hempty)
    · rcases hprogress.mpr hreaches.1 with hempty | hcloses
      · exact Or.inl (hkept (expiredLeases_mono hnow hempty))
      · have hlt := hcloses.length_lt hr' hswept hhorizon
        rw [List.length_cons] at hlength
        exact Or.inr (by omega)

end Sweeps

/-- From every reachable state, a sweep closes one of the expired leases of its workspace, if there are
    any, exactly when one of them is among the newest ACTIVE leases and can be closed, and it leaves all
    other leases alone.  Sweeps that all do so drain the expired leases. -/
theorem sweep_closes_iff (platform : ConversionPlatform) (calls : List ConversionCall)
    (earlier : List Sweep) :
    let db := (sweeper platform).runFrom ((store platform).run calls) earlier
    (∀ sweep : Sweep, 1 ≤ sweep.limit →
      let db' := (sweeper platform).step db sweep
      (expiredLeases db sweep.workspaceId sweep.now = [] ∨ ClosesExpired sweep db db' ↔
        Reaches db sweep) ∧
      ∀ lease ∈ db.leases, sweep.now < lease.expiresAt → lease ∈ db'.leases) ∧
    ∀ (workspaceId : Id) (now horizon : Timestamp) (sweeps : List Sweep), now ≤ horizon →
      (∀ sweep ∈ sweeps, sweep.workspaceId = workspaceId ∧ 1 ≤ sweep.limit ∧ now ≤ sweep.now ∧
        sweep.now ≤ horizon) →
      (sweeper platform).Throughout Reaches db sweeps →
      (expiredLeases db workspaceId horizon).length ≤ sweeps.length →
      expiredLeases ((sweeper platform).runFrom db sweeps) workspaceId now = [] := by
  intro db
  have hr : Reconcilable db :=
    Machine.runFrom_invariant (fun _ _ hr => hr.step_sweep platform) (reconcilable_run platform calls) earlier
  constructor
  · intro sweep hlimit db'
    obtain ⟨⟨-, hswept⟩, hprogress⟩ := sweep_spec platform hr hlimit
    refine ⟨hprogress, fun lease hlease hunexpired => ?_⟩
    obtain ⟨swept, hmem, hkept⟩ := hswept.mem hlease
    rcases hkept with rfl | ⟨hexpired, -⟩
    · exact hmem
    · exact absurd hunexpired (not_lt.mpr hexpired)
  · intro workspaceId now horizon sweeps hle hsweeps hreaches hlength
    exact drained_runFrom platform hle hsweeps hr hreaches (Or.inr hlength)

/-! ### Sample sweeps -/

/-- A sweep of one lease, when the lease of the first claim has expired. -/
def sampleSweep : Sweep where
  workspaceId := 1
  limit := 1
  now := 60000
  values _ := { clock := 60000, eventId := 50 }

theorem sampleSweep_reaches :
    Reaches ((store sampleDigests).run [sampleDispatch, sampleClaim, sampleStart]) sampleSweep := by
  decide +kernel

/-- A started lease that expires alone is closed by the first sweep. -/
theorem sampleSweep_drains : expiredLeases ((sweeper sampleDigests).runFrom
    ((store sampleDigests).run [sampleDispatch, sampleClaim, sampleStart]) [sampleSweep]) 1 60000 = [] := by
  have hone : (expiredLeases ((store sampleDigests).run [sampleDispatch, sampleClaim, sampleStart]) 1
      60000).length ≤ 1 := by
    decide +kernel
  have hreaches := sampleSweep_reaches
  have hdrains := (sweep_closes_iff sampleDigests [sampleDispatch, sampleClaim, sampleStart] []).2 1
    60000 60000 [sampleSweep] le_rfl (by decide)
  rw [Machine.runFrom_nil] at hdrains
  generalize (store sampleDigests).run [sampleDispatch, sampleClaim, sampleStart] = db at *
  exact hdrains ⟨hreaches, trivial⟩ hone

/-- A second run, claimed for an hour. -/
def secondDispatch : ConversionCall :=
  .dispatchManual sampleCatalogue
    { workspaceId := 1, rawArtifactId := 7, conversionProfileId := 5
      targetPathTemplate := "staging/out.md", trigger := none, actor := none
      idempotencyKey := "second" } 1000 120 101

def secondClaim : ConversionCall :=
  .claim { sampleRequest with id := 2, idempotencyKey := "second", requestedLeaseDurationSeconds := 3600 }
    (.ok
      { supportedConverters := sampleSupport, acceptedArtifactKinds := [.pdf]
        acceptedMimePatterns := ["application/pdf"] })
    { now := 1000, attemptId := 130, leaseId := 131, tokenReference := 132, tokenDigest := 133
      readGrantId := 135, uploadGrantId := 134 }

/-- A page of one lease shows the newer lease, and the expired one behind it stays ACTIVE. -/
theorem hidden_lease_not_closed :
    let db := (store sampleDigests).run [sampleDispatch, sampleClaim, secondDispatch, secondClaim]
    let db' := (sweeper sampleDigests).step db sampleSweep
    (expiredLeases db 1 60000).map (·.id) = [31] ∧ (expiredLeases db' 1 60000).map (·.id) = [31] ∧
      db'.leases.map (·.status) = [.active, .active] := by
  decide +kernel

end MarkorbitKnowledge.Conversion
