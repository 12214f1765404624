import MarkorbitKnowledge.Conversion.History
import MarkorbitKnowledge.Conversion.Machine

/-!
# The store keeps every history in agreement

`history` reads the history of a run off the tables.  A successful call changes the history of at
most one run, by a step of the protocol (`StepsOne`), and leaves the tables well formed (`Stored`):
their keys are unique and every stored document passes its validator.  There is one lemma for each
call; `sound_run` carries both facts to every state.
-/

namespace MarkorbitKnowledge.Conversion

open Contracts Fallible Tables Transitions EventLog
open Execution (RegistryError)

/-! ### Reading histories -/

def history (db : ConversionDatabase) (runId : Id) : RunHistory where
  run := db.run? runId
  events := eventsOfRun db runId
  attempts := db.attemptsOfRun runId
  leases := db.leasesOfRun runId
  uploadGrants := db.uploadGrants.filter fun grant => decide (grant.conversionRunId = runId)

structure Stored (db : ConversionDatabase) : Prop where
  runKeys : KeysUnique db.runs
  eventKeys : KeysUnique db.events
  attemptKeys : KeysUnique db.attempts
  leaseKeys : KeysUnique db.leases
  grantKeys : KeysUnique db.uploadGrants
  runs : ∀ row ∈ db.runs, isConversionRun row.run = true
  events : ∀ event ∈ db.events, isConversionExecutionEvent event = true
  attempts : ∀ attempt ∈ db.attempts, isConversionAttempt attempt = true
  leases : ∀ lease ∈ db.leases, isConversionLease lease = true
  uploadGrants : ∀ grant ∈ db.uploadGrants, isStagingOutputUploadGrant grant = true

/-- The history of the run `runId` changes by a step, and no other history changes. -/
structure StepsOne (runId : Id) (db db' : ConversionDatabase) : Prop where
  stored : Stored db'
  step : RunStep (history db runId) (history db' runId)
  others : ∀ other, other ≠ runId → history db' other = history db other

theorem StepsOne.of_history {runId : Id} {db db' : ConversionDatabase} {h' : RunHistory}
    (hstored : Stored db') (hhistory : history db' runId = h') (hstep : RunStep (history db runId) h')
    (hothers : ∀ other, other ≠ runId → history db' other = history db other) :
    StepsOne runId db db' :=
  ⟨hstored, hhistory ▸ hstep, hothers⟩

structure Sound (db : ConversionDatabase) : Prop where
  stored : Stored db
  agrees : ∀ runId, Agrees (history db runId)

theorem mem_eventsOfRun {db : ConversionDatabase} {runId : Id} {event : ConversionExecutionEvent} :
    event ∈ eventsOfRun db runId ↔ event ∈ db.events ∧ event.runId = runId := by
  simp [eventsOfRun]

theorem mem_attemptsOfRun {db : ConversionDatabase} {runId : Id} {attempt : ConversionAttempt} :
    attempt ∈ db.attemptsOfRun runId ↔ attempt ∈ db.attempts ∧ attempt.conversionRunId = runId := by
  simp [ConversionDatabase.attemptsOfRun]

theorem mem_leasesOfRun {db : ConversionDatabase} {runId : Id} {lease : ConversionLease} :
    lease ∈ db.leasesOfRun runId ↔ lease ∈ db.leases ∧ lease.conversionRunId = runId := by
  simp [ConversionDatabase.leasesOfRun]

theorem run?_eq_some {db : ConversionDatabase} {runId : Id} {run : ConversionRun} :
    db.run? runId = some run ↔ ∃ row, find? db.runs runId = some row ∧ row.run = run := by
  simp [ConversionDatabase.run?]

theorem id_of_run? {db : ConversionDatabase} {runId : Id} {run : ConversionRun}
    (h : db.run? runId = some run) : run.id = runId := by
  obtain ⟨row, hrow, rfl⟩ := run?_eq_some.mp h
  exact key_of_find? hrow

theorem Stored.run? {db : ConversionDatabase} (h : Stored db) {row : RunRow} (hrow : row ∈ db.runs) :
    db.run? row.run.id = some row.run :=
  run?_eq_some.mpr ⟨row, h.runKeys.find?_of_mem hrow, rfl⟩

theorem loadRun_eq_ok {db : ConversionDatabase} {runId : Id} {run : ConversionRun} :
    db.loadRun runId = .ok run ↔ db.run? runId = some run ∧ isConversionRun run = true :=
  load_eq_ok

theorem getLease_eq_ok {db : ConversionDatabase} {leaseId : Id} {lease : ConversionLease} :
    db.getLease leaseId = .ok lease ↔
      find? db.leases leaseId = some lease ∧ isConversionLease lease = true :=
  load_eq_ok

theorem loadLease_eq_ok {db : ConversionDatabase} {leaseId : Id} {lease : ConversionLease} :
    db.loadLease leaseId = .ok lease ↔
      find? db.leases leaseId = some lease ∧ isConversionLease lease = true :=
  load_eq_ok

theorem getAttempt_eq_ok {db : ConversionDatabase} {attemptId : Id} {attempt : ConversionAttempt} :
    db.getAttempt attemptId = .ok attempt ↔
      find? db.attempts attemptId = some attempt ∧ isConversionAttempt attempt = true :=
  load_eq_ok

theorem loadAttempt_eq_ok {db : ConversionDatabase} {attemptId : Id} {attempt : ConversionAttempt} :
    db.loadAttempt attemptId = .ok attempt ↔
      find? db.attempts attemptId = some attempt ∧ isConversionAttempt attempt = true :=
  load_eq_ok

theorem loadLatestAttempt_eq_ok {db : ConversionDatabase} {runId : Id}
    {attempt : ConversionAttempt} :
    db.loadLatestAttempt runId = .ok attempt ↔
      attempt ∈ (db.attemptsOfRun runId).argmax (·.ordinal) ∧ isConversionAttempt attempt = true :=
  load_eq_ok

/-! ### Writing -/

theorem insertEvent_eq_ok {db db' : ConversionDatabase} {event : ConversionExecutionEvent} :
    insertEvent db event = .ok db' ↔ (∀ stored ∈ db.events, stored.id ≠ event.id) ∧
      (∀ stored ∈ db.events, stored.runId = event.runId → stored.sequence ≠ event.sequence) ∧
      { db with events := db.events ++ [event] } = db' := by
  simp only [insertEvent, bind_eq_ok, require_eq_ok, pure_eq_ok]
  constructor
  · rintro ⟨_, hid, _, hsequence, hdb⟩
    exact ⟨hid, hsequence, hdb⟩
  · rintro ⟨hid, hsequence, hdb⟩
    exact ⟨(), hid, (), hsequence, hdb⟩

/-- The events of a run after an event of it is stored. -/
theorem eventsOfRun_append (db : ConversionDatabase) {event : ConversionExecutionEvent} {runId : Id}
    (h : event.runId = runId) :
    (db.events ++ [event]).filter (fun e => decide (e.runId = runId)) =
      eventsOfRun db runId ++ [event] := by
  simp [eventsOfRun, h]

theorem eventsOfRun_append_of_ne (db : ConversionDatabase) {event : ConversionExecutionEvent}
    {runId : Id} (h : event.runId ≠ runId) :
    (db.events ++ [event]).filter (fun e => decide (e.runId = runId)) = eventsOfRun db runId := by
  simp [eventsOfRun, h]

theorem run?_updateRun (db : ConversionDatabase) (run : ConversionRun) (runId : Id) :
    (updateRun db run).run? runId =
      if run.id = runId then (db.run? runId).map fun _ => run else db.run? runId := by
  have hfind := find?_map (fun row : RunRow => if row.run.id = run.id then { row with run } else row)
    (fun row => by by_cases h : row.run.id = run.id <;> simp [h]) db.runs runId
  rw [ConversionDatabase.run?, updateRun, hfind, ConversionDatabase.run?, Option.map_map]
  cases hrow : find? db.runs runId with
  | none => simp
  | some row =>
    have hid : row.run.id = runId := key_of_find? hrow
    by_cases h : run.id = runId
    · simp [h, hid]
    · simp [h, hid, Ne.symm h]

theorem run?_updateRun_self {db : ConversionDatabase} {runId : Id} {stored run : ConversionRun}
    (h : run.id = runId) (hstored : db.run? runId = some stored) :
    (updateRun db run).run? runId = some run := by
  rw [run?_updateRun, if_pos h, hstored, Option.map_some]

theorem run?_updateRun_of_ne (db : ConversionDatabase) {runId : Id} {run : ConversionRun}
    (h : run.id ≠ runId) : (updateRun db run).run? runId = db.run? runId := by
  rw [run?_updateRun, if_neg h]

theorem runKeys_updateRun {db : ConversionDatabase} (h : KeysUnique db.runs) (run : ConversionRun) :
    KeysUnique (updateRun db run).runs :=
  (keysUnique_map _ fun row => by
    by_cases h : row.run.id = run.id <;> simp [h]).mpr h

theorem forall_updateRun {P : ConversionRun → Prop} {db : ConversionDatabase} {run : ConversionRun}
    (hrun : P run) (h : ∀ row ∈ db.runs, P row.run) : ∀ row ∈ (updateRun db run).runs, P row.run := by
  intro row hrow
  obtain ⟨stored, hstored, rfl⟩ := List.mem_map.mp hrow
  by_cases hid : stored.run.id = run.id
  · simpa [hid] using hrun
  · simpa [hid] using h stored hstored

theorem forall_mem_update {ρ : Type} [Keyed ρ Id] {P : ρ → Prop} {rows : List ρ} {row : ρ}
    (hrow : P row) (h : ∀ x ∈ rows, P x) : ∀ x ∈ update rows row, P x := by
  intro x hx
  rcases mem_update.mp hx with ⟨hx, -⟩ | ⟨rfl, -⟩
  · exact h x hx
  · exact hrow

theorem forall_mem_append {ρ : Type} {P : ρ → Prop} {rows : List ρ} {row : ρ} (hrow : P row)
    (h : ∀ x ∈ rows, P x) : ∀ x ∈ rows ++ [row], P x := by
  intro x hx
  rcases List.mem_append.mp hx with hx | hx
  · exact h x hx
  · rw [List.mem_singleton.mp hx]
    exact hrow

section Views

variable {ρ : Type} [Keyed ρ Id] {rows : List ρ} {row stored : ρ} {runOf : ρ → Id} {runId : Id}

/-- Updating a row inside the view of a run updates the view. -/
theorem filter_update_view (hkeys : KeysUnique rows) (hstored : stored ∈ rows)
    (hkey : key row = key stored) (hrow : runOf row = runId) (hrun : runOf stored = runId) :
    (update rows row).filter (fun x => decide (runOf x = runId)) =
      update (rows.filter fun x => decide (runOf x = runId)) row := by
  refine filter_update_of_iff fun x hx hk => ?_
  rw [hkeys.eq_of_key hx hstored (hk.trans hkey), hrow, hrun]

theorem filter_update_view_of_ne (hkeys : KeysUnique rows) (hstored : stored ∈ rows)
    (hkey : key row = key stored) (hrow : runOf row ≠ runId) (hrun : runOf stored ≠ runId) :
    (update rows row).filter (fun x => decide (runOf x = runId)) =
      rows.filter fun x => decide (runOf x = runId) := by
  refine filter_update_of_not (by simpa using hrow) fun x hx hk => ?_
  rw [hkeys.eq_of_key hx hstored (hk.trans hkey)]
  simpa using hrun

end Views

/-! ### Dispatch and cancellation -/

section Calls

variable {db db' : ConversionDatabase}

theorem insertDispatch_steps (hs : Sound db) {row : RunRow} {event : ConversionExecutionEvent}
    (h : insertDispatch db row event = .ok db') (hrun : isConversionRun row.run = true)
    (hstatus : row.run.status = .pending) (hevent : isConversionExecutionEvent event = true)
    (hof : event.runId = row.run.id)
    (hfirst : event.sequence = 1 ∧ event.previousStatus = none ∧ event.resultingStatus = .pending) :
    StepsOne row.run.id db db' := by
  simp only [insertDispatch, insertRun, bind_eq_ok, require_eq_ok, pure_eq_ok,
    insertEvent_eq_ok] at h
  obtain ⟨_, ⟨_, hfresh, _, -, rfl⟩, hid, hsequence, rfl⟩ := h
  have hstored := hs.stored
  have hfresh : ∀ stored ∈ db.runs, key stored ≠ row.run.id := hfresh
  have hnone : db.run? row.run.id = none := by
    simp [ConversionDatabase.run?, find?_eq_none.mpr hfresh]
  have hevents : eventsOfRun db row.run.id = [] := by
    have hempty := (hs.agrees row.run.id).absent hnone
    exact congrArg RunHistory.events hempty
  have hstep : RunStep (history db row.run.id)
      { history db row.run.id with
        run := some row.run, events := eventsOfRun db row.run.id ++ [event] } :=
    .dispatched hnone hstatus
      ⟨hevent, Or.inr (by simp [history, hevents, hfirst.1]), hfirst.2.1, hfirst.2.2⟩
  refine .of_history ?_ ?_ hstep ?_
  · exact
      { runKeys := hstored.runKeys.append_singleton hfresh
        eventKeys := hstored.eventKeys.append_singleton hid
        attemptKeys := hstored.attemptKeys
        leaseKeys := hstored.leaseKeys
        grantKeys := hstored.grantKeys
        runs := forall_mem_append hrun hstored.runs
        events := forall_mem_append hevent hstored.events
        attempts := hstored.attempts
        leases := hstored.leases
        uploadGrants := hstored.uploadGrants }
  · have hrun? : (find? (db.runs ++ [row]) row.run.id).map (·.run) = some row.run := by
      simp [find?_append_singleton, find?_eq_none.mpr hfresh]
    exact RunHistory.ext hrun? (eventsOfRun_append db hof) rfl rfl rfl
  · intro other hother
    have hrun? : (find? (db.runs ++ [row]) other).map (·.run) = db.run? other := by
      simp [ConversionDatabase.run?, find?_append_singleton, Ne.symm hother]
    exact RunHistory.ext hrun? (eventsOfRun_append_of_ne db (hof ▸ Ne.symm hother)) rfl rfl rfl

theorem dispatchManual_steps (hs : Sound db) {platform : ConversionPlatform}
    {catalogue : ConversionCatalogue} {input : ManualConversionDispatchInput} {now : Timestamp}
    {runId eventId : Id} {result : ManualConversionDispatchResult}
    (h : dispatchManual platform catalogue input now runId eventId db = .ok (result, db')) :
    db' = db ∨ StepsOne runId db db' := by
  simp only [dispatchManual, bind_eq_ok, require_eq_ok] at h
  obtain ⟨key, -, artifact, -, profile, -, _, -, _, -, _, -, actor, -, _, ⟨hrun, hevent⟩, h⟩ := h
  split at h
  · rename_i hinsert
    simp only [pure_eq_ok, Prod.mk.injEq] at h
    obtain ⟨-, rfl⟩ := h
    exact Or.inr (insertDispatch_steps hs hinsert hrun rfl hevent rfl ⟨rfl, rfl, rfl⟩)
  · simp only [bind_eq_ok, pure_eq_ok, Prod.mk.injEq] at h
    obtain ⟨_, -, -, rfl⟩ := h
    exact Or.inl rfl

theorem listEvents_length {runId : Id} {events : List ConversionExecutionEvent}
    (h : listEvents db runId = .ok events) : events.length = (eventsOfRun db runId).length := by
  have hparse : ∀ event event' : ConversionExecutionEvent,
      parseEvent event = .ok event' ↔ isConversionExecutionEvent event = true ∧ id event = event' := by
    intro event event'
    simp [parseEvent]
  obtain ⟨-, hmap⟩ := (mapM_guarded hparse).mp h
  simp [← hmap]

theorem cancel_steps (hs : Sound db) {runId : Id} {input : CancelConversionRunInput}
    {now : Timestamp} {eventId : Id} {record : ConversionRunRecord}
    (h : cancel runId input now eventId db = .ok (record, db')) : StepsOne runId db db' := by
  simp only [cancel, bind_eq_ok, orThrow_eq_ok, require_eq_ok, pure_eq_ok, Prod.mk.injEq,
    insertEvent_eq_ok] at h
  obtain ⟨row, hfind, _, -, events, hevents, _, hstatus, _, -, actor, -, _, ⟨hnext, hevent⟩, _,
    ⟨hid, -, rfl⟩, -, rfl⟩ := h
  have hstored := hs.stored
  have hrow := List.mem_of_find?_eq_some hfind
  obtain rfl : row.run.id = runId := by
    have := List.find?_some hfind
    simp only [Bool.and_eq_true, decide_eq_true_eq] at this
    exact this.1
  have hrun : db.run? row.run.id = some row.run := hstored.run? hrow
  have hlength := listEvents_length hevents
  refine .of_history ?_ ?_ (.cancelled now hrun hstatus
    ⟨hevent, Or.inr (congrArg (· + 1) hlength), rfl, rfl⟩) ?_
  · exact
      { runKeys := runKeys_updateRun hstored.runKeys _
        eventKeys := hstored.eventKeys.append_singleton hid
        attemptKeys := hstored.attemptKeys
        leaseKeys := hstored.leaseKeys
        grantKeys := hstored.grantKeys
        runs := forall_updateRun (P := fun run => isConversionRun run = true) hnext hstored.runs
        events := forall_mem_append hevent hstored.events
        attempts := hstored.attempts
        leases := hstored.leases
        uploadGrants := hstored.uploadGrants }
  · exact RunHistory.ext (run?_updateRun_self rfl hrun) (eventsOfRun_append db rfl) rfl rfl rfl
  · intro other hother
    exact RunHistory.ext (run?_updateRun_of_ne db (Ne.symm hother))
      (eventsOfRun_append_of_ne db (Ne.symm hother)) rfl rfl rfl

/-! ### Claims and leases -/

/-- What makes a stored run a candidate of a claim. -/
theorem claimable_spec {request : ConversionClaimRequest}
    {capability : ConversionWorkerCapability} {run : ConversionRun} {path : String}
    (h : (pendingRuns db request.workspaceId).findSome? (claimable request capability) =
      some (run, path)) :
    (∃ row ∈ db.runs, row.run = run) ∧ run.workspaceId = request.workspaceId ∧
      run.status = .pending ∧ ∀ lease ∈ db.leasesOfRun run.id, lease.status ≠ .active := by
  obtain ⟨candidate, hmem, hclaimable⟩ := List.exists_of_findSome?_eq_some h
  unfold claimable at hclaimable
  split at hclaimable
  · obtain ⟨_, -, heq⟩ := Option.map_eq_some_iff.mp hclaimable
    obtain ⟨rfl, -⟩ := Prod.mk.inj heq
    simpa [pendingRuns, and_assoc] using hmem
  · cases hclaimable

/-- The instants of the lease of a claim. -/
structure LeaseTerms (request : ConversionClaimRequest) (values : ConversionClaimValues)
    (expiresAt renewableUntil : Timestamp) : Prop where
  instants : ∃ seconds, boundedLeaseSeconds (if request.requestedLeaseDurationSeconds = 0 then
      DEFAULT_LEASE_SECONDS else request.requestedLeaseDurationSeconds) = .ok seconds ∧
    secondsAfter values.now seconds = .ok expiresAt ∧
    secondsAfter values.now (max seconds DEFAULT_RENEWABLE_SECONDS) = .ok renewableUntil

/-- The documents of a claim satisfy the runtime protocol. -/
structure ClaimValid (request : ConversionClaimRequest) (lease : ConversionLease)
    (attempt : ConversionAttempt) (readGrant : RawArtifactReadGrant)
    (uploadGrant : StagingOutputUploadGrant) : Prop where
  leaseValid : isConversionLease lease = true
  attemptValid : isConversionAttempt attempt = true
  readGrantValid : isRawArtifactReadGrant readGrant = true
  uploadGrantValid : isStagingOutputUploadGrant uploadGrant = true
  resultValid : isConversionClaimResult request.workspaceId request.workerId request.idempotencyKey
    (.claimed lease readGrant uploadGrant) = true

/-- The tables take the documents of a claim. -/
structure ClaimFresh (db : ConversionDatabase) (lease : ConversionLease) (attempt : ConversionAttempt)
    (readGrant : RawArtifactReadGrant) (uploadGrant : StagingOutputUploadGrant) : Prop where
  attemptId : ∀ stored ∈ db.attempts, stored.id ≠ attempt.id
  ordinal : ∀ stored ∈ db.attempts, stored.conversionRunId = attempt.conversionRunId →
    stored.ordinal ≠ attempt.ordinal
  leaseId : ∀ stored ∈ db.leases, stored.id ≠ lease.id
  free : ∀ stored ∈ db.leases, stored.conversionRunId = lease.conversionRunId →
    stored.status = .active → lease.status ≠ .active
  readGrantId : ∀ stored ∈ db.readGrants, stored.id ≠ readGrant.id
  uploadGrantId : ∀ stored ∈ db.uploadGrants, stored.id ≠ uploadGrant.id

/-- The tables with the documents of a claim. -/
def withClaim (db : ConversionDatabase) (lease : ConversionLease) (attempt : ConversionAttempt)
    (readGrant : RawArtifactReadGrant) (uploadGrant : StagingOutputUploadGrant) : ConversionDatabase :=
  { db with
    attempts := db.attempts ++ [attempt], leases := db.leases ++ [lease]
    readGrants := db.readGrants ++ [readGrant], uploadGrants := db.uploadGrants ++ [uploadGrant] }

theorem claimRun_eq_ok {request : ConversionClaimRequest} {requestDigest : Digest}
    {values : ConversionClaimValues} {run : ConversionRun} {path : String}
    {result : ConversionClaimPersistenceResult} :
    claimRun request requestDigest values run path db = .ok (result, db') ↔
      ∃ expiresAt renewableUntil, LeaseTerms request values expiresAt renewableUntil ∧
        let lease := claimedLease request run values expiresAt renewableUntil
        let attempt := claimedAttempt request run values ((db.attemptsOfRun run.id).length + 1)
        let readGrant := claimedReadGrant request run values expiresAt
        let uploadGrant := claimedUploadGrant request run path values expiresAt
        ClaimValid request lease attempt readGrant uploadGrant ∧
          ClaimFresh db lease attempt readGrant uploadGrant ∧
          result = { result := .claimed lease readGrant uploadGrant, replayed := false } ∧
          db' = storeClaim (withClaim db lease attempt readGrant uploadGrant) request requestDigest
            (.claimed lease readGrant uploadGrant) values.now := by
  simp only [claimRun, insertAttempt, insertLease, insertReadGrant, insertUploadGrant, bind_eq_ok,
    require_eq_ok, pure_eq_ok, Prod.mk.injEq]
  constructor
  · rintro ⟨seconds, hseconds, expiresAt, hexpires, renewableUntil, hrenewable, _,
      ⟨hlease, hattempt, hread, hupload, hresult⟩, _, ⟨_, hattemptId, _, hordinal, rfl⟩, _,
      ⟨_, hleaseId, _, hfree, rfl⟩, _, ⟨_, hreadId, rfl⟩, _, ⟨_, huploadId, rfl⟩, rfl, rfl⟩
    exact ⟨expiresAt, renewableUntil, ⟨seconds, hseconds, hexpires, hrenewable⟩,
      ⟨hlease, hattempt, hread, hupload, hresult⟩,
      ⟨hattemptId, hordinal, hleaseId, hfree, hreadId, huploadId⟩, rfl, rfl⟩
  · rintro ⟨expiresAt, renewableUntil, ⟨seconds, hseconds, hexpires, hrenewable⟩, hvalid, hfresh, rfl,
      rfl⟩
    exact ⟨seconds, hseconds, expiresAt, hexpires, renewableUntil, hrenewable, (),
      ⟨hvalid.leaseValid, hvalid.attemptValid, hvalid.readGrantValid, hvalid.uploadGrantValid, hvalid.resultValid⟩, _,
      ⟨(), hfresh.attemptId, (), hfresh.ordinal, rfl⟩, _, ⟨(), hfresh.leaseId, (), hfresh.free, rfl⟩, _,
      ⟨(), hfresh.readGrantId, rfl⟩, _, ⟨(), hfresh.uploadGrantId, rfl⟩, rfl, rfl⟩

/-- The stored answer to a claim request. -/
def ClaimRow.Answers (platform : ConversionPlatform) (request : ConversionClaimRequest)
    (row : ClaimRow) : Prop :=
  row.workspaceId = request.workspaceId ∧ row.workerId = request.workerId ∧
    row.idempotencyKey = request.idempotencyKey ∧ row.requestDigest = platform.hashClaim request

/-- A claim repeats an answer, finds no run, or takes one. -/
theorem claim_cases {platform : ConversionPlatform} {request : ConversionClaimRequest}
    {capability : Except RegistryError ConversionWorkerCapability} {values : ConversionClaimValues}
    {result : ConversionClaimPersistenceResult}
    (h : claim platform request capability values db = .ok (result, db')) :
    (result.replayed = true ∧ db' = db ∧
        ∃ row ∈ db.claims, row.Answers platform request ∧ row.result = result.result) ∨
      (result.result = .noCompatibleWork ∧
        db' = storeClaim db request (platform.hashClaim request) .noCompatibleWork values.now) ∨
      ∃ supported run path, (pendingRuns db request.workspaceId).findSome? (claimable request supported) =
          some (run, path) ∧
        claimRun request (platform.hashClaim request) values run path db = .ok (result, db') := by
  simp only [claim, bind_eq_ok, require_eq_ok] at h
  obtain ⟨_, -, h⟩ := h
  split at h
  · rename_i row hfind
    simp only [bind_eq_ok, require_eq_ok, pure_eq_ok, Prod.mk.injEq] at h
    obtain ⟨_, hdigest, _, -, rfl, rfl⟩ := h
    have hkeyed := List.find?_some hfind
    simp only [Bool.and_eq_true, decide_eq_true_eq] at hkeyed
    obtain ⟨⟨hworkspace, hworker⟩, hkey⟩ := hkeyed
    exact Or.inl ⟨rfl, rfl, row, List.mem_of_find?_eq_some hfind, ⟨hworkspace, hworker, hkey, hdigest⟩,
      rfl⟩
  · simp only [bind_eq_ok] at h
    obtain ⟨supported, -, h⟩ := h
    split at h
    · simp only [bind_eq_ok, pure_eq_ok, Prod.mk.injEq] at h
      obtain ⟨_, -, rfl, rfl⟩ := h
      exact Or.inr (Or.inl ⟨rfl, rfl⟩)
    · rename_i run path hfound
      exact Or.inr (Or.inr ⟨supported, run, path, hfound, h⟩)

theorem claimRun_steps (hs : Sound db) {request : ConversionClaimRequest} {requestDigest : Digest}
    {values : ConversionClaimValues} {run : ConversionRun} {path : String}
    {result : ConversionClaimPersistenceResult} (hrow : ∃ row ∈ db.runs, row.run = run)
    (hworkspace : run.workspaceId = request.workspaceId) (hstatus : run.status = .pending)
    (hfree : ∀ lease ∈ db.leasesOfRun run.id, lease.status ≠ .active)
    (h : claimRun request requestDigest values run path db = .ok (result, db')) :
    StepsOne run.id db db' := by
  obtain ⟨expiresAt, renewableUntil, -, hvalid, hfresh, -, rfl⟩ := claimRun_eq_ok.mp h
  have hstored := hs.stored
  obtain ⟨row, hrow, rfl⟩ := hrow
  have hrun : db.run? row.run.id = some row.run := hstored.run? hrow
  have htenure : Tenure row.run
      (claimedAttempt request row.run values ((db.attemptsOfRun row.run.id).length + 1))
      (claimedLease request row.run values expiresAt renewableUntil) :=
    ⟨rfl, rfl, rfl, hworkspace.symm, hworkspace.symm, rfl⟩
  refine .of_history ?_ ?_ (.claimed (claimedUploadGrant request row.run path values expiresAt) hrun
    hstatus hfree htenure rfl rfl rfl rfl ⟨rfl, rfl, rfl⟩) ?_
  · exact
      { runKeys := hstored.runKeys
        eventKeys := hstored.eventKeys
        attemptKeys := hstored.attemptKeys.append_singleton hfresh.attemptId
        leaseKeys := hstored.leaseKeys.append_singleton hfresh.leaseId
        grantKeys := hstored.grantKeys.append_singleton hfresh.uploadGrantId
        runs := hstored.runs
        events := hstored.events
        attempts := forall_mem_append hvalid.attemptValid hstored.attempts
        leases := forall_mem_append hvalid.leaseValid hstored.leases
        uploadGrants := forall_mem_append hvalid.uploadGrantValid hstored.uploadGrants }
  · refine RunHistory.ext rfl rfl ?_ ?_ ?_ <;>
      simp [history, storeClaim, withClaim, ConversionDatabase.attemptsOfRun,
        ConversionDatabase.leasesOfRun, claimedAttempt, claimedLease, claimedUploadGrant]
  · intro other hother
    refine RunHistory.ext rfl rfl ?_ ?_ ?_ <;>
      simp [history, storeClaim, withClaim, ConversionDatabase.attemptsOfRun,
        ConversionDatabase.leasesOfRun, claimedAttempt, claimedLease, claimedUploadGrant,
        Ne.symm hother]

theorem claim_steps (hs : Sound db) {platform : ConversionPlatform}
    {request : ConversionClaimRequest} {capability : Except RegistryError ConversionWorkerCapability}
    {values : ConversionClaimValues} {result : ConversionClaimPersistenceResult}
    (h : claim platform request capability values db = .ok (result, db')) :
    (Stored db' ∧ ∀ runId, history db' runId = history db runId) ∨ ∃ runId, StepsOne runId db db' := by
  have hstored := hs.stored
  rcases claim_cases h with ⟨-, rfl, -⟩ | ⟨-, rfl⟩ | ⟨supported, run, path, hfound, hclaimed⟩
  · exact Or.inl ⟨hstored, fun _ => rfl⟩
  · exact Or.inl ⟨⟨hstored.runKeys, hstored.eventKeys, hstored.attemptKeys, hstored.leaseKeys,
      hstored.grantKeys, hstored.runs, hstored.events, hstored.attempts, hstored.leases,
      hstored.uploadGrants⟩, fun _ => rfl⟩
  · obtain ⟨hrow, hworkspace, hstatus, hfree⟩ := claimable_spec hfound
    exact Or.inr ⟨run.id, claimRun_steps hs hrow hworkspace hstatus hfree hclaimed⟩

theorem renewLease_steps (hs : Sound db) {leaseId : Id} {input : RenewConversionLeaseInput}
    {now : Timestamp} {token : RuntimeToken} {lease : ConversionLease}
    (h : renewLease leaseId input now token db = .ok (lease, db')) :
    StepsOne lease.conversionRunId db db' := by
  simp only [renewLease, bind_eq_ok, require_eq_ok, pure_eq_ok, Prod.mk.injEq,
    getLease_eq_ok] at h
  obtain ⟨seconds, -, current, ⟨hfind, -⟩, _, -, _, ⟨hactive, -⟩, expiresAt, -, _, -, _, hnext, rfl,
    rfl⟩ := h
  have hstored := hs.stored
  have hmem := mem_of_find? hfind
  have hlease : current ∈ db.leasesOfRun current.conversionRunId := mem_leasesOfRun.mpr ⟨hmem, rfl⟩
  refine .of_history ?_ ?_ (.renewed token expiresAt hlease hactive) ?_
  · exact
      { runKeys := hstored.runKeys
        eventKeys := hstored.eventKeys
        attemptKeys := hstored.attemptKeys
        leaseKeys := hstored.leaseKeys.update _
        grantKeys := hstored.grantKeys
        runs := hstored.runs
        events := hstored.events
        attempts := hstored.attempts
        leases := forall_mem_update hnext hstored.leases
        uploadGrants := hstored.uploadGrants }
  · exact RunHistory.ext rfl rfl rfl (filter_update_view hstored.leaseKeys hmem rfl rfl rfl) rfl
  · intro other hother
    exact RunHistory.ext rfl rfl rfl (filter_update_view_of_ne hstored.leaseKeys hmem rfl
      (Ne.symm hother) (Ne.symm hother)) rfl

/-- A lease and the attempt it names are stored for the same run. -/
theorem attempt_of_lease (hs : Sound db) {lease : ConversionLease} (hlease : lease ∈ db.leases)
    {attempt : ConversionAttempt} (hfind : find? db.attempts lease.conversionAttemptId = some attempt) :
    attempt.conversionRunId = lease.conversionRunId := by
  have hmem : lease ∈ (history db lease.conversionRunId).leases := mem_leasesOfRun.mpr ⟨hlease, rfl⟩
  have hagrees := hs.agrees lease.conversionRunId
  cases hrun : (history db lease.conversionRunId).run with
  | none =>
    rw [hagrees.absent hrun] at hmem
    cases hmem
  | some run =>
    obtain ⟨claims, hclaimed⟩ := hagrees.claimed run hrun
    obtain ⟨attempt', hpair⟩ := hclaimed.exists_of_lease hmem
    have hattempt' := mem_attemptsOfRun.mp (hclaimed.attempt_mem hpair)
    have hid : attempt.id = attempt'.id :=
      (key_of_find? hfind).trans (hclaimed.tenure _ hpair).attemptId
    rw [hs.stored.attemptKeys.eq_of_key (mem_of_find? hfind) hattempt'.1 hid, hattempt'.2]

/-- An attempt and the lease it names are stored for the same run. -/
theorem lease_of_attempt (hs : Sound db) {attempt : ConversionAttempt} (hattempt : attempt ∈ db.attempts)
    {lease : ConversionLease} (hfind : find? db.leases attempt.conversionLeaseId = some lease) :
    lease.conversionRunId = attempt.conversionRunId := by
  have hmem : attempt ∈ (history db attempt.conversionRunId).attempts :=
    mem_attemptsOfRun.mpr ⟨hattempt, rfl⟩
  have hagrees := hs.agrees attempt.conversionRunId
  cases hrun : (history db attempt.conversionRunId).run with
  | none =>
    rw [hagrees.absent hrun] at hmem
    cases hmem
  | some run =>
    obtain ⟨claims, hclaimed⟩ := hagrees.claimed run hrun
    obtain ⟨lease', hpair⟩ := hclaimed.exists_of_attempt hmem
    have hlease' := mem_leasesOfRun.mp (hclaimed.lease_mem hpair)
    have hid : lease.id = lease'.id := (key_of_find? hfind).trans (hclaimed.tenure _ hpair).leaseId
    rw [hs.stored.leaseKeys.eq_of_key (mem_of_find? hfind) hlease'.1 hid, hlease'.2]

theorem closeBeforeStart_steps (hs : Sound db) {leaseId : Id} {input : CloseConversionLeaseInput}
    {closing : PreStartClosing} {now : Timestamp} {lease : ConversionLease}
    (h : closeBeforeStart leaseId input closing now db = .ok (lease, db')) :
    ∃ runId, StepsOne runId db db' := by
  simp only [closeBeforeStart, bind_eq_ok, require_eq_ok, pure_eq_ok, Prod.mk.injEq,
    getLease_eq_ok, getAttempt_eq_ok] at h
  obtain ⟨current, ⟨hfind, -⟩, _, -, _, hactive, attempt, ⟨hfindAttempt, -⟩, _, ⟨hclaimed, hunstarted⟩,
    _, ⟨hnextLease, hnextAttempt⟩, -, rfl⟩ := h
  have hstored := hs.stored
  have hlease := mem_of_find? hfind
  have hattempt := mem_of_find? hfindAttempt
  have hof := attempt_of_lease hs hlease hfindAttempt
  have hids : (closing.closedLease current now).id = current.id ∧
      (closing.closedLease current now).conversionRunId = current.conversionRunId := by
    cases closing <;> exact ⟨rfl, rfl⟩
  refine ⟨current.conversionRunId, .of_history ?_ ?_ (.closed closing
    input.reconciliationCode now (mem_leasesOfRun.mpr ⟨hlease, rfl⟩) hactive
    (mem_attemptsOfRun.mpr ⟨hattempt, hof⟩) (key_of_find? hfindAttempt).symm hclaimed hunstarted) ?_⟩
  · exact
      { runKeys := hstored.runKeys
        eventKeys := hstored.eventKeys
        attemptKeys := hstored.attemptKeys.update _
        leaseKeys := hstored.leaseKeys.update _
        grantKeys := hstored.grantKeys
        runs := hstored.runs
        events := hstored.events
        attempts := forall_mem_update hnextAttempt hstored.attempts
        leases := forall_mem_update hnextLease hstored.leases
        uploadGrants := hstored.uploadGrants }
  · exact RunHistory.ext rfl rfl
      (filter_update_view hstored.attemptKeys hattempt rfl hof hof)
      (filter_update_view hstored.leaseKeys hlease hids.1 hids.2 rfl) rfl
  · intro other hother
    have hne : attempt.conversionRunId ≠ other := hof ▸ Ne.symm hother
    exact RunHistory.ext rfl rfl
      (filter_update_view_of_ne hstored.attemptKeys hattempt rfl hne hne)
      (filter_update_view_of_ne hstored.leaseKeys hlease hids.1 (hids.2 ▸ Ne.symm hother)
        (Ne.symm hother)) rfl

/-! ### Transitions -/

theorem moved_scope {run : ConversionRun} {attempt : ConversionAttempt} {lease : ConversionLease}
    {t : Transition} (hmoved : Moved run attempt lease t) :
    t.run.id = run.id ∧ t.attempt.conversionRunId = attempt.conversionRunId ∧
      t.lease.conversionRunId = lease.conversionRunId := by
  cases hmoved <;> exact ⟨rfl, rfl, rfl⟩

theorem storeTransition_eq_ok {run : ConversionRun} {t : Transition} {eventId : Id}
    {result : ConversionRuntimeTransitionResult} :
    storeTransition db run t eventId = .ok (result, db') ↔
      (isConversionRun t.run = true ∧ isConversionAttempt t.attempt = true ∧
        isConversionLease t.lease = true ∧
        isConversionExecutionEvent (t.event db run eventId) = true) ∧
      (∀ stored ∈ db.events, stored.id ≠ eventId) ∧
      (∀ stored ∈ db.events, stored.runId = run.id →
        stored.sequence ≠ (t.event db run eventId).sequence) ∧
      result = ⟨t.run, t.attempt, t.lease, t.event db run eventId, false⟩ ∧
      db' = { updateLease (updateAttempt (updateRun db t.run) t.attempt) t.lease with
        events := db.events ++ [t.event db run eventId] } := by
  simp only [storeTransition, validateTransitionObjects, persistTransition, bind_eq_ok, require_eq_ok,
    insertEvent_eq_ok, pure_eq_ok, Prod.mk.injEq]
  constructor
  · rintro ⟨_, hvalid, _, ⟨hid, hsequence, rfl⟩, rfl, rfl⟩
    exact ⟨hvalid, hid, hsequence, rfl, rfl⟩
  · rintro ⟨hvalid, hid, hsequence, rfl, rfl⟩
    exact ⟨(), hvalid, _, ⟨hid, hsequence, rfl⟩, rfl, rfl⟩

theorem storeTransition_steps (hs : Sound db) {run : ConversionRun} {attempt : ConversionAttempt}
    {lease : ConversionLease} {t : Transition} {eventId : Id}
    {result : ConversionRuntimeTransitionResult} (hrun : db.run? run.id = some run)
    (hattempt : attempt ∈ db.attemptsOfRun run.id) (hlease : lease ∈ db.leasesOfRun run.id)
    (hof : attempt.conversionLeaseId = lease.id) (hmoved : Moved run attempt lease t)
    (h : storeTransition db run t eventId = .ok (result, db')) : StepsOne run.id db db' := by
  obtain ⟨⟨hnextRun, hnextAttempt, hnextLease, hevent⟩, hid, -, -, rfl⟩ := storeTransition_eq_ok.mp h
  have hstored := hs.stored
  obtain ⟨hattemptId, -, hleaseId, -⟩ := moved_ids hmoved
  obtain ⟨hrunId, hattemptRun, hleaseRun⟩ := moved_scope hmoved
  obtain ⟨hattemptMem, hattemptOf⟩ := mem_attemptsOfRun.mp hattempt
  obtain ⟨hleaseMem, hleaseOf⟩ := mem_leasesOfRun.mp hlease
  refine .of_history ?_ ?_ (.moved hrun hattempt hlease hof hmoved
    ⟨hevent, Or.inl rfl, rfl, rfl⟩) ?_
  · exact
      { runKeys := runKeys_updateRun hstored.runKeys _
        eventKeys := hstored.eventKeys.append_singleton hid
        attemptKeys := hstored.attemptKeys.update _
        leaseKeys := hstored.leaseKeys.update _
        grantKeys := hstored.grantKeys
        runs := forall_updateRun (P := fun run => isConversionRun run = true) hnextRun hstored.runs
        events := forall_mem_append hevent hstored.events
        attempts := forall_mem_update hnextAttempt hstored.attempts
        leases := forall_mem_update hnextLease hstored.leases
        uploadGrants := hstored.uploadGrants }
  · exact RunHistory.ext (run?_updateRun_self hrunId hrun) (eventsOfRun_append db rfl)
      (filter_update_view hstored.attemptKeys hattemptMem hattemptId (hattemptRun.trans hattemptOf)
        hattemptOf)
      (filter_update_view hstored.leaseKeys hleaseMem hleaseId (hleaseRun.trans hleaseOf) hleaseOf)
      rfl
  · intro other hother
    have hne : run.id ≠ other := Ne.symm hother
    exact RunHistory.ext (run?_updateRun_of_ne db (hrunId ▸ hne)) (eventsOfRun_append_of_ne db hne)
      (filter_update_view_of_ne hstored.attemptKeys hattemptMem hattemptId
        (by rw [hattemptRun, hattemptOf]; exact hne) (hattemptOf ▸ hne))
      (filter_update_view_of_ne hstored.leaseKeys hleaseMem hleaseId
        (by rw [hleaseRun, hleaseOf]; exact hne) (hleaseOf ▸ hne)) rfl

/-- The facts an authorized report rests on. -/
structure Authorized (report : RuntimeReport) (run : ConversionRun) (lease : ConversionLease)
    (attempt : ConversionAttempt) (now : Timestamp) : Prop where
  expected : report.expectedCurrentStatus = run.status
  attemptRun : attempt.conversionRunId = run.id
  leaseRun : lease.conversionRunId = run.id
  attemptLease : attempt.conversionLeaseId = lease.id
  matched : reportMatchesLease report lease = true
  active : isConversionLeaseActive lease now = true

theorem authorizeReport_spec {report : RuntimeReport} {run : ConversionRun} {lease : ConversionLease}
    {attempt : ConversionAttempt} {now : Timestamp} {u : Unit}
    (h : authorizeReport report run lease attempt now = .ok u) :
    Authorized report run lease attempt now := by
  simp only [authorizeReport, require_eq_ok, authorizeRuntimeReport, Bool.and_eq_true,
    beq_iff_eq] at h
  obtain ⟨-, -, -, hattemptRun, hleaseRun, hattemptLease, -, -, -, -, ⟨⟨-, hexpected⟩, hmatched⟩,
    hactive⟩ := h
  exact ⟨hexpected, hattemptRun, hleaseRun, hattemptLease, hmatched, hactive⟩

theorem Authorized.lease_active {report : RuntimeReport} {run : ConversionRun}
    {lease : ConversionLease} {attempt : ConversionAttempt} {now : Timestamp}
    (h : Authorized report run lease attempt now) : lease.status = .active := by
  have hactive := h.active
  simp only [isConversionLeaseActive, Bool.and_eq_true, beq_iff_eq] at hactive
  exact hactive.1.1

theorem running_of_verifying {status : ConversionRunStatus}
    (h : canTransitionConversionRun (some status) .verifying = true) : status = .running := by
  cases status <;> simp [canTransitionConversionRun] at h ⊢

/-- An authorized report moves its run along the lifecycle. -/
theorem workerTransition_moved {report : RuntimeReport} {run : ConversionRun}
    {attempt : ConversionAttempt} {lease : ConversionLease} {now : Timestamp} {t : Transition}
    (hvalid : isRuntimeReport report = true) (hauthorized : Authorized report run lease attempt now)
    (h : workerTransition db report run attempt lease = .ok t) : Moved run attempt lease t := by
  have hactive := hauthorized.lease_active
  have hexpected := hauthorized.expected
  simp only [isRuntimeReport, Bool.and_eq_true] at hvalid
  obtain ⟨-, hvalid⟩ := hvalid
  unfold workerTransition at h
  cases hbody : report.body with
  | started converter =>
    simp only [hbody, bind_eq_ok, require_eq_ok, pure_eq_ok, Bool.and_eq_true, beq_iff_eq] at h hvalid
    obtain ⟨_, ⟨hattempt, -⟩, _, -, rfl⟩ := h
    exact .started (hexpected.symm.trans hvalid.2) hattempt hactive
  | progress percent message =>
    simp only [hbody, bind_eq_ok, require_eq_ok, pure_eq_ok] at h
    obtain ⟨_, ⟨hattempt, hrun⟩, rfl⟩ := h
    exact .progress hrun hattempt hactive
  | outputReady output =>
    simp only [hbody, bind_eq_ok, require_eq_ok, pure_eq_ok] at h
    obtain ⟨_, ⟨hattempt, hrun⟩, _, -, _, -, rfl⟩ := h
    exact .outputReady (running_of_verifying hrun) hattempt hactive
  | failed failure =>
    simp only [hbody, bind_eq_ok, require_eq_ok, pure_eq_ok] at h
    obtain ⟨_, ⟨hattempt, hrun⟩, rfl⟩ := h
    exact .failed hrun hattempt hactive

theorem verifierTransition_moved {request : VerifierRequest} {occurredAt : Timestamp}
    {run : ConversionRun} {attempt : ConversionAttempt} {lease : ConversionLease} {t : Transition}
    (h : verifierTransition db request occurredAt run attempt lease = .ok t) :
    Moved run attempt lease t := by
  cases request with
  | complete workspaceId verifierId idempotencyKey descriptor =>
    simp only [verifierTransition, bind_eq_ok, require_eq_ok, pure_eq_ok] at h
    obtain ⟨_, ⟨hrun, hattempt⟩, _, -, _, -, rfl⟩ := h
    exact .completed hrun hattempt
  | failVerification =>
    simp only [verifierTransition, bind_eq_ok, require_eq_ok, pure_eq_ok] at h
    obtain ⟨_, ⟨hrun, -⟩, rfl⟩ := h
    exact .verificationFailed hrun
  | reconcileExpired =>
    simp only [verifierTransition, bind_eq_ok, require_eq_ok, pure_eq_ok] at h
    obtain ⟨_, ⟨hlease, hattempt, hrun⟩, _, -, rfl⟩ := h
    exact .expired hrun hattempt hlease

/-- A report that was accepted: what it found, and what it stored. -/
structure AcceptedReport (report : RuntimeReport) (reportDigest : Digest) (values : ReportValues)
    (db db' : ConversionDatabase) (result : ConversionRuntimeTransitionResult)
    (run : ConversionRun) (lease : ConversionLease) (attempt : ConversionAttempt) (t : Transition)
    (mid : ConversionDatabase) : Prop where
  findRun : db.run? report.conversionRunId = some run
  findLease : find? db.leases report.conversionLeaseId = some lease
  findAttempt : find? db.attempts report.conversionAttemptId = some attempt
  authorized : authorizeReport report run lease attempt values.now = .ok ()
  transition : workerTransition db report run attempt lease = .ok t
  stored : storeTransition db run t values.eventId = .ok (result, mid)
  fresh : insertReport mid ⟨report, reportDigest, result.event.id, values.storedAt⟩ = .ok db'

theorem acceptReport_spec {report : RuntimeReport} {reportDigest : Digest} {values : ReportValues}
    {result : ConversionRuntimeTransitionResult}
    (h : acceptReport report reportDigest values db = .ok (result, db')) :
    ∃ run lease attempt t mid,
      AcceptedReport report reportDigest values db db' result run lease attempt t mid := by
  simp only [acceptReport, bind_eq_ok, loadRun_eq_ok, loadLease_eq_ok, loadAttempt_eq_ok, pure_eq_ok,
    Prod.mk.injEq] at h
  obtain ⟨run, ⟨hrun, -⟩, lease, ⟨hlease, -⟩, attempt, ⟨hattempt, -⟩, _, hauthorized, t, htransition,
    ⟨result', mid⟩, hstored, _, hfresh, rfl, rfl⟩ := h
  exact ⟨run, lease, attempt, t, mid, hrun, hlease, hattempt, hauthorized, htransition, hstored,
    hfresh⟩

theorem insertReport_eq_ok {row : ReportRow} :
    insertReport db row = .ok db' ↔ (∀ stored ∈ db.reports, stored.report.id ≠ row.report.id) ∧
      (∀ stored ∈ db.reports, stored.report.workspaceId = row.report.workspaceId →
        stored.report.workerId = row.report.workerId →
        stored.report.idempotencyKey ≠ row.report.idempotencyKey) ∧
      { db with reports := db.reports ++ [row] } = db' := by
  simp only [insertReport, bind_eq_ok, require_eq_ok, pure_eq_ok]
  constructor
  · rintro ⟨_, hid, _, hkey, hdb⟩
    exact ⟨hid, hkey, hdb⟩
  · rintro ⟨hid, hkey, hdb⟩
    exact ⟨(), hid, (), hkey, hdb⟩

/-- Tables that differ in no table of a history are well formed together. -/
theorem StepsOne.of_same {runId : Id} {db mid db' : ConversionDatabase} (h : StepsOne runId db mid)
    (hruns : db'.runs = mid.runs) (hevents : db'.events = mid.events)
    (hattempts : db'.attempts = mid.attempts) (hleases : db'.leases = mid.leases)
    (hgrants : db'.uploadGrants = mid.uploadGrants) : StepsOne runId db db' := by
  obtain ⟨runs, events, attempts, leases, uploadGrants, claims, reports, verifierTransitions⟩ := db'
  subst hruns hevents hattempts hleases hgrants
  obtain ⟨hstored, hstep, hothers⟩ := h
  exact ⟨⟨hstored.runKeys, hstored.eventKeys, hstored.attemptKeys, hstored.leaseKeys,
    hstored.grantKeys, hstored.runs, hstored.events, hstored.attempts, hstored.leases,
    hstored.uploadGrants⟩, hstep, hothers⟩

theorem acceptReport_steps (hs : Sound db) {report : RuntimeReport} {reportDigest : Digest}
    {values : ReportValues} {result : ConversionRuntimeTransitionResult}
    (hvalid : isRuntimeReport report = true)
    (h : acceptReport report reportDigest values db = .ok (result, db')) :
    ∃ runId, StepsOne runId db db' := by
  obtain ⟨run, lease, attempt, t, mid, haccepted⟩ := acceptReport_spec h
  have hauthorized := authorizeReport_spec haccepted.authorized
  obtain ⟨-, -, rfl⟩ := insertReport_eq_ok.mp haccepted.fresh
  have hrun := haccepted.findRun
  rw [← id_of_run? hrun] at hrun
  have hattempt : attempt ∈ db.attemptsOfRun run.id :=
    mem_attemptsOfRun.mpr ⟨mem_of_find? haccepted.findAttempt, hauthorized.attemptRun⟩
  have hlease : lease ∈ db.leasesOfRun run.id :=
    mem_leasesOfRun.mpr ⟨mem_of_find? haccepted.findLease, hauthorized.leaseRun⟩
  have hmoved := workerTransition_moved hvalid hauthorized haccepted.transition
  have hsteps := storeTransition_steps hs hrun hattempt hlease hauthorized.attemptLease hmoved
    haccepted.stored
  exact ⟨run.id, hsteps.of_same rfl rfl rfl rfl rfl⟩

theorem acceptRequest_steps (hs : Sound db) {request : VerifierRequest} {requestDigest : Digest}
    {conversionRunId : Id} {occurredAt : Timestamp} {eventId : Id}
    {result : ConversionRuntimeTransitionResult}
    (h : acceptRequest request requestDigest conversionRunId occurredAt eventId db =
      .ok (result, db')) : ∃ runId, StepsOne runId db db' := by
  simp only [acceptRequest, bind_eq_ok, loadRun_eq_ok, loadLease_eq_ok, loadLatestAttempt_eq_ok,
    require_eq_ok, pure_eq_ok, Prod.mk.injEq] at h
  obtain ⟨run, ⟨hrun, -⟩, _, -, attempt, ⟨hattempt, -⟩, lease, ⟨hfind, -⟩, t, htransition,
    ⟨_, mid⟩, hstored, -, rfl⟩ := h
  obtain rfl : run.id = conversionRunId := id_of_run? hrun
  have hattempt := List.argmax_mem hattempt
  obtain ⟨hattemptMem, hattemptRun⟩ := mem_attemptsOfRun.mp hattempt
  have hlease : lease ∈ db.leasesOfRun run.id :=
    mem_leasesOfRun.mpr ⟨mem_of_find? hfind, (lease_of_attempt hs hattemptMem hfind).trans hattemptRun⟩
  have hsteps := storeTransition_steps hs hrun hattempt hlease (key_of_find? hfind).symm
    (verifierTransition_moved htransition) hstored
  exact ⟨run.id, hsteps.of_same rfl rfl rfl rfl rfl⟩

/-! ### Every call -/

/-- A successful call leaves every history alone, or takes one of them a step further. -/
def Advances (db db' : ConversionDatabase) : Prop :=
  (Stored db' ∧ ∀ runId, history db' runId = history db runId) ∨ ∃ runId, StepsOne runId db db'

theorem advances_refl (hs : Sound db) : Advances db db := Or.inl ⟨hs.stored, fun _ => rfl⟩

theorem submitReport_advances (hs : Sound db) {platform : ConversionPlatform} {report : RuntimeReport}
    {values : ReportValues} {result : ConversionRuntimeTransitionResult}
    (h : submitReport platform report values db = .ok (result, db')) : Advances db db' := by
  simp only [submitReport, applyWorkerReport, bind_eq_ok, require_eq_ok] at h
  obtain ⟨_, hvalid, _, -, _, -, _, -, replay, -, h⟩ := h
  split at h
  · simp only [pure_eq_ok, Prod.mk.injEq] at h
    exact h.2 ▸ advances_refl hs
  · exact Or.inr (acceptReport_steps hs hvalid h)

theorem applyVerifierTransition_advances (hs : Sound db) {platform : ConversionPlatform}
    {request : VerifierRequest} {conversionRunId : Id} {occurredAt : Timestamp} {eventId : Id}
    {result : ConversionRuntimeTransitionResult}
    (h : applyVerifierTransition platform request conversionRunId occurredAt eventId db =
      .ok (result, db')) : Advances db db' := by
  simp only [applyVerifierTransition, bind_eq_ok] at h
  obtain ⟨replay, -, h⟩ := h
  split at h
  · simp only [pure_eq_ok, Prod.mk.injEq] at h
    exact h.2 ▸ advances_refl hs
  · exact Or.inr (acceptRequest_steps hs h)

variable {platform : ConversionPlatform}

theorem body_advances (hs : Sound db) {call : ConversionCall} {outcome : ConversionOutcome}
    (h : body platform call db = .ok (outcome, db')) : Advances db db' := by
  cases call <;> simp only [body, bind_eq_ok, pure_eq_ok, Prod.mk.injEq] at h <;>
    obtain ⟨⟨result, _⟩, h, -, rfl⟩ := h
  case dispatchManual =>
    rcases dispatchManual_steps hs h with rfl | hsteps
    · exact advances_refl hs
    · exact Or.inr ⟨_, hsteps⟩
  case cancel => exact Or.inr ⟨_, cancel_steps hs h⟩
  case claim => exact claim_steps hs h
  case renewLease => exact Or.inr ⟨_, renewLease_steps hs h⟩
  case releaseBeforeStart => exact Or.inr (closeBeforeStart_steps hs h)
  case expireBeforeStart => exact Or.inr (closeBeforeStart_steps hs h)
  case submitReport => exact submitReport_advances hs h
  case completeVerification =>
    simp only [completeVerification, bind_eq_ok] at h
    obtain ⟨_, -, _, -, _, -, h⟩ := h
    exact applyVerifierTransition_advances hs h
  case failVerification =>
    simp only [failVerification, bind_eq_ok] at h
    obtain ⟨_, -, _, -, _, -, h⟩ := h
    exact applyVerifierTransition_advances hs h
  case reconcileExpiredStartedLease =>
    simp only [reconcileExpiredStartedLease, bind_eq_ok] at h
    obtain ⟨_, -, _, -, _, -, h⟩ := h
    exact applyVerifierTransition_advances hs h

theorem perform_advances (hs : Sound db) (call : ConversionCall) :
    Advances db (perform platform db call).2 :=
  commit_rel (R := Advances) (advances_refl hs) fun _ _ h => body_advances hs h

theorem Sound.advances (hs : Sound db) (h : Advances db db') : Sound db' := by
  rcases h with ⟨hstored, hsame⟩ | ⟨runId, hsteps⟩
  · exact ⟨hstored, fun runId => hsame runId ▸ hs.agrees runId⟩
  · refine ⟨hsteps.stored, fun other => ?_⟩
    by_cases hother : other = runId
    · subst hother
      exact agrees_step (hs.agrees other) (hs.stored.attemptKeys.filter _)
        (hs.stored.leaseKeys.filter _) hsteps.step
    · exact hsteps.others other hother ▸ hs.agrees other

theorem sound_empty : Sound .empty where
  stored := by
    constructor <;> simp [ConversionDatabase.empty, KeysUnique]
  agrees _ := agrees_empty

theorem sound_runFrom (hs : Sound db) (calls : List ConversionCall) :
    Sound ((store platform).runFrom db calls) :=
  Machine.runFrom_invariant (fun _ call hs => hs.advances (perform_advances hs call)) hs calls

/-- Every state of the store is well formed, and every history in it agrees with the protocol. -/
theorem sound_run (calls : List ConversionCall) : Sound ((store platform).run calls) :=
  sound_runFrom sound_empty calls

/-- What every step of a history keeps, a call keeps. -/
theorem history_advances {P : RunHistory → Prop}
    (hstep : ∀ {h h' : RunHistory}, KeysUnique h.attempts → RunStep h h' → P h → P h') (hs : Sound db)
    (h : Advances db db') {runId : Id} (hp : P (history db runId)) : P (history db' runId) := by
  rcases h with ⟨-, hsame⟩ | ⟨moved, hsteps⟩
  · rw [hsame runId]
    exact hp
  · by_cases hid : runId = moved
    · subst hid
      exact hstep (hs.stored.attemptKeys.filter _) hsteps.step hp
    · rw [hsteps.others runId hid]
      exact hp

/-- The invariant rule for the histories of the runs. -/
theorem history_runFrom {P : RunHistory → Prop}
    (hstep : ∀ {h h' : RunHistory}, KeysUnique h.attempts → RunStep h h' → P h → P h') (hs : Sound db)
    {runId : Id} (hp : P (history db runId)) (calls : List ConversionCall) :
    P (history ((store platform).runFrom db calls) runId) := by
  refine (Machine.runFrom_invariant (P := fun db => Sound db ∧ P (history db runId)) ?_
    ⟨hs, hp⟩ calls).2
  rintro db call ⟨hs, hp⟩
  have hadvances : Advances db (perform platform db call).2 := perform_advances hs call
  exact ⟨hs.advances hadvances, history_advances hstep hs hadvances hp⟩

end Calls

end MarkorbitKnowledge.Conversion
