import MarkorbitKnowledge.Execution.Machine

/-!
# What the execution database never loses

No call rewrites or deletes a transition request, and none rewrites the snapshots a job was inserted
with; both tables only grow.  A lease keeps its job and the time it was acquired, and an ended lease
never becomes active again; only a claim grants a lease.  `Retains` says this of a call that claims
nothing, one lemma for each call; `Claims` is what a claim does besides: it reaps, and then grants at
most one lease, on a job the quota of its web domain admits.
-/

namespace MarkorbitKnowledge.Execution

open Contracts Fallible Transitions
open Protocol (Coherent)
open Tables (KeysUnique mem_of_find?)

/-! ### The relation -/

/-- The snapshots a job was inserted with, as far as a claim reads them. -/
structure JobSnapshots where
  id : Id
  planSnapshot : CollectionPlan
  sourceSnapshot : SourceDefinition

def jobSnapshots (job : Job) : JobSnapshots := ⟨job.id, job.planSnapshot, job.sourceSnapshot⟩

instance : Tables.Keyed JobSnapshots Id := ⟨JobSnapshots.id⟩

/-- A lease and the same lease later. -/
structure LeaseKept (row later : LeaseRow) : Prop where
  id : later.lease.id = row.lease.id
  jobId : later.lease.jobId = row.lease.jobId
  acquiredAt : later.lease.acquiredAt = row.lease.acquiredAt
  active : later.lease.status = .active → row.lease.status = .active

theorem LeaseKept.refl (row : LeaseRow) : LeaseKept row row := ⟨rfl, rfl, rfl, fun h => h⟩

theorem LeaseKept.trans {row later latest : LeaseRow} (h : LeaseKept row later)
    (h' : LeaseKept later latest) : LeaseKept row latest where
  id := h'.id.trans h.id
  jobId := h'.jobId.trans h.jobId
  acquiredAt := h'.acquiredAt.trans h.acquiredAt
  active hactive := h.active (h'.active hactive)

/-- `db'` is `db` after calls that claimed nothing. -/
structure Retains (db db' : Database) : Prop where
  requests : db.transitionRequests <+: db'.transitionRequests
  jobs : db.jobs.map jobSnapshots <+: db'.jobs.map jobSnapshots
  leases : List.Forall₂ LeaseKept db.leases db'.leases

theorem leases_refl (leases : List LeaseRow) : List.Forall₂ LeaseKept leases leases :=
  List.forall₂_same.mpr fun row _ => .refl row

theorem leases_trans {leases later latest : List LeaseRow} (h : List.Forall₂ LeaseKept leases later)
    (h' : List.Forall₂ LeaseKept later latest) : List.Forall₂ LeaseKept leases latest := by
  induction h generalizing latest with
  | nil => exact h'
  | cons hkept _ ih =>
    cases h' with
    | cons hkept' hrest' => exact .cons (hkept.trans hkept') (ih hrest')

/-- An update of a stored lease to a later version of it. -/
theorem leases_update {leases : List LeaseRow} (hu : KeysUnique leases) {row next : LeaseRow}
    (hrow : row ∈ leases) (hkept : LeaseKept row next) :
    List.Forall₂ LeaseKept leases (Tables.update leases next) := by
  refine Tables.forall₂_update (fun x _ => .refl x) fun x hx hk => ?_
  have : x = row := hu.eq_of_key hx hrow (hk.trans hkept.id)
  exact this ▸ hkept

/-- A lease that ends is a later version of it. -/
theorem leaseKept_closed (row : LeaseRow) {status : JobLeaseStatus} (hstatus : status ≠ .active)
    (timestamp : Timestamp) (reason : String) :
    LeaseKept row { row with lease := closedLease row.lease status timestamp reason } :=
  ⟨rfl, rfl, rfl, fun hactive => absurd hactive hstatus⟩

/-- An update of a stored job to one with the same snapshots. -/
theorem snapshots_update {jobs : List Job} (hu : KeysUnique jobs) {job : Job}
    (hjob : job ∈ jobs) (next : Job) (hsame : jobSnapshots next = jobSnapshots job) :
    (Tables.update jobs next).map jobSnapshots = jobs.map jobSnapshots := by
  refine Tables.map_update_of_eq jobSnapshots fun x hx hk => ?_
  have hid : next.id = job.id := congrArg JobSnapshots.id hsame
  have : x = job := hu.eq_of_key hx hjob (hk.trans hid)
  rw [this, hsame]

namespace Retains

variable {db db' db'' : Database}

theorem refl (db : Database) : Retains db db :=
  ⟨List.prefix_refl _, List.prefix_refl _, leases_refl _⟩

theorem trans (h : Retains db db') (h' : Retains db' db'') : Retains db db'' where
  requests := h.requests.trans h'.requests
  jobs := h.jobs.trans h'.jobs
  leases := leases_trans h.leases h'.leases

/-- A call that inserts neither requests nor jobs. -/
theorem of_updates (hrequests : db'.transitionRequests = db.transitionRequests)
    (hjobs : db'.jobs.map jobSnapshots = db.jobs.map jobSnapshots)
    (hleases : List.Forall₂ LeaseKept db.leases db'.leases) : Retains db db' where
  requests := hrequests ▸ List.prefix_refl _
  jobs := hjobs ▸ List.prefix_refl _
  leases := hleases

/-- A call that writes neither requests, jobs nor leases. -/
theorem of_same (hrequests : db'.transitionRequests = db.transitionRequests)
    (hjobs : db'.jobs = db.jobs) (hleases : db'.leases = db.leases) : Retains db db' :=
  of_updates hrequests (by rw [hjobs]) (by rw [hleases]; exact leases_refl _)

/-- A successful body of a transaction retains, so the transaction does. -/
theorem commit {α : Type} {body : Database → Except RegistryError (α × Database)}
    (h : ∀ a db', body db = .ok (a, db') → Retains db db') : Retains db (commit body db).2 :=
  commit_rel (R := Retains) (.refl db) h

end Retains

/-! ### Dispatches and cancellations -/

theorem insertDispatch_retains {db db' : Database} {run : CollectionRun} {job : Job}
    (h : insertDispatch db run job = .ok db') : Retains db db' := by
  simp only [insertDispatch, insertRun, insertJob, bind_eq_ok, require_eq_ok, pure_eq_ok] at h
  obtain ⟨_, ⟨_, -, _, -, rfl⟩, _, -, _, -, rfl⟩ := h
  refine ⟨List.prefix_refl _, ?_, leases_refl _⟩
  rw [List.map_append]
  exact List.prefix_append _ _

theorem dispatchManual_retains {input : ManualDispatchInput} {now : Timestamp} {runId jobId : Id}
    {db db' : Database} {result : ManualDispatchResult}
    (h : dispatchManual input now runId jobId db = .ok (result, db')) : Retains db db' := by
  rcases dispatchManual_spec h with rfl | ⟨_, _, _, _, _, -, -, hinsert⟩
  · exact .refl _
  · exact insertDispatch_retains hinsert

theorem retains_of_onlyState {planId : Id} {db db' : Database}
    (h : Scheduler.OnlyState planId db db') : Retains db db' := by
  rw [h.rest]
  exact .of_same rfl rfl rfl

theorem tick_retains (platform : Platform) (input : Scheduler.TickInput) (ids : Nat → Id × Id)
    (crash : Option (Nat × Scheduler.CommitPoint)) (db : Database) :
    Retains db (Scheduler.tick platform input ids crash db).2 := by
  refine Scheduler.tick_preserves (P := Retains db) (.refl db)
    fun plan _ current next hretains hexamined => hretains.trans ?_
  obtain ⟨mid, mid', hbefore, hmid, hafter⟩ := hexamined.commits
  refine (retains_of_onlyState hbefore).trans (Retains.trans ?_ (retains_of_onlyState hafter))
  rcases hmid with rfl | ⟨slot, -, -, hdispatched⟩
  · exact .refl _
  · obtain ⟨_, _, _, _, _, _, -, hinsert⟩ := hdispatched.inserted
    exact insertDispatch_retains hinsert

theorem cancel_retains {id : Id} {input : CancelRunInput} {now : Timestamp} {db db' : Database}
    {record : ExecutionRunRecord} (hc : Coherent (view db))
    (h : cancel id input now db = .ok (record, db')) : Retains db db' := by
  obtain ⟨run, -, -, -, rfl⟩ := cancel_spec (jobKeys_of_coherent hc) h
  refine .of_updates rfl ?_ (leases_refl _)
  rw [List.map_map]
  refine List.map_congr_left fun job _ => ?_
  by_cases hof : job.runId = run.id <;> simp [jobSnapshots, cancelledJob, hof]

/-! ### Leases -/

theorem endLease_retains {db db' : Database} {row : LeaseRow} {status : JobLeaseStatus}
    {timestamp : Timestamp} {reason : String} (hc : Coherent (view db)) (hrow : row ∈ db.leases)
    (hstatus : status ≠ .active) (h : endLease db row status timestamp reason = .ok db') :
    Retains db db' := by
  simp only [endLease, closeLease, bind_eq_ok, require_eq_ok, pure_eq_ok] at h
  obtain ⟨_, ⟨_, -, rfl⟩, h⟩ := h
  have hleases := leases_update (leaseKeys_of_coherent hc) hrow
    (leaseKept_closed row hstatus timestamp (sliceText reason 500))
  simp only [returnJobToPending, updateLeaseDocument] at h
  split at h
  · rw [pure_eq_ok] at h
    exact h ▸ .of_updates rfl rfl hleases
  · rename_i job hfind
    simp only [bind_eq_ok, parseJob_eq_ok] at h
    obtain ⟨_, ⟨-, rfl⟩, h⟩ := h
    split at h
    · simp only [jobWithStatus, bind_eq_ok, require_eq_ok, pure_eq_ok] at h
      obtain ⟨_, ⟨_, -, rfl⟩, rfl⟩ := h
      have hjobs := snapshots_update (jobKeys_of_coherent hc) (mem_of_find? hfind)
        { job with status := .pending, updatedAt := timestamp } rfl
      exact .of_updates rfl hjobs hleases
    · rw [pure_eq_ok] at h
      exact h ▸ .of_updates rfl rfl hleases

theorem reapExpired_retains {now : Timestamp} {db db' : Database} {count : Nat}
    (hc : Coherent (view db)) (h : reapExpired now db = .ok (count, db')) : Retains db db' :=
  reapExpired_rule (P := Retains db)
    (fun _ _ _ hcurrent hrow _ hretains hend =>
      hretains.trans (endLease_retains hcurrent hrow (by simp) hend)) hc (.refl db) h

theorem releaseLease_retains {platform : Platform} {workerId : Id} {credential : String}
    {leaseId : Id} {leaseToken : String} {reason : Option String} {now : Timestamp}
    {db db' : Database} {u : Unit} (hc : Coherent (view db))
    (h : releaseLease platform workerId credential leaseId leaseToken reason now db = .ok (u, db')) :
    Retains db db' := by
  simp only [releaseLease, bind_eq_ok, pure_eq_ok, Prod.mk.injEq] at h
  obtain ⟨_, -, row, howned, _, hend, -, rfl⟩ := h
  exact endLease_retains hc (requireOwnedActiveLease_spec howned).1 (by simp) hend

theorem renewLeaseInner_retains {platform : Platform} {options : WorkerProtocolOptions}
    {workerId : Id} {credential : String} {leaseId : Id} {leaseToken : String} {now : Timestamp}
    {db db' : Database} {lease : JobLease} (hc : Coherent (view db))
    (h : renewLeaseInner platform options workerId credential leaseId leaseToken now db =
      .ok (lease, db')) : Retains db db' := by
  simp only [renewLeaseInner, bind_eq_ok] at h
  obtain ⟨_, -, row, howned, h⟩ := h
  obtain ⟨hrow, -, -⟩ := requireOwnedActiveLease_spec howned
  split at h
  · simp only [bind_eq_ok, throwExpired_ne_ok, false_and, exists_false] at h
  · split at h
    · simp only [bind_eq_ok, throwExpired_ne_ok, false_and, exists_false] at h
    · simp only [pure_eq_ok, Prod.mk.injEq] at h
      obtain ⟨-, rfl⟩ := h
      exact .of_updates rfl rfl
        (leases_update (leaseKeys_of_coherent hc) hrow ⟨rfl, rfl, rfl, fun h => h⟩)

theorem renewLease_retains (platform : Platform) (options : WorkerProtocolOptions) (workerId : Id)
    (credential : String) (leaseId : Id) (leaseToken : String) (now reapNow : Timestamp)
    {db : Database} (hc : Coherent (view db)) :
    Retains db
      (renewLease platform options workerId credential leaseId leaseToken now reapNow db).2 := by
  unfold renewLease
  split
  · rename_i hrenew
    exact renewLeaseInner_retains hc hrenew
  · split
    · split
      · rename_i hreap
        exact reapExpired_retains hc hreap
      · exact .refl db
    · exact .refl db

/-! ### Workers -/

theorem update_retains {id : Id} {input : UpdateWorkerInput} {expectedUpdatedAt now : Timestamp}
    {db db' : Database} {worker : WorkerDefinition} (hc : Coherent (view db))
    (h : update id input expectedUpdatedAt now db = .ok (worker, db')) : Retains db db' := by
  simp only [update, bind_eq_ok] at h
  obtain ⟨_, -, _, -, _, -, next, -, _, -, h⟩ := h
  have hworkers : Retains db { db with workers := Tables.update db.workers next } :=
    .of_same rfl rfl rfl
  split at h
  · simp only [bind_eq_ok, pure_eq_ok, Prod.mk.injEq] at h
    obtain ⟨_, hrevoke, -, rfl⟩ := h
    have hview : Coherent (view { db with workers := Tables.update db.workers next }) := hc
    exact revokeActiveLeasesForWorker_rule (P := Retains db)
      (fun _ _ _ hcurrent hrow _ hretains hend =>
        hretains.trans (endLease_retains hcurrent hrow (by simp) hend)) hview hworkers hrevoke
  · simp only [bind_eq_ok, pure_eq_ok, Prod.mk.injEq] at h
    obtain ⟨_, rfl, -, rfl⟩ := h
    exact hworkers

/-! ### Transitions -/

/-- What a transition adds to what it retains: the row its request is replayed from, under a key that
    was free. -/
structure Recorded (key : TransitionKey) (result : ExecutionTransitionResult) (db db' : Database) :
    Prop where
  fresh : ∀ stored ∈ db.transitionRequests, stored.workerId = key.workerId →
    stored.leaseId = key.leaseId → stored.idempotencyKey ≠ key.idempotencyKey
  stored : ∃ createdAt, db'.transitionRequests = db.transitionRequests ++
    [{ workerId := key.workerId, leaseId := key.leaseId, idempotencyKey := key.idempotencyKey
       operation := key.operation, payloadHash := key.payloadHash, result, createdAt }]
  attempt : isExecutionAttempt result.attempt = true
  event : isExecutionEvent result.event = true
  jobs : db.jobs.map jobSnapshots <+: db'.jobs.map jobSnapshots
  leases : List.Forall₂ LeaseKept db.leases db'.leases

theorem Recorded.retains {key : TransitionKey} {result : ExecutionTransitionResult}
    {db db' : Database} (h : Recorded key result db db') : Retains db db' where
  requests := by
    obtain ⟨_, hstored⟩ := h.stored
    rw [hstored]
    exact List.prefix_append _ _
  jobs := h.jobs
  leases := h.leases

theorem buildEvent_spec {db : Database} {attemptId : Id} {fromStatus : Option ExecutionAttemptStatus}
    {toStatus : ExecutionAttemptStatus} {eventType : ExecutionEventType} {idempotencyKey : String}
    {payloadHash : Digest} {recordedAt : Timestamp} {eventId : Id} {event : ExecutionEvent}
    (h : buildEvent db attemptId fromStatus toStatus eventType idempotencyKey payloadHash recordedAt
      eventId = .ok event) : isExecutionEvent event = true := by
  simp only [buildEvent, bind_eq_ok, require_eq_ok, pure_eq_ok] at h
  obtain ⟨_, hevent, rfl⟩ := h
  exact hevent

theorem startInTransaction_records {platform : Platform} {request : WorkerRequest}
    {executor : ExecutionExecutor} {key : TransitionKey} {now : Timestamp} {attemptId eventId : Id}
    {db db' : Database} {result : ExecutionTransitionResult} (hc : Coherent (view db))
    (h : startInTransaction platform request executor key now attemptId eventId db =
      .ok (result, db')) : Recorded key result db db' := by
  simp only [startInTransaction, bind_eq_ok, require_eq_ok, pure_eq_ok, Prod.mk.injEq] at h
  obtain ⟨context, hcontext, _, -, existing, -, _, -, _, hvalid, event, hevent, db₁, hattempt, db₂,
    hinsert, db₃, hjob, db₄, hrun, db₅, hreplay, rfl, rfl⟩ := h
  obtain ⟨hstored, -⟩ := requireActiveContext_spec hcontext
  obtain ⟨-, rfl⟩ := insertAttempt_spec hattempt
  obtain rfl := insertEvent_spec hinsert
  obtain rfl := updateJob_spec hjob
  obtain rfl := updateRun_spec hrun
  obtain ⟨hfresh, rfl⟩ := storeReplay_spec hreplay
  have hjobs := snapshots_update (jobKeys_of_coherent hc) hstored.job
    { context.job with status := .running, updatedAt := now } rfl
  exact ⟨hfresh, ⟨now, rfl⟩, hvalid, buildEvent_spec hevent, hjobs ▸ List.prefix_refl _,
    leases_refl _⟩

theorem stageInTransaction_records {platform : Platform} {request : WorkerRequest}
    {stage : ExecutionStage} {key : TransitionKey} {now : Timestamp} {eventId : Id}
    {db db' : Database} {result : ExecutionTransitionResult} (hc : Coherent (view db))
    (h : stageInTransaction platform request stage key now eventId db = .ok (result, db')) :
    Recorded key result db db' := by
  simp only [stageInTransaction, bind_eq_ok, require_eq_ok, pure_eq_ok, Prod.mk.injEq] at h
  obtain ⟨context, hcontext, attempt, -, _, -, event, hevent, db₁, hupdate, db₂, hinsert, db₃, hjob,
    db₄, hreplay, rfl, rfl⟩ := h
  obtain ⟨hstored, -⟩ := requireActiveContext_spec hcontext
  obtain ⟨hvalid, rfl⟩ := updateAttempt_spec hupdate
  obtain rfl := insertEvent_spec hinsert
  obtain rfl := updateJob_spec hjob
  obtain ⟨hfresh, rfl⟩ := storeReplay_spec hreplay
  have hjobs := snapshots_update (jobKeys_of_coherent hc) hstored.job
    { context.job with status := stage.target.toJobStatus, updatedAt := now } rfl
  exact ⟨hfresh, ⟨now, rfl⟩, hvalid, buildEvent_spec hevent, hjobs ▸ List.prefix_refl _,
    leases_refl _⟩

theorem settleJob_retains {platform : Platform} {db db' : Database} {job : Job} {run : CollectionRun}
    {terminal : Terminal} {now : Timestamp} {retryJobId : Id} {reason : String}
    (h : settleJob platform db job run terminal now retryJobId = .ok (reason, db'))
    (hjobs : KeysUnique db.jobs) (hjob : job ∈ db.jobs) :
    db.jobs.map jobSnapshots <+: db'.jobs.map jobSnapshots ∧ db'.leases = db.leases ∧
      db'.transitionRequests = db.transitionRequests := by
  have hkept : ∀ status : JobStatus,
      (Tables.update db.jobs { job with status, updatedAt := now }).map jobSnapshots =
        db.jobs.map jobSnapshots := fun status =>
    snapshots_update hjobs hjob { job with status, updatedAt := now } rfl
  rcases settleJob_spec h with ⟨status, -, rfl⟩ | ⟨-, -, -, _, rfl⟩
  · exact ⟨hkept status ▸ List.prefix_refl _, rfl, rfl⟩
  · refine ⟨?_, rfl, rfl⟩
    rw [List.map_append, hkept]
    exact List.prefix_append _ _

theorem terminalInTransaction_records {platform : Platform} {request : WorkerRequest}
    {terminal : Terminal} {key : TransitionKey} {now : Timestamp} {ids : TerminalIds}
    {db db' : Database} {result : ExecutionTransitionResult} (hc : Coherent (view db))
    (h : terminalInTransaction platform request terminal key now ids db = .ok (result, db')) :
    Recorded key result db db' := by
  simp only [terminalInTransaction, bind_eq_ok, require_eq_ok, pure_eq_ok, Prod.mk.injEq] at h
  obtain ⟨context, hcontext, attempt, -, _, -, _, hvalid, event, hevent, db₁, hupdate, db₂, hinsert,
    ⟨reason, db₃⟩, hsettle, db₄, hclose, db₅, hreplay, rfl, rfl⟩ := h
  obtain ⟨hstored, -⟩ := requireActiveContext_spec hcontext
  obtain ⟨-, rfl⟩ := updateAttempt_spec hupdate
  obtain rfl := insertEvent_spec hinsert
  have hjobKeys := jobKeys_of_coherent hc
  have hjob := hstored.job
  obtain ⟨hjobs, hleases, hrequests⟩ := settleJob_retains hsettle hjobKeys hjob
  simp only [closeExecutionLease, updateLeaseDocument, bind_eq_ok, require_eq_ok,
    pure_eq_ok] at hclose
  obtain ⟨_, -, rfl⟩ := hclose
  obtain ⟨hfresh, rfl⟩ := storeReplay_spec hreplay
  rw [hrequests] at hfresh
  refine ⟨hfresh, ⟨now, by rw [hrequests]⟩, hvalid, buildEvent_spec hevent, hjobs, ?_⟩
  rw [hleases]
  exact leases_update (leaseKeys_of_coherent hc) hstored.lease
    (leaseKept_closed _ (by simp) now reason)

theorem replayOr_retains {platform : Platform} {request : WorkerRequest} {key : TransitionKey}
    {body : Database → Except RegistryError (ExecutionTransitionResult × Database)}
    {db db' : Database} {result : ExecutionTransitionResult}
    (hbody : body db = .ok (result, db') → Recorded key result db db')
    (h : replayOr platform request key body db = .ok (result, db')) : Retains db db' := by
  simp only [replayOr, bind_eq_ok] at h
  obtain ⟨_, -, replay, -, h⟩ := h
  split at h
  · simp only [pure_eq_ok, Prod.mk.injEq] at h
    obtain ⟨-, rfl⟩ := h
    exact .refl db
  · exact (hbody h).retains

/-! ### Reconciliation -/

theorem abandon_retains {platform : Platform} {now : Timestamp} {db db' : Database}
    {row : AbandonedRow} {eventId : Id} (hstored : row.Stored db) (hc : Coherent (view db))
    (h : abandon platform now db (row, eventId) = .ok db') : Retains db db' := by
  simp only [abandon, bind_eq_ok, parseAttempt_eq_ok, parseLease_eq_ok, parseJob_eq_ok,
    parseRun_eq_ok] at h
  obtain ⟨_, ⟨-, rfl⟩, _, ⟨-, rfl⟩, _, ⟨-, rfl⟩, _, ⟨-, rfl⟩, event, -, _, hattempt, _, hevent, _, hjob,
    _, hrun, h⟩ := h
  obtain ⟨-, rfl⟩ := updateAttempt_spec hattempt
  obtain rfl := insertEvent_spec hevent
  obtain rfl := updateJob_spec hjob
  obtain rfl := updateRun_spec hrun
  have hjobs := snapshots_update (jobKeys_of_coherent hc) hstored.job
    { row.job with status := .failed, updatedAt := now } rfl
  split at h
  · simp only [closeExecutionLease, updateLeaseDocument, bind_eq_ok, require_eq_ok,
      pure_eq_ok] at h
    obtain ⟨_, -, rfl⟩ := h
    exact .of_updates rfl hjobs (leases_update (leaseKeys_of_coherent hc) hstored.lease
      (leaseKept_closed _ (by simp) now _))
  · rw [pure_eq_ok] at h
    exact h ▸ .of_updates rfl hjobs (leases_refl _)

theorem reconcileExpired_retains {platform : Platform} {now : Timestamp} {eventId : Nat → Id}
    {db db' : Database} {count : Nat} (hc : Coherent (view db))
    (h : reconcileExpired platform now eventId db = .ok (count, db')) : Retains db db' :=
  reconcileExpired_rule (P := Retains db)
    (fun _ _ _ _ hcurrent _ hstored hretains habandon =>
      hretains.trans (abandon_retains hstored hcurrent habandon)) hc (.refl db) h

/-! ### Claims -/

/-- A grant: one new lease, for a stored job that the quota of its web domain admits. -/
structure Granted (platform : Platform) (options : WorkerProtocolOptions) (inputs : ClaimInputs)
    (worker : WorkerDefinition) (job : Job) (state : List WebDomainLease) (db db' : Database) :
    Prop where
  stored : job ∈ db.jobs
  valid : isJob job = true
  observed : webDomainLeaseState platform db inputs.now = .ok state
  quota : webDomainQuotaAllows platform options job state = true
  granted : db' =
    { db with
      jobs := Tables.update db.jobs { job with status := .leased, updatedAt := inputs.now }
      leases := db.leases ++
        [⟨newLease options worker job inputs, platform.digestHex inputs.leaseToken⟩] }

/-- What a claim does: it reaps, and then grants at most one lease. -/
def Claimed (platform : Platform) (options : WorkerProtocolOptions) (inputs : ClaimInputs)
    (db db' : Database) : Prop :=
  ∃ reaped, Retains db reaped ∧ Coherent (view reaped) ∧
    (db' = reaped ∨ ∃ worker job state, Granted platform options inputs worker job state reaped db')

section Claims

variable {platform : Platform} {options : WorkerProtocolOptions} {inputs : ClaimInputs}
  {db db' : Database}

theorem claimJobInTransaction_granted {worker : WorkerDefinition} {job : Job} {result : ClaimResult}
    {state : List WebDomainLease} (hjob : job ∈ db.jobs) (hvalid : isJob job = true)
    (hstate : webDomainLeaseState platform db inputs.now = .ok state)
    (hquota : webDomainQuotaAllows platform options job state = true)
    (h : claimJobInTransaction platform options db worker job inputs = .ok (result, db')) :
    Granted platform options inputs worker job state db db' := by
  simp only [claimJobInTransaction, jobWithStatus, insertLease, bind_eq_ok, require_eq_ok,
    pure_eq_ok, Prod.mk.injEq] at h
  obtain ⟨_, -, _, ⟨_, -, rfl⟩, _, -, _, ⟨_, -, _, -, rfl⟩, -, rfl⟩ := h
  exact ⟨hjob, hvalid, hstate, hquota, rfl⟩

theorem beginClaim_retains {workerId : Id} {credential : String} {worker : WorkerDefinition}
    (hc : Coherent (view db))
    (h : beginClaim platform options workerId credential inputs db = .ok (worker, db')) :
    Retains db db' ∧ Coherent (view db') := by
  have hrefined := beginClaim_refines platform options workerId credential inputs db worker db' hc h
  simp only [beginClaim, bind_eq_ok, pure_eq_ok, Prod.mk.injEq] at h
  obtain ⟨_, -, ⟨count, reaped⟩, hreap, _, -, _, -, _, -, ⟨_, _⟩, -, _, -, _, -, _, -, -, rfl⟩ := h
  exact ⟨reapExpired_retains hc hreap, hrefined.coherent hc⟩

theorem claim_claimed {workerId : Id} {credential : String} {result : ClaimResult}
    (hc : Coherent (view db))
    (h : claim platform options workerId credential inputs db = .ok (result, db')) :
    Claimed platform options inputs db db' := by
  simp only [claim, bind_eq_ok] at h
  obtain ⟨⟨worker, reaped⟩, hbegin, candidates, hcandidates, state, hstate, h⟩ := h
  obtain ⟨hretains, hcoherent⟩ := beginClaim_retains hc hbegin
  refine ⟨reaped, hretains, hcoherent, ?_⟩
  split at h
  · simp only [pure_eq_ok, Prod.mk.injEq] at h
    exact Or.inl h.2.symm
  · rename_i job hfind
    rw [mapM_guarded (fun _ _ => parseJob_eq_ok), List.map_id'] at hcandidates
    obtain ⟨hparsed, rfl⟩ := hcandidates
    have hcandidate := List.mem_of_find?_eq_some hfind
    have hmem := List.mem_of_mem_take hcandidate
    have hadmitted := List.find?_some hfind
    simp only [List.mem_insertionSort, List.mem_filter] at hmem
    simp only [Bool.and_eq_true] at hadmitted
    exact Or.inr ⟨worker, job, state, claimJobInTransaction_granted hmem.1 (hparsed job hcandidate)
      hstate hadmitted.2 h⟩

theorem claimSpecific_claimed {workerId jobId : Id} {credential : String} {result : ClaimResult}
    (hc : Coherent (view db))
    (h : claimSpecific platform options workerId credential jobId inputs db = .ok (result, db')) :
    Claimed platform options inputs db db' := by
  simp only [claimSpecific, bind_eq_ok, require_eq_ok, orThrow_eq_ok, parseJob_eq_ok] at h
  obtain ⟨⟨worker, reaped⟩, hbegin, job, hfind, _, ⟨hvalid, rfl⟩, _, -, _, -, state, hstate, _, hquota,
    h⟩ := h
  obtain ⟨hretains, hcoherent⟩ := beginClaim_retains hc hbegin
  exact ⟨reaped, hretains, hcoherent, Or.inr ⟨worker, job, state,
    claimJobInTransaction_granted (mem_of_find? hfind) hvalid hstate hquota h⟩⟩

end Claims

theorem Claimed.requests {platform : Platform} {options : WorkerProtocolOptions}
    {inputs : ClaimInputs} {db db' : Database} (h : Claimed platform options inputs db db') :
    db.transitionRequests <+: db'.transitionRequests := by
  obtain ⟨reaped, hretains, -, rfl | ⟨_, _, _, hgranted⟩⟩ := h
  · exact hretains.requests
  · rw [hgranted.granted]
    exact hretains.requests

/-! ### Every call -/

/-- The generated values of a call that claims. -/
def Op.claims : Op → Option ClaimInputs
  | .claim _ _ inputs | .claimSpecific _ _ _ inputs => some inputs
  | _ => none

variable (platform : Platform) (options : WorkerProtocolOptions)

theorem retains_step {db : Database} (hc : Coherent (view db)) {op : Op} (hop : op.claims = none) :
    Retains db (step platform options db op) := by
  cases op with
  | claim | claimSpecific => cases hop
  | savePlan plan =>
    refine .commit fun _ db' h => ?_
    obtain ⟨-, ⟨-, rfl⟩ | ⟨_, -, -, -, rfl⟩⟩ := savePlan_spec h
    · exact .of_same rfl rfl rfl
    · exact .of_same rfl rfl rfl
  | saveCatalogue => exact .of_same rfl rfl rfl
  | dispatchManual => exact .commit fun _ _ h => dispatchManual_retains h
  | tick input ids crash => exact tick_retains platform input ids crash db
  | getScheduleState planId now => exact retains_of_onlyState (getState_onlyState platform planId now db)
  | cancel => exact .commit fun _ _ h => cancel_retains hc h
  | createWorker =>
    refine .commit fun _ db' h => ?_
    simp only [create, bind_eq_ok, pure_eq_ok, Prod.mk.injEq] at h
    obtain ⟨_, -, _, -, _, -, -, rfl⟩ := h
    exact .of_same rfl rfl rfl
  | updateWorker => exact .commit fun _ _ h => update_retains hc h
  | rotateCredential =>
    refine .commit fun _ db' h => ?_
    simp only [rotateCredential, bind_eq_ok, pure_eq_ok, Prod.mk.injEq] at h
    obtain ⟨_, -, -, rfl⟩ := h
    exact .of_same rfl rfl rfl
  | heartbeat =>
    refine .commit fun _ db' h => ?_
    simp only [heartbeat, bind_eq_ok, pure_eq_ok, Prod.mk.injEq] at h
    obtain ⟨_, -, _, -, _, -, _, -, _, -, -, rfl⟩ := h
    exact .of_same rfl rfl rfl
  | renewLease => exact renewLease_retains platform options _ _ _ _ _ _ hc
  | releaseLease => exact .commit fun _ _ h => releaseLease_retains hc h
  | reapExpired => exact .commit fun _ _ h => reapExpired_retains hc h
  | start =>
    refine .commit fun _ db' h => ?_
    simp only [start, bind_eq_ok] at h
    obtain ⟨_, -, _, -, h⟩ := h
    exact replayOr_retains (startInTransaction_records hc) h
  | markUploading | markVerifying =>
    refine .commit fun _ db' h => ?_
    simp only [markUploading, markVerifying, transition, bind_eq_ok] at h
    obtain ⟨_, -, h⟩ := h
    exact replayOr_retains (stageInTransaction_records hc) h
  | complete =>
    refine .commit fun _ db' h => ?_
    simp only [complete, bind_eq_ok] at h
    obtain ⟨_, -, _, -, h⟩ := h
    exact replayOr_retains (terminalInTransaction_records hc) h
  | fail =>
    refine .commit fun _ db' h => ?_
    simp only [fail, bind_eq_ok] at h
    obtain ⟨_, -, h⟩ := h
    refine replayOr_retains (fun h => ?_) h
    simp only [bind_eq_ok] at h
    obtain ⟨_, -, h⟩ := h
    exact terminalInTransaction_records hc h
  | reconcileExpired => exact .commit fun _ _ h => reconcileExpired_retains hc h

theorem claimed_step {db : Database} (hc : Coherent (view db)) {op : Op} {inputs : ClaimInputs}
    (hop : op.claims = some inputs) :
    Claimed platform options inputs db (step platform options db op) := by
  have hrefl : Claimed platform options inputs db db := ⟨db, .refl db, hc, Or.inl rfl⟩
  cases op with
  | claim workerId credential inputs' =>
    obtain rfl : inputs' = inputs := Option.some.inj hop
    exact commit_rel (R := fun _ s' => Claimed platform options inputs' db s') hrefl
      fun _ _ h => claim_claimed hc h
  | claimSpecific workerId credential jobId inputs' =>
    obtain rfl : inputs' = inputs := Option.some.inj hop
    exact commit_rel (R := fun _ s' => Claimed platform options inputs' db s') hrefl
      fun _ _ h => claimSpecific_claimed hc h
  | _ => cases hop

/-- Transition requests are only ever added. -/
theorem requests_runFrom {db : Database} (hc : Coherent (view db)) (ops : List Op) :
    db.transitionRequests <+:
      ((machine platform options).runFrom db ops).transitionRequests := by
  induction ops generalizing db with
  | nil => exact List.prefix_refl _
  | cons op ops ih =>
    have hsteps := steps_of_step platform options hc op
    refine List.IsPrefix.trans ?_ (ih (Protocol.coherent_of_steps hc hsteps))
    cases hop : op.claims with
    | none => exact (retains_step platform options hc hop).requests
    | some inputs => exact (claimed_step platform options hc hop).requests

end MarkorbitKnowledge.Execution
