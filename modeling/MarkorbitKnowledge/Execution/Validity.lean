import MarkorbitKnowledge.Execution.Retention

/-!
# What the execution tables hold

The repositories parse every row they read and refuse a call on one that no longer satisfies its
contract.  `Valid` says that this never happens to runs and jobs: every document a call stores was
checked before it was written.  It also bounds the leases: however often a lease is renewed, it
expires within the lifetime the options of the registry allow.

One lemma for each call, then `valid_run`.
-/

namespace MarkorbitKnowledge.Execution

open Contracts Fallible Transitions
open Protocol (Coherent)
open Tables (mem_of_find?)

/-! ### Valid tables -/

/-- A lease expires within the lifetime the options allow. -/
def WithinLifetime (options : WorkerProtocolOptions) (lease : JobLease) : Prop :=
  lease.expiresAt ≤ lease.acquiredAt + options.maxLeaseLifetimeMs

/-- The runs and jobs satisfy their contracts, and the leases are within their lifetime. -/
structure Valid (options : WorkerProtocolOptions) (db : Database) : Prop where
  runs : ∀ run ∈ db.runs, isCollectionRun run = true
  jobs : ∀ job ∈ db.jobs, isJob job = true
  leases : ∀ row ∈ db.leases, WithinLifetime options row.lease

section Calls

variable {options : WorkerProtocolOptions}

theorem valid_empty : Valid options Database.empty where
  runs _ h := absurd h List.not_mem_nil
  jobs _ h := absurd h List.not_mem_nil
  leases _ h := absurd h List.not_mem_nil

namespace Valid

variable {db db' : Database}

/-- Tables that are as they were are valid. -/
theorem of_same (h : Valid options db) (hruns : db'.runs = db.runs) (hjobs : db'.jobs = db.jobs)
    (hleases : db'.leases = db.leases) : Valid options db' :=
  ⟨hruns ▸ h.runs, hjobs ▸ h.jobs, hleases ▸ h.leases⟩

theorem commit {α : Type} (h : Valid options db)
    {body : Database → Except RegistryError (α × Database)}
    (hbody : ∀ a db', body db = .ok (a, db') → Valid options db') :
    Valid options (commit body db).2 :=
  commit_rel (R := fun _ s' => Valid options s') h hbody

/-! ### The tables -/

theorem updateJob {job : Job} {status : JobStatus} {timestamp : Timestamp} (h : Valid options db)
    (hupdate : updateJob db job status timestamp = .ok db') : Valid options db' := by
  simp only [Execution.updateJob, bind_eq_ok, require_eq_ok, pure_eq_ok] at hupdate
  obtain ⟨_, hjob, rfl⟩ := hupdate
  exact { h with jobs := Tables.forall_mem_update h.jobs hjob }

theorem updateRun {run : CollectionRun} {status : CollectionRunStatus} {timestamp : Timestamp}
    (h : Valid options db) (hupdate : updateRun db run status timestamp = .ok db') :
    Valid options db' := by
  simp only [Execution.updateRun, bind_eq_ok, require_eq_ok, pure_eq_ok] at hupdate
  obtain ⟨_, hrun, rfl⟩ := hupdate
  exact { h with runs := Tables.forall_mem_update h.runs hrun }

theorem insertJob {job : Job} (h : Valid options db) (hjob : isJob job = true)
    (hinsert : insertJob db job = .ok db') : Valid options db' := by
  simp only [Execution.insertJob, bind_eq_ok, require_eq_ok, pure_eq_ok] at hinsert
  obtain ⟨_, -, _, -, rfl⟩ := hinsert
  refine { h with jobs := fun stored hstored => ?_ }
  rcases List.mem_append.mp hstored with hstored | hstored
  · exact h.jobs stored hstored
  · exact List.mem_singleton.mp hstored ▸ hjob

theorem insertRun {run : CollectionRun} (h : Valid options db) (hrun : isCollectionRun run = true)
    (hinsert : insertRun db run = .ok db') : Valid options db' := by
  simp only [Execution.insertRun, bind_eq_ok, require_eq_ok, pure_eq_ok] at hinsert
  obtain ⟨_, -, _, -, rfl⟩ := hinsert
  refine { h with runs := fun stored hstored => ?_ }
  rcases List.mem_append.mp hstored with hstored | hstored
  · exact h.runs stored hstored
  · exact List.mem_singleton.mp hstored ▸ hrun

/-- A lease is rewritten within its lifetime. -/
theorem updateLease {row : LeaseRow} {lease : JobLease} (h : Valid options db)
    (hlease : WithinLifetime options lease) : Valid options (updateLeaseDocument db row lease) :=
  { h with leases := Tables.forall_mem_update h.leases hlease }

theorem insertDispatch {run : CollectionRun} {job : Job} (h : Valid options db)
    (hvalid : isCollectionRun run = true ∧ isJob job = true)
    (hinsert : insertDispatch db run job = .ok db') : Valid options db' := by
  simp only [Execution.insertDispatch, bind_eq_ok] at hinsert
  obtain ⟨_, hrun, hjob⟩ := hinsert
  exact (h.insertRun hvalid.1 hrun).insertJob hvalid.2 hjob

/-! ### Dispatches and cancellations -/

theorem dispatchManual {input : ManualDispatchInput} {now : Timestamp} {runId jobId : Id}
    {result : ManualDispatchResult} (h : Valid options db)
    (hdispatch : dispatchManual input now runId jobId db = .ok (result, db')) :
    Valid options db' := by
  simp only [Execution.dispatchManual, bind_eq_ok] at hdispatch
  obtain ⟨_, -, _, -, _, -, _, -, _, -, hdispatch⟩ := hdispatch
  split at hdispatch
  · simp only [bind_eq_ok, pure_eq_ok, Prod.mk.injEq] at hdispatch
    obtain ⟨_, -, -, rfl⟩ := hdispatch
    exact h
  · simp only [bind_eq_ok, require_eq_ok, pure_eq_ok, Prod.mk.injEq] at hdispatch
    obtain ⟨_, -, _, hvalid, _, hinsert, -, rfl⟩ := hdispatch
    exact h.insertDispatch hvalid hinsert

theorem of_onlyState {planId : Id} (h : Valid options db) (hstate : Scheduler.OnlyState planId db db') :
    Valid options db' := by
  rw [hstate.rest]
  exact h.of_same rfl rfl rfl

theorem tick {platform : Platform} (input : Scheduler.TickInput) (ids : Nat → Id × Id)
    (crash : Option (Nat × Scheduler.CommitPoint)) (h : Valid options db) :
    Valid options (Scheduler.tick platform input ids crash db).2 := by
  refine Scheduler.tick_preserves (P := Valid options) h fun _ _ current next hcurrent hexamined => ?_
  obtain ⟨mid, mid', hbefore, hmid, hafter⟩ := hexamined.commits
  refine Valid.of_onlyState ?_ hafter
  rcases hmid with rfl | ⟨_, -, -, hdispatched⟩
  · exact hcurrent.of_onlyState hbefore
  · obtain ⟨_, _, _, _, _, _, hvalid, hinsert⟩ := hdispatched.inserted
    exact (hcurrent.of_onlyState hbefore).insertDispatch hvalid hinsert

theorem cancel {id : Id} {input : CancelRunInput} {now : Timestamp} {record : ExecutionRunRecord}
    (h : Valid options db) (hcancel : cancel id input now db = .ok (record, db')) :
    Valid options db' := by
  simp only [Execution.cancel, bind_eq_ok, require_eq_ok, pure_eq_ok, Prod.mk.injEq] at hcancel
  obtain ⟨_, -, _, -, _, -, _, -, _, -, jobs, -, _, ⟨hrun, hjobs⟩, _, -, _, hfold, -, rfl⟩ := hcancel
  refine foldlM_preserves (P := Valid options) (fun current job next hjob hcurrent hstep => ?_)
    (s := { db with runs := Tables.update db.runs _ })
    { h with runs := Tables.forall_mem_update h.runs hrun } hfold
  simp only [cancelPendingJob, bind_eq_ok, require_eq_ok, pure_eq_ok] at hstep
  obtain ⟨_, -, rfl⟩ := hstep
  have hvalid : isJob job = true := List.all_eq_true.mp hjobs job hjob
  exact { hcurrent with jobs := Tables.forall_mem_update hcurrent.jobs hvalid }

/-! ### Leases -/

/-- A lease that ends keeps the times it ran between. -/
theorem endLease {row : LeaseRow} {status : JobLeaseStatus} {timestamp : Timestamp}
    {reason : String} (h : Valid options db) (hrow : row ∈ db.leases)
    (hend : endLease db row status timestamp reason = .ok db') : Valid options db' := by
  simp only [Execution.endLease, closeLease, bind_eq_ok, require_eq_ok, pure_eq_ok] at hend
  obtain ⟨_, ⟨_, -, rfl⟩, hreturn⟩ := hend
  have hclosed : Valid options (updateLeaseDocument db row
      (closedLease row.lease status timestamp (sliceText reason 500))) :=
    h.updateLease (h.leases row hrow)
  unfold returnJobToPending at hreturn
  split at hreturn
  · rw [pure_eq_ok] at hreturn
    exact hreturn ▸ hclosed
  · simp only [bind_eq_ok] at hreturn
    obtain ⟨job, -, hreturn⟩ := hreturn
    split at hreturn
    · simp only [jobWithStatus, bind_eq_ok, require_eq_ok, pure_eq_ok] at hreturn
      obtain ⟨_, ⟨_, hjob, rfl⟩, rfl⟩ := hreturn
      exact { hclosed with jobs := Tables.forall_mem_update hclosed.jobs hjob }
    · rw [pure_eq_ok] at hreturn
      exact hreturn ▸ hclosed

theorem closeExecutionLease {row : LeaseRow} {status : JobLeaseStatus} {reason : String}
    {timestamp : Timestamp} (h : Valid options db) (hrow : WithinLifetime options row.lease)
    (hclose : closeExecutionLease db row status reason timestamp = .ok db') :
    Valid options db' := by
  simp only [Execution.closeExecutionLease, bind_eq_ok, require_eq_ok, pure_eq_ok] at hclose
  obtain ⟨_, -, rfl⟩ := hclose
  exact h.updateLease hrow

theorem reapExpired {now : Timestamp} {count : Nat} (h : Valid options db)
    (hc : Coherent (view db)) (hreap : reapExpired now db = .ok (count, db')) : Valid options db' :=
  reapExpired_rule (P := Valid options)
    (fun _ _ _ _ hrow _ hcurrent hend => hcurrent.endLease hrow hend) hc h hreap

theorem releaseLease {platform : Platform} {workerId : Id} {credential : String} {leaseId : Id}
    {leaseToken : String} {reason : Option String} {now : Timestamp} {u : Unit}
    (h : Valid options db)
    (hrelease : releaseLease platform workerId credential leaseId leaseToken reason now db =
      .ok (u, db')) : Valid options db' := by
  simp only [Execution.releaseLease, bind_eq_ok, pure_eq_ok, Prod.mk.injEq] at hrelease
  obtain ⟨_, -, row, howned, _, hend, -, rfl⟩ := hrelease
  exact h.endLease (requireOwnedActiveLease_spec howned).1 hend

/-- A renewal stops at the hard limit. -/
theorem renewLeaseInner {platform : Platform} {workerId : Id} {credential : String} {leaseId : Id}
    {leaseToken : String} {now : Timestamp} {lease : JobLease} (h : Valid options db)
    (hrenew : renewLeaseInner platform options workerId credential leaseId leaseToken now db =
      .ok (lease, db')) : Valid options db' := by
  simp only [Execution.renewLeaseInner, bind_eq_ok] at hrenew
  obtain ⟨_, -, row, -, hrenew⟩ := hrenew
  split at hrenew
  · simp only [bind_eq_ok, throwExpired_ne_ok, false_and, exists_false] at hrenew
  · split at hrenew
    · simp only [bind_eq_ok, throwExpired_ne_ok, false_and, exists_false] at hrenew
    · simp only [pure_eq_ok, Prod.mk.injEq] at hrenew
      obtain ⟨-, rfl⟩ := hrenew
      apply h.updateLease
      exact min_le_right _ _

theorem renewLease {platform : Platform} (workerId : Id) (credential : String) (leaseId : Id)
    (leaseToken : String) (now reapNow : Timestamp) (h : Valid options db)
    (hc : Coherent (view db)) :
    Valid options
      (renewLease platform options workerId credential leaseId leaseToken now reapNow db).2 := by
  unfold Execution.renewLease
  split
  · rename_i hrenew
    exact h.renewLeaseInner hrenew
  · split
    · split
      · rename_i hreap
        exact h.reapExpired hc hreap
      · exact h
    · exact h

theorem claimJobInTransaction {platform : Platform} {worker : WorkerDefinition} {job : Job}
    {inputs : ClaimInputs} {result : ClaimResult} (h : Valid options db)
    (hclaim : claimJobInTransaction platform options db worker job inputs = .ok (result, db')) :
    Valid options db' := by
  simp only [Execution.claimJobInTransaction, jobWithStatus, insertLease, bind_eq_ok, require_eq_ok,
    pure_eq_ok, Prod.mk.injEq] at hclaim
  obtain ⟨_, -, _, ⟨_, hjob, rfl⟩, _, -, _, ⟨_, -, _, -, rfl⟩, -, rfl⟩ := hclaim
  refine ⟨h.runs, Tables.forall_mem_update h.jobs hjob, fun row hrow => ?_⟩
  rcases List.mem_append.mp hrow with hrow | hrow
  · exact h.leases row hrow
  · -- The lifetime is at least the duration of a lease.
    have hduration : (options.leaseDurationMs : Int) ≤ options.maxLeaseLifetimeMs :=
      Int.ofNat_le.mpr options.lifetimeBounded
    rw [List.mem_singleton.mp hrow]
    exact Int.add_le_add_left hduration inputs.now

theorem beginClaim {platform : Platform} {workerId : Id} {credential : String}
    {inputs : ClaimInputs} {worker : WorkerDefinition} (h : Valid options db)
    (hc : Coherent (view db))
    (hbegin : beginClaim platform options workerId credential inputs db = .ok (worker, db')) :
    Valid options db' := by
  simp only [Execution.beginClaim, bind_eq_ok, pure_eq_ok, Prod.mk.injEq] at hbegin
  obtain ⟨_, -, ⟨_, _⟩, hreap, _, -, _, -, _, -, ⟨_, _⟩, -, _, -, _, -, _, -, -, rfl⟩ := hbegin
  exact h.reapExpired hc hreap

theorem claim {platform : Platform} {workerId : Id} {credential : String} {inputs : ClaimInputs}
    {result : ClaimResult} (h : Valid options db) (hc : Coherent (view db))
    (hclaim : claim platform options workerId credential inputs db = .ok (result, db')) :
    Valid options db' := by
  simp only [Execution.claim, bind_eq_ok] at hclaim
  obtain ⟨⟨_, _⟩, hbegin, _, -, _, -, hclaim⟩ := hclaim
  have hreaped := h.beginClaim hc hbegin
  split at hclaim
  · simp only [pure_eq_ok, Prod.mk.injEq] at hclaim
    exact hclaim.2 ▸ hreaped
  · exact hreaped.claimJobInTransaction hclaim

theorem claimSpecific {platform : Platform} {workerId jobId : Id} {credential : String}
    {inputs : ClaimInputs} {result : ClaimResult} (h : Valid options db) (hc : Coherent (view db))
    (hclaim : claimSpecific platform options workerId credential jobId inputs db =
      .ok (result, db')) : Valid options db' := by
  simp only [Execution.claimSpecific, bind_eq_ok] at hclaim
  obtain ⟨⟨_, _⟩, hbegin, _, -, _, -, _, -, _, -, _, -, _, -, hclaim⟩ := hclaim
  exact (h.beginClaim hc hbegin).claimJobInTransaction hclaim

theorem update {id : Id} {input : UpdateWorkerInput} {expectedUpdatedAt now : Timestamp}
    {worker : WorkerDefinition} (h : Valid options db) (hc : Coherent (view db))
    (hupdate : update id input expectedUpdatedAt now db = .ok (worker, db')) :
    Valid options db' := by
  simp only [Execution.update, bind_eq_ok] at hupdate
  obtain ⟨_, -, _, -, _, -, next, -, _, -, hupdate⟩ := hupdate
  have hworkers : Valid options { db with workers := Tables.update db.workers next } :=
    h.of_same rfl rfl rfl
  split at hupdate
  · simp only [bind_eq_ok, pure_eq_ok, Prod.mk.injEq] at hupdate
    obtain ⟨_, hrevoke, -, rfl⟩ := hupdate
    have hview : Coherent (view { db with workers := Tables.update db.workers next }) := hc
    exact revokeActiveLeasesForWorker_rule (P := Valid options)
      (fun _ _ _ _ hrow _ hcurrent hend => hcurrent.endLease hrow hend) hview hworkers hrevoke
  · simp only [bind_eq_ok, pure_eq_ok, Prod.mk.injEq] at hupdate
    obtain ⟨_, rfl, -, rfl⟩ := hupdate
    exact hworkers

/-! ### Transitions -/

/-- The rows of attempts, events and requests are not looked at here. -/
theorem insertAttempt {attempt : ExecutionAttempt} (h : Valid options db)
    (hinsert : insertAttempt db attempt = .ok db') : Valid options db' := by
  obtain ⟨-, rfl⟩ := insertAttempt_spec hinsert
  exact h.of_same rfl rfl rfl

theorem updateAttempt {attempt : ExecutionAttempt} (h : Valid options db)
    (hupdate : updateAttempt db attempt = .ok db') : Valid options db' := by
  obtain ⟨-, rfl⟩ := updateAttempt_spec hupdate
  exact h.of_same rfl rfl rfl

theorem insertEvent {event : ExecutionEvent} (h : Valid options db)
    (hinsert : insertEvent db event = .ok db') : Valid options db' := by
  obtain rfl := insertEvent_spec hinsert
  exact h.of_same rfl rfl rfl

theorem storeReplay {key : TransitionKey} {result : ExecutionTransitionResult}
    {timestamp : Timestamp} (h : Valid options db)
    (hstore : storeReplay db key result timestamp = .ok db') : Valid options db' := by
  obtain ⟨-, rfl⟩ := storeReplay_spec hstore
  exact h.of_same rfl rfl rfl

theorem startInTransaction {platform : Platform} {request : WorkerRequest}
    {executor : ExecutionExecutor} {key : TransitionKey} {now : Timestamp} {attemptId eventId : Id}
    {result : ExecutionTransitionResult} (h : Valid options db)
    (hstart : startInTransaction platform request executor key now attemptId eventId db =
      .ok (result, db')) : Valid options db' := by
  simp only [Execution.startInTransaction, bind_eq_ok, pure_eq_ok, Prod.mk.injEq] at hstart
  obtain ⟨_, -, _, -, _, -, _, -, _, -, _, -, _, hattempt, _, hevent, _, hjob, _, hrun, _, hreplay, -,
    rfl⟩ := hstart
  exact ((((h.insertAttempt hattempt).insertEvent hevent).updateJob hjob).updateRun hrun).storeReplay
    hreplay

theorem stageInTransaction {platform : Platform} {request : WorkerRequest} {stage : ExecutionStage}
    {key : TransitionKey} {now : Timestamp} {eventId : Id} {result : ExecutionTransitionResult}
    (h : Valid options db)
    (hstage : stageInTransaction platform request stage key now eventId db = .ok (result, db')) :
    Valid options db' := by
  simp only [Execution.stageInTransaction, bind_eq_ok, pure_eq_ok, Prod.mk.injEq] at hstage
  obtain ⟨_, -, _, -, _, -, _, -, _, hupdate, _, hevent, _, hjob, _, hreplay, -, rfl⟩ := hstage
  exact (((h.updateAttempt hupdate).insertEvent hevent).updateJob hjob).storeReplay hreplay

/-- The end of an attempt rewrites the job and the run, and may insert the job of a retry. -/
theorem settleJob {platform : Platform} {job : Job} {run : CollectionRun} {terminal : Terminal}
    {now : Timestamp} {retryJobId : Id} {reason : String} (h : Valid options db)
    (hsettle : settleJob platform db job run terminal now retryJobId = .ok (reason, db')) :
    Valid options db' := by
  cases terminal with
  | receipt =>
    simp only [Execution.settleJob, bind_eq_ok, pure_eq_ok, Prod.mk.injEq] at hsettle
    obtain ⟨_, hjob, _, hrun, -, rfl⟩ := hsettle
    exact (h.updateJob hjob).updateRun hrun
  | failure =>
    simp only [Execution.settleJob] at hsettle
    split at hsettle
    · simp only [insertRetryJob, bind_eq_ok, require_eq_ok, pure_eq_ok, Prod.mk.injEq] at hsettle
      obtain ⟨_, hjob, _, ⟨_, -, _, -, _, hvalid, hinsert⟩, _, hrun, -, rfl⟩ := hsettle
      exact ((h.updateJob hjob).insertJob hvalid hinsert).updateRun hrun
    · split at hsettle <;> simp only [bind_eq_ok, pure_eq_ok, Prod.mk.injEq] at hsettle <;>
        obtain ⟨_, hjob, _, hrun, -, rfl⟩ := hsettle <;> exact (h.updateJob hjob).updateRun hrun

theorem terminalInTransaction {platform : Platform} {request : WorkerRequest} {terminal : Terminal}
    {key : TransitionKey} {now : Timestamp} {ids : TerminalIds} {result : ExecutionTransitionResult}
    (h : Valid options db)
    (hterminal : terminalInTransaction platform request terminal key now ids db =
      .ok (result, db')) : Valid options db' := by
  simp only [Execution.terminalInTransaction, bind_eq_ok, pure_eq_ok, Prod.mk.injEq] at hterminal
  obtain ⟨_, hcontext, _, -, _, -, _, -, _, -, _, hupdate, _, hevent, ⟨_, _⟩, hsettle, _, hclose, _,
    hreplay, -, rfl⟩ := hterminal
  have hlease := h.leases _ (requireActiveContext_spec hcontext).1.lease
  have hsettled := ((h.updateAttempt hupdate).insertEvent hevent).settleJob hsettle
  exact (hsettled.closeExecutionLease hlease hclose).storeReplay hreplay

theorem replayOr {platform : Platform} {request : WorkerRequest} {key : TransitionKey}
    {body : Database → Except RegistryError (ExecutionTransitionResult × Database)}
    {result : ExecutionTransitionResult} (h : Valid options db)
    (hbody : body db = .ok (result, db') → Valid options db')
    (hreplay : replayOr platform request key body db = .ok (result, db')) : Valid options db' := by
  simp only [Execution.replayOr, bind_eq_ok] at hreplay
  obtain ⟨_, -, replay, -, hreplay⟩ := hreplay
  split at hreplay
  · simp only [pure_eq_ok, Prod.mk.injEq] at hreplay
    exact hreplay.2 ▸ h
  · exact hbody hreplay

theorem abandon {platform : Platform} {now : Timestamp} {row : AbandonedRow} {eventId : Id}
    (h : Valid options db) (hstored : row.Stored db)
    (habandon : abandon platform now db (row, eventId) = .ok db') : Valid options db' := by
  simp only [Execution.abandon, bind_eq_ok, parseLease_eq_ok] at habandon
  obtain ⟨_, -, _, ⟨-, rfl⟩, _, -, _, -, _, -, _, hattempt, _, hevent, _, hjob, _, hrun, habandon⟩ :=
    habandon
  have hfailed := (((h.updateAttempt hattempt).insertEvent hevent).updateJob hjob).updateRun hrun
  split at habandon
  · exact hfailed.closeExecutionLease (h.leases _ hstored.lease) habandon
  · rw [pure_eq_ok] at habandon
    exact habandon ▸ hfailed

theorem reconcileExpired {platform : Platform} {now : Timestamp} {eventId : Nat → Id} {count : Nat}
    (h : Valid options db) (hc : Coherent (view db))
    (hreconcile : reconcileExpired platform now eventId db = .ok (count, db')) :
    Valid options db' :=
  reconcileExpired_rule (P := Valid options)
    (fun _ _ _ _ _ _ hstored hcurrent habandon => hcurrent.abandon hstored habandon) hc h hreconcile

end Valid

end Calls

/-! ### Every call -/

variable (platform : Platform) (options : WorkerProtocolOptions)

theorem valid_step {db : Database} (hc : Coherent (view db)) (h : Valid options db) (op : Op) :
    Valid options (step platform options db op) := by
  cases op with
  | savePlan plan =>
    refine h.commit fun _ db' hsave => ?_
    obtain ⟨-, ⟨-, rfl⟩ | ⟨_, -, -, -, rfl⟩⟩ := savePlan_spec hsave
    · exact h.of_same rfl rfl rfl
    · exact h.of_same rfl rfl rfl
  | saveCatalogue => exact h.of_same rfl rfl rfl
  | dispatchManual => exact h.commit fun _ _ hdispatch => h.dispatchManual hdispatch
  | tick input ids crash => exact h.tick input ids crash
  | getScheduleState planId now => exact h.of_onlyState (getState_onlyState platform planId now db)
  | cancel => exact h.commit fun _ _ hcancel => h.cancel hcancel
  | createWorker =>
    refine h.commit fun _ db' hcreate => ?_
    simp only [create, bind_eq_ok, pure_eq_ok, Prod.mk.injEq] at hcreate
    obtain ⟨_, -, _, -, _, -, -, rfl⟩ := hcreate
    exact h.of_same rfl rfl rfl
  | updateWorker => exact h.commit fun _ _ hupdate => h.update hc hupdate
  | rotateCredential =>
    refine h.commit fun _ db' hrotate => ?_
    simp only [rotateCredential, bind_eq_ok, pure_eq_ok, Prod.mk.injEq] at hrotate
    obtain ⟨_, -, -, rfl⟩ := hrotate
    exact h.of_same rfl rfl rfl
  | heartbeat =>
    refine h.commit fun _ db' hheartbeat => ?_
    simp only [heartbeat, bind_eq_ok, pure_eq_ok, Prod.mk.injEq] at hheartbeat
    obtain ⟨_, -, _, -, _, -, _, -, _, -, -, rfl⟩ := hheartbeat
    exact h.of_same rfl rfl rfl
  | claim => exact h.commit fun _ _ hclaim => h.claim hc hclaim
  | claimSpecific => exact h.commit fun _ _ hclaim => h.claimSpecific hc hclaim
  | renewLease => exact h.renewLease _ _ _ _ _ _ hc
  | releaseLease => exact h.commit fun _ _ hrelease => h.releaseLease hrelease
  | reapExpired => exact h.commit fun _ _ hreap => h.reapExpired hc hreap
  | start =>
    refine h.commit fun _ db' hstart => ?_
    simp only [start, bind_eq_ok] at hstart
    obtain ⟨_, -, _, -, hstart⟩ := hstart
    exact h.replayOr h.startInTransaction hstart
  | markUploading | markVerifying =>
    refine h.commit fun _ db' hstage => ?_
    simp only [markUploading, markVerifying, transition, bind_eq_ok] at hstage
    obtain ⟨_, -, hstage⟩ := hstage
    exact h.replayOr h.stageInTransaction hstage
  | complete =>
    refine h.commit fun _ db' hcomplete => ?_
    simp only [complete, bind_eq_ok] at hcomplete
    obtain ⟨_, -, _, -, hcomplete⟩ := hcomplete
    exact h.replayOr h.terminalInTransaction hcomplete
  | fail =>
    refine h.commit fun _ db' hfail => ?_
    simp only [fail, bind_eq_ok] at hfail
    obtain ⟨_, -, hfail⟩ := hfail
    refine h.replayOr (fun hbody => ?_) hfail
    simp only [bind_eq_ok] at hbody
    obtain ⟨_, -, hterminal⟩ := hbody
    exact h.terminalInTransaction hterminal
  | reconcileExpired => exact h.commit fun _ _ hreconcile => h.reconcileExpired hc hreconcile

theorem coherent_valid_runFrom (db : Database) (hc : Coherent (view db)) (h : Valid options db)
    (ops : List Op) :
    Coherent (view ((machine platform options).runFrom db ops)) ∧
      Valid options ((machine platform options).runFrom db ops) :=
  Machine.runFrom_invariant
    (P := fun current => Coherent (view current) ∧ Valid options current)
    (fun _ op hcurrent =>
      ⟨Protocol.coherent_of_steps hcurrent.1 (steps_of_step platform options hcurrent.1 op),
        valid_step platform options hcurrent.1 hcurrent.2 op⟩)
    ⟨hc, h⟩ ops

theorem valid_run (ops : List Op) : Valid options ((machine platform options).run ops) :=
  (coherent_valid_runFrom platform options .empty Protocol.coherent_empty valid_empty ops).2

end MarkorbitKnowledge.Execution
