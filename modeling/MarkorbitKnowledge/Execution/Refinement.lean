import MarkorbitKnowledge.Execution.View

/-!
# The ledger and the worker registry refine the execution protocol

Every call of the two repositories that succeeds on a coherent database is a sequence of protocol
moves on its view: one move for a dispatch, a cancellation or a claim, one for each lease a reap or a
revocation closes, and none for what only touches workers.  The loops that close leases go over rows
that were read before the first of them was closed; what makes that harmless is that the rows have
distinct keys, so no iteration touches a row that is still to come.
-/

namespace MarkorbitKnowledge.Execution

open Contracts Fallible Transitions
open Protocol (RunState JobState LeaseState AttemptState Move Coherent coherent_of_steps)
open Tables (key KeysUnique find? mem_of_find? key_of_find?)

/-! ### The ledger -/

/-- The transaction of a dispatch, manual or scheduled, is one move. -/
theorem insertDispatch_move {db db' : Database} {run : CollectionRun} {job : Job}
    (h : insertDispatch db run job = .ok db') (hrun : run.status = .pending)
    (hjob : job.status = .pending) (hof : job.runId = run.id) (hfirst : job.attempt = 1)
    (hmax : isJob job = true) : Move (view db) (view db') := by
  simp only [insertDispatch, insertRun, insertJob, bind_eq_ok, require_eq_ok, pure_eq_ok] at h
  obtain ⟨_, ⟨_, hruns, _, _, rfl⟩, _, hjobs, _, _, rfl⟩ := h
  have hmove := @Move.dispatch (view db) (viewRun run) (viewJob job)
    (List.forall_mem_map.mpr hruns) (List.forall_mem_map.mpr hjobs) hrun hjob hof hfirst
    (hfirst ▸ (attempt_bounds_of_isJob hmax).2)
  simpa [view] using hmove

theorem dispatchManual_spec {input : ManualDispatchInput} {now : Timestamp} {runId jobId : Id}
    {db db' : Database} {result : ManualDispatchResult}
    (h : dispatchManual input now runId jobId db = .ok (result, db')) :
    db' = db ∨ ∃ plan source connector trigger jobType,
      let run := newRun plan source connector trigger input.extensions runId now
      let job := newJob run jobType jobId now
      trigger.type = .manual ∧ isJob job = true ∧ insertDispatch db run job = .ok db' := by
  simp only [dispatchManual, bind_eq_ok] at h
  obtain ⟨plan, -, source, -, connector, -, jobType, -, idempotencyKey, -, h⟩ := h
  split at h
  · -- A replayed dispatch writes nothing.
    simp only [bind_eq_ok, pure_eq_ok, Prod.mk.injEq] at h
    obtain ⟨_, -, -, rfl⟩ := h
    exact Or.inl rfl
  · simp only [bind_eq_ok, require_eq_ok, pure_eq_ok, Prod.mk.injEq] at h
    obtain ⟨actor, -, _, ⟨-, hjob⟩, _, hinsert, -, rfl⟩ := h
    exact Or.inr ⟨plan, source, connector, _, jobType, rfl, hjob, hinsert⟩

theorem dispatchManual_steps {input : ManualDispatchInput} {now : Timestamp} {runId jobId : Id}
    {db db' : Database} {result : ManualDispatchResult}
    (h : dispatchManual input now runId jobId db = .ok (result, db')) :
    Steps Move (view db) (view db') := by
  rcases dispatchManual_spec h with rfl | ⟨plan, source, connector, trigger, jobType, -, hjob, hinsert⟩
  · exact .refl
  · exact .single (insertDispatch_move hinsert rfl rfl rfl rfl hjob)

/-- What `jobsForRun` returns are the stored jobs of the run, in some order. -/
theorem jobsForRun_perm {db : Database} {runId : Id} {jobs : List Job}
    (h : jobsForRun db runId = .ok jobs) :
    jobs.Perm (db.jobs.filter fun job => decide (job.runId = runId)) := by
  rw [jobsForRun, mapM_guarded (fun _ _ => parseJob_eq_ok)] at h
  obtain ⟨-, rfl⟩ := h
  rw [List.map_id']
  exact List.perm_insertionSort _ _

theorem foldlM_cancelPendingJob {us : List Job} {db db' : Database}
    (h : us.foldlM cancelPendingJob db = .ok db') :
    db' = { db with jobs := us.foldl Tables.update db.jobs } := by
  induction us generalizing db with
  | nil =>
    rw [List.foldlM_nil, pure_eq_ok] at h
    exact h.symm
  | cons u us ih =>
    simp only [List.foldlM_cons, cancelPendingJob, bind_eq_ok, require_eq_ok, pure_eq_ok] at h
    obtain ⟨_, ⟨_, -, rfl⟩, h⟩ := h
    exact ih h

/-- Cancelling the jobs of a run one by one cancels the jobs of the run. -/
theorem cancelledJobs {db : Database} (hkeys : KeysUnique db.jobs) {runId : Id} {jobs : List Job}
    (hjobs : jobsForRun db runId = .ok jobs) (now : Timestamp) (reason : Option String) :
    (jobs.map fun job => cancelledJob job now reason).foldl Tables.update db.jobs =
      db.jobs.map fun job => if job.runId = runId then cancelledJob job now reason else job := by
  have hperm := jobsForRun_perm hjobs
  have hunique : KeysUnique (jobs.map fun job => cancelledJob job now reason) := by
    rw [Tables.keysUnique_map (fun job => cancelledJob job now reason) fun _ => rfl]
    exact (hperm.map key).nodup_iff.mpr (hkeys.filter _)
  rw [Tables.foldl_update hunique]
  refine List.map_congr_left fun x hx => ?_
  by_cases hrun : x.runId = runId
  · have hmem : x ∈ jobs := hperm.mem_iff.mpr (by simp [hx, hrun])
    have hfind := hunique.find?_of_mem (List.mem_map_of_mem hmem)
    have hkey : key (cancelledJob x now reason) = key x := rfl
    rw [hkey] at hfind
    rw [hfind, Option.getD_some, if_pos hrun]
  · have hnone : find? (jobs.map fun job => cancelledJob job now reason) (key x) = none := by
      refine Tables.find?_eq_none.mpr fun u hu hk => ?_
      obtain ⟨y, hy, rfl⟩ := List.mem_map.mp hu
      obtain ⟨hy, hyrun⟩ := List.mem_filter.mp (hperm.mem_iff.mp hy)
      have : y = x := hkeys.eq_of_key hy hx hk
      exact hrun (by simpa [this] using hyrun)
    rw [hnone, Option.getD_none, if_neg hrun]

/-- A cancellation cancels a pending run and the jobs of that run, all of them pending. -/
theorem cancel_spec {id : Id} {input : CancelRunInput} {now : Timestamp} {db db' : Database}
    {record : ExecutionRunRecord} (hkeys : KeysUnique db.jobs)
    (h : cancel id input now db = .ok (record, db')) :
    ∃ run ∈ db.runs, run.id = id ∧
      (∀ job ∈ db.jobs, job.runId = run.id → job.status = .pending) ∧
      db' =
        { db with
          runs := Tables.update db.runs (cancelledRun run now (input.reason.map trim))
          jobs := db.jobs.map fun job =>
            if job.runId = run.id then cancelledJob job now (input.reason.map trim) else job } := by
  simp only [cancel, recordFromRun, bind_eq_ok, require_eq_ok, orThrow_eq_ok, parseRun_eq_ok,
    pure_eq_ok, Prod.mk.injEq] at h
  obtain ⟨row, hrow, _, ⟨_, ⟨-, rfl⟩, jobs, hjobs, rfl⟩, _, -, _, -, _, -, jobs', hjobs', _, -, _, -,
    db'', hfold, -, rfl⟩ := h
  rw [mapM_guarded (c := fun job : Job => job.status = .pending)
    (g := fun job => cancelledJob job now (input.reason.map trim)) (by simp)] at hjobs'
  obtain ⟨hpending, rfl⟩ := hjobs'
  refine ⟨row, mem_of_find? hrow, key_of_find? hrow, fun job hjob hof => ?_, ?_⟩
  · refine hpending job ((jobsForRun_perm hjobs).mem_iff.mpr ?_)
    exact List.mem_filter.mpr ⟨hjob, decide_eq_true hof⟩
  · rw [foldlM_cancelPendingJob hfold]
    simp only [cancelledJobs hkeys hjobs]

theorem cancel_refines (id : Id) (input : CancelRunInput) (now : Timestamp) :
    RefinesQuietly (cancel id input now) := by
  intro db record db' hc h
  obtain ⟨run, hrun, -, hpending, rfl⟩ := cancel_spec (jobKeys_of_coherent hc) h
  have hall : ∀ j ∈ Protocol.jobsIn (view db).jobs run.id, j.status = .pending := by
    intro j hj
    obtain ⟨hj, hof⟩ := Protocol.mem_jobsIn.mp hj
    obtain ⟨job, hjob, rfl⟩ := List.mem_map.mp hj
    exact hpending job hjob hof
  have hmove := Move.cancel (mem_view_run hrun) hall
  refine ⟨?_, .of_same_attempts ⟨rfl, rfl, rfl, rfl, rfl⟩
    (map_runIdentity_update (runKeys_of_coherent hc) hrun rfl) (fun job hjob => ?_) rfl⟩
  · have hview : (db.jobs.map fun job =>
        if job.runId = run.id then cancelledJob job now (input.reason.map trim) else job).map viewJob =
        (db.jobs.map viewJob).map fun j =>
          if j.runId = run.id then { j with status := .cancelled } else j := by
      rw [List.map_map, List.map_map]
      refine List.map_congr_left fun job _ => ?_
      by_cases hof : job.runId = run.id <;> simp [viewJob, cancelledJob, hof]
    simp only [view, map_viewRun_update, hview]
    exact .single hmove
  · refine ⟨_, List.mem_map_of_mem hjob, ?_⟩
    split <;> exact ⟨rfl, rfl⟩

/-! ### Leases -/

/-- A lease that ends gives its job back if the job is still merely leased, and leaves the job alone
    otherwise.  The other leases are as they were. -/
theorem endLease_refined {db db' : Database} {row : LeaseRow} {status : JobLeaseStatus}
    {timestamp : Timestamp} {reason : String} (hc : Coherent (view db)) (hrow : row ∈ db.leases)
    (hactive : row.lease.status = .active) (hstatus : status ≠ .active)
    (h : endLease db row status timestamp reason = .ok db') :
    Refined .quiet db db' ∧
      ∀ other ∈ db.leases, other.lease.id ≠ row.lease.id → other ∈ db'.leases := by
  simp only [endLease, closeLease, bind_eq_ok, require_eq_ok, pure_eq_ok] at h
  obtain ⟨_, ⟨_, -, rfl⟩, h⟩ := h
  have hlease := mem_view_lease hrow
  have hothers : ∀ other ∈ db.leases, other.lease.id ≠ row.lease.id → other ∈
      Tables.update db.leases
        { row with lease := closedLease row.lease status timestamp (sliceText reason 500) } :=
    fun other hother hne => Tables.mem_update.mpr (Or.inl ⟨hother, hne⟩)
  simp only [returnJobToPending, updateLeaseDocument] at h
  split at h
  · -- A lease always has its job, so this branch of the source is not taken.
    rename_i hnone
    obtain ⟨j, hj, hid, -⟩ := hc.jobOfLease _ hlease
    obtain ⟨job, hjob, rfl⟩ := List.mem_map.mp hj
    exact absurd hid (Tables.find?_eq_none.mp hnone job hjob)
  · rename_i job hfind
    have hmem := mem_of_find? hfind
    have hjob := mem_view_job hmem
    have hid : job.id = row.lease.jobId := key_of_find? hfind
    simp only [bind_eq_ok, parseJob_eq_ok] at h
    obtain ⟨_, ⟨-, rfl⟩, h⟩ := h
    split at h
    · rename_i hleased
      simp only [jobWithStatus, bind_eq_ok, require_eq_ok, pure_eq_ok] at h
      obtain ⟨_, ⟨_, -, rfl⟩, rfl⟩ := h
      have hmove := Move.giveBack hlease (by simp [viewLease, hactive]) hjob hid.symm hleased
      refine ⟨⟨?_, .of_same_attempts ⟨rfl, rfl, rfl, rfl, rfl⟩ rfl ?_ rfl⟩, hothers⟩
      · simp only [view, map_viewJob_update, map_viewLease_update, viewLease_closed row hstatus]
        exact .single hmove
      · exact jobs_kept (jobKeys_of_coherent hc) hmem rfl rfl
    · rename_i hnotLeased
      obtain rfl : _ = db' := by simpa using h
      have hmove := Move.detach hlease fun j hj hk => by
        have : j = viewJob job := hc.jobKeys.eq_of_key hj hjob (hk.trans hid.symm)
        rw [this]
        exact hnotLeased
      refine ⟨⟨?_, .of_same_attempts ⟨rfl, rfl, rfl, rfl, rfl⟩ rfl
        (fun job hjob => ⟨job, hjob, rfl, rfl⟩) rfl⟩, hothers⟩
      simp only [view, map_viewLease_update, viewLease_closed row hstatus]
      exact .single hmove

/-- The rule for ending leases one after another, from rows read before the first of them ended: what
    the end of one stored active lease keeps, the loop keeps. -/
theorem endLeases_rule {status : JobLeaseStatus} {timestamp : Timestamp} {reason : String}
    (hstatus : status ≠ .active) {P : Database → Prop}
    (hstep : ∀ current row next, Coherent (view current) → row ∈ current.leases →
      row.lease.status = .active → P current →
      endLease current row status timestamp reason = .ok next → P next)
    {rows : List LeaseRow} {db db' : Database} (hc : Coherent (view db)) (hkeys : KeysUnique rows)
    (hrows : ∀ row ∈ rows, row ∈ db.leases ∧ row.lease.status = .active) (hdb : P db)
    (h : rows.foldlM (fun db row => endLease db row status timestamp reason) db = .ok db') :
    P db' := by
  have hrun := foldlM_preserves_rest (P := fun (rest : List LeaseRow) (current : Database) =>
    Coherent (view current) ∧ P current ∧ KeysUnique rest ∧
      ∀ row ∈ rest, row ∈ current.leases ∧ row.lease.status = .active) ?_
    ⟨hc, hdb, hkeys, hrows⟩ h
  · exact hrun.2.1
  · rintro current row rest next ⟨hcurrent, hP, hu, hrest⟩ hend
    obtain ⟨hrow, hactive⟩ := hrest row List.mem_cons_self
    obtain ⟨hrefined, hothers⟩ := endLease_refined hcurrent hrow hactive hstatus hend
    rw [KeysUnique, List.map_cons, List.nodup_cons] at hu
    refine ⟨hrefined.coherent hcurrent, hstep current row next hcurrent hrow hactive hP hend, hu.2,
      fun other hother => ?_⟩
    obtain ⟨hmem, hother'⟩ := hrest other (List.mem_cons_of_mem _ hother)
    exact ⟨hothers other hmem fun heq => hu.1 (List.mem_map.mpr ⟨other, hother, heq⟩), hother'⟩

/-- The same rule for the leases a query selects. -/
theorem endSelected_rule {status : JobLeaseStatus} {timestamp : Timestamp} {reason : String}
    (hstatus : status ≠ .active) {P : Database → Prop}
    (hstep : ∀ current row next, Coherent (view current) → row ∈ current.leases →
      row.lease.status = .active → P current →
      endLease current row status timestamp reason = .ok next → P next)
    {db db' : Database} (hc : Coherent (view db)) {p : LeaseRow → Bool}
    (hactive : ∀ row, p row = true → row.lease.status = .active) {rows sorted : List LeaseRow}
    (hsorted : sorted.Perm (db.leases.filter p)) (hparse : sorted.mapM parseLease = .ok rows)
    (hdb : P db)
    (h : rows.foldlM (fun db row => endLease db row status timestamp reason) db = .ok db') :
    P db' := by
  rw [mapM_guarded (fun _ _ => parseLease_eq_ok), List.map_id'] at hparse
  obtain ⟨-, rfl⟩ := hparse
  refine endLeases_rule hstatus hstep hc ?_ (fun row hrow => ?_) hdb h
  · exact (hsorted.map key).nodup_iff.mpr ((leaseKeys_of_coherent hc).filter _)
  · obtain ⟨hrow, hp⟩ := List.mem_filter.mp (hsorted.mem_iff.mp hrow)
    exact ⟨hrow, hactive row hp⟩

/-- Reaping keeps what the end of one lease keeps. -/
theorem reapExpired_rule {timestamp : Timestamp} {P : Database → Prop}
    (hstep : ∀ current row next, Coherent (view current) → row ∈ current.leases →
      row.lease.status = .active → P current →
      endLease current row .expired timestamp "Lease expired" = .ok next → P next)
    {db db' : Database} (hc : Coherent (view db)) (hdb : P db) {count : Nat}
    (h : reapExpired timestamp db = .ok (count, db')) : P db' := by
  simp only [reapExpired, reapExpiredInTransaction, bind_eq_ok, pure_eq_ok, Prod.mk.injEq] at h
  obtain ⟨rows, hrows, _, hfold, -, rfl⟩ := h
  refine endSelected_rule (by simp) hstep hc (fun row hp => ?_) (List.perm_insertionSort _ _) hrows
    hdb hfold
  simp only [Bool.and_eq_true, decide_eq_true_eq] at hp
  exact hp.1

/-- So does a revocation. -/
theorem revokeActiveLeasesForWorker_rule {workerId : Id} {timestamp : Timestamp} {reason : String}
    {P : Database → Prop}
    (hstep : ∀ current row next, Coherent (view current) → row ∈ current.leases →
      row.lease.status = .active → P current →
      endLease current row .revoked timestamp reason = .ok next → P next)
    {db db' : Database} (hc : Coherent (view db)) (hdb : P db)
    (h : revokeActiveLeasesForWorker db workerId timestamp reason = .ok db') : P db' := by
  simp only [revokeActiveLeasesForWorker, bind_eq_ok] at h
  obtain ⟨rows, hrows, hfold⟩ := h
  refine endSelected_rule (by simp) hstep hc (fun row hp => ?_) (List.perm_insertionSort _ _) hrows
    hdb hfold
  simp only [Bool.and_eq_true, decide_eq_true_eq] at hp
  exact hp.2

theorem reapExpired_refines (timestamp : Timestamp) : RefinesQuietly (reapExpired timestamp) := by
  intro db count db' hc h
  exact reapExpired_rule (P := Refined .quiet db)
    (fun _ _ _ hcurrent hrow hactive hrefined hend =>
      hrefined.trans (endLease_refined hcurrent hrow hactive (by simp) hend).1) hc (.refl .quiet db) h

theorem revokeActiveLeasesForWorker_refined {db db' : Database} {workerId : Id}
    {timestamp : Timestamp} {reason : String} (hc : Coherent (view db))
    (h : revokeActiveLeasesForWorker db workerId timestamp reason = .ok db') :
    Refined .quiet db db' :=
  revokeActiveLeasesForWorker_rule
    (fun _ _ _ hcurrent hrow hactive hrefined hend =>
      hrefined.trans (endLease_refined hcurrent hrow hactive (by simp) hend).1) hc (.refl .quiet db) h

/-! ### Claims, renewals and releases -/

/-- The job a claim takes is leased in one move. -/
theorem claimJobInTransaction_refined {platform : Platform} {options : WorkerProtocolOptions}
    {db db' : Database} {worker : WorkerDefinition} {job : Job} {inputs : ClaimInputs}
    {result : ClaimResult} (hc : Coherent (view db)) (hjob : job ∈ db.jobs)
    (hpending : job.status = .pending)
    (h : claimJobInTransaction platform options db worker job inputs = .ok (result, db')) :
    Refined .quiet db db' := by
  simp only [claimJobInTransaction, jobWithStatus, insertLease, bind_eq_ok, require_eq_ok,
    pure_eq_ok, Prod.mk.injEq] at h
  obtain ⟨_, -, _, ⟨_, -, rfl⟩, _, -, _, ⟨_, hfresh, _, -, rfl⟩, -, rfl⟩ := h
  let row : LeaseRow :=
    ⟨newLease options worker job inputs, platform.digestHex inputs.leaseToken⟩
  have hmove := @Move.grant (view db) (viewJob job) (viewLease row) (mem_view_job hjob) hpending
    (List.forall_mem_map.mpr hfresh) rfl rfl (by simp [row, viewLease, newLease])
  refine ⟨?_, .of_same_attempts ⟨rfl, rfl, rfl, rfl, rfl⟩ rfl ?_ rfl⟩
  · simp only [view, map_viewJob_update, List.map_append, List.map_cons, List.map_nil]
    exact .single hmove
  · exact jobs_kept (jobKeys_of_coherent hc) hjob rfl rfl

theorem beginClaim_refines (platform : Platform) (options : WorkerProtocolOptions) (workerId : Id)
    (credential : String) (inputs : ClaimInputs) :
    RefinesQuietly (beginClaim platform options workerId credential inputs) := by
  intro db worker db' hc h
  simp only [beginClaim, bind_eq_ok, pure_eq_ok, Prod.mk.injEq] at h
  obtain ⟨_, -, ⟨count, reaped⟩, hreap, _, -, _, -, _, -, ⟨_, _⟩, -, _, -, _, -, _, -, -, rfl⟩ := h
  exact reapExpired_refines inputs.now db count reaped hc hreap

theorem claim_refines (platform : Platform) (options : WorkerProtocolOptions) (workerId : Id)
    (credential : String) (inputs : ClaimInputs) :
    RefinesQuietly (claim platform options workerId credential inputs) := by
  intro db result db' hc h
  simp only [claim, bind_eq_ok] at h
  obtain ⟨⟨worker, current⟩, hbegin, candidates, hcandidates, state, -, h⟩ := h
  have hrefined := beginClaim_refines platform options workerId credential inputs db worker current
    hc hbegin
  split at h
  · simp only [pure_eq_ok, Prod.mk.injEq] at h
    obtain ⟨-, rfl⟩ := h
    exact hrefined
  · rename_i job hfind
    rw [mapM_guarded (fun _ _ => parseJob_eq_ok), List.map_id'] at hcandidates
    obtain ⟨-, rfl⟩ := hcandidates
    have hmem := List.mem_of_mem_take (List.mem_of_find?_eq_some hfind)
    simp only [List.mem_insertionSort, List.mem_filter, Bool.and_eq_true, decide_eq_true_eq] at hmem
    exact hrefined.trans
      (claimJobInTransaction_refined (hrefined.coherent hc) hmem.1 hmem.2.1 h)

theorem claimSpecific_refines (platform : Platform) (options : WorkerProtocolOptions) (workerId : Id)
    (credential : String) (jobId : Id) (inputs : ClaimInputs) :
    RefinesQuietly (claimSpecific platform options workerId credential jobId inputs) := by
  intro db result db' hc h
  simp only [claimSpecific, bind_eq_ok, require_eq_ok, orThrow_eq_ok, parseJob_eq_ok] at h
  obtain ⟨⟨worker, current⟩, hbegin, job, hfind, _, ⟨-, rfl⟩, _, ⟨hpending, -⟩, _, -, state, -, _, -,
    h⟩ := h
  have hrefined := beginClaim_refines platform options workerId credential inputs db worker current
    hc hbegin
  exact hrefined.trans
    (claimJobInTransaction_refined (hrefined.coherent hc) (mem_of_find? hfind) hpending h)

/-- The lease a worker proved to own is stored and active. -/
theorem requireOwnedActiveLease_spec {platform : Platform} {db : Database} {workerId leaseId : Id}
    {leaseToken : String} {row : LeaseRow}
    (h : requireOwnedActiveLease platform db workerId leaseId leaseToken = .ok row) :
    row ∈ db.leases ∧ row.lease.id = leaseId ∧ row.lease.status = .active := by
  simp only [requireOwnedActiveLease, bind_eq_ok, require_eq_ok, orThrow_eq_ok, parseLease_eq_ok,
    pure_eq_ok] at h
  obtain ⟨row, hfind, _, ⟨-, rfl⟩, _, -, _, -, _, hactive, rfl⟩ := h
  exact ⟨mem_of_find? hfind, key_of_find? hfind, hactive⟩

theorem releaseLease_refines (platform : Platform) (workerId : Id) (credential : String)
    (leaseId : Id) (leaseToken : String) (reason : Option String) (now : Timestamp) :
    RefinesQuietly (releaseLease platform workerId credential leaseId leaseToken reason now) := by
  intro db _ db' hc h
  simp only [releaseLease, bind_eq_ok, pure_eq_ok, Prod.mk.injEq] at h
  obtain ⟨_, -, row, howned, _, hend, -, rfl⟩ := h
  obtain ⟨hrow, -, hactive⟩ := requireOwnedActiveLease_spec howned
  exact (endLease_refined hc hrow hactive (by simp) hend).1

/-- A renewal moves the expiry of the lease, which the protocol does not see. -/
theorem renewLeaseInner_refines (platform : Platform) (options : WorkerProtocolOptions)
    (workerId : Id) (credential : String) (leaseId : Id) (leaseToken : String) (now : Timestamp) :
    RefinesQuietly (renewLeaseInner platform options workerId credential leaseId leaseToken now) := by
  intro db lease db' hc h
  simp only [renewLeaseInner, bind_eq_ok] at h
  obtain ⟨_, -, row, howned, h⟩ := h
  obtain ⟨hrow, -, -⟩ := requireOwnedActiveLease_spec howned
  have hview : ∀ next : JobLease, viewLease { row with lease := next } = viewLease row →
      Refined .quiet db (updateLeaseDocument db row next) := by
    intro next hnext
    have hmap : (Tables.update db.leases { row with lease := next }).map viewLease =
        db.leases.map viewLease := by
      refine Tables.map_update_of_eq viewLease fun x hx hk => ?_
      have hid : row.lease.id = next.id := congrArg LeaseState.id hnext.symm
      have : x = row := (leaseKeys_of_coherent hc).eq_of_key hx hrow (hk.trans hid.symm)
      rw [this, hnext]
    refine ⟨?_, .of_same_attempts ⟨rfl, rfl, rfl, rfl, rfl⟩ rfl
      (fun job hjob => ⟨job, hjob, rfl, rfl⟩) rfl⟩
    simp only [updateLeaseDocument, view, hmap]
    exact .refl
  split at h
  · simp only [bind_eq_ok, throwExpired_ne_ok, false_and, exists_false] at h
  · split at h
    · simp only [bind_eq_ok, throwExpired_ne_ok, false_and, exists_false] at h
    · simp only [pure_eq_ok, Prod.mk.injEq] at h
      obtain ⟨-, rfl⟩ := h
      exact hview _ rfl

theorem renewLease_refined (platform : Platform) (options : WorkerProtocolOptions) (workerId : Id)
    (credential : String) (leaseId : Id) (leaseToken : String) (now reapNow : Timestamp)
    {db : Database} (hc : Coherent (view db)) :
    Refined .quiet db
      (renewLease platform options workerId credential leaseId leaseToken now reapNow db).2 := by
  unfold renewLease
  split
  · rename_i lease db' hrenew
    exact renewLeaseInner_refines platform options workerId credential leaseId leaseToken now db lease
      db' hc hrenew
  · split
    · split
      · rename_i count db' hreap
        exact reapExpired_refines reapNow db count db' hc hreap
      · exact .refl .quiet db
    · exact .refl .quiet db

/-! ### Workers -/

theorem create_refines (platform : Platform) (input : CreateWorkerInput) (defaultWorkspaceId : Id)
    (now : Timestamp) (workerId : Id) (credential : String) :
    RefinesQuietly (create platform input defaultWorkspaceId now workerId credential) := by
  intro db worker db' _ h
  simp only [create, bind_eq_ok, pure_eq_ok, Prod.mk.injEq] at h
  obtain ⟨_, -, _, -, _, -, -, rfl⟩ := h
  exact .of_same ⟨rfl, rfl, rfl, rfl, rfl⟩ rfl rfl rfl rfl

theorem rotateCredential_refines (platform : Platform) (id : Id) (now : Timestamp)
    (credential : String) : RefinesQuietly (rotateCredential platform id now credential) := by
  intro db _ db' _ h
  simp only [rotateCredential, bind_eq_ok, pure_eq_ok, Prod.mk.injEq] at h
  obtain ⟨_, -, -, rfl⟩ := h
  exact .of_same ⟨rfl, rfl, rfl, rfl, rfl⟩ rfl rfl rfl rfl

theorem heartbeat_refines (platform : Platform) (options : WorkerProtocolOptions)
    (input : HeartbeatInput) (credential : String) (now : Timestamp) (heartbeatId : Id) :
    RefinesQuietly (heartbeat platform options input credential now heartbeatId) := by
  intro db _ db' _ h
  simp only [heartbeat, bind_eq_ok, pure_eq_ok, Prod.mk.injEq] at h
  obtain ⟨_, -, _, -, _, -, _, -, _, -, -, rfl⟩ := h
  exact .of_same ⟨rfl, rfl, rfl, rfl, rfl⟩ rfl rfl rfl rfl

/-- A worker that is disabled has its active leases revoked. -/
theorem update_refines (id : Id) (input : UpdateWorkerInput) (expectedUpdatedAt now : Timestamp) :
    RefinesQuietly (update id input expectedUpdatedAt now) := by
  intro db worker db' hc h
  simp only [update, bind_eq_ok] at h
  obtain ⟨_, -, _, -, _, -, next, -, _, -, h⟩ := h
  have hworkers : Refined .quiet db { db with workers := Tables.update db.workers next } :=
    .of_same ⟨rfl, rfl, rfl, rfl, rfl⟩ rfl rfl rfl rfl
  split at h
  · simp only [bind_eq_ok, pure_eq_ok, Prod.mk.injEq] at h
    obtain ⟨_, hrevoke, -, rfl⟩ := h
    exact hworkers.trans (revokeActiveLeasesForWorker_refined (hworkers.coherent hc) hrevoke)
  · simp only [bind_eq_ok, pure_eq_ok, Prod.mk.injEq] at h
    obtain ⟨_, rfl, -, rfl⟩ := h
    exact hworkers

end MarkorbitKnowledge.Execution
