import MarkorbitKnowledge.Execution.View

/-!
# The execution transitions refine the execution protocol

A worker's transition is one protocol move, and so is each attempt a reconciliation gives up.  A
terminal transition ends the attempt of its lease and nothing else, and completes it only with a
receipt whose evidence was checked; a reconciliation ends the attempts it found abandoned.  It works
from rows read before the first attempt was given up, and these stay as they were read, because two
abandoned attempts share neither their lease nor their job nor their run.
-/

namespace MarkorbitKnowledge.Execution

open Contracts Fallible Transitions
open Protocol (RunState JobState LeaseState AttemptState Move Coherent coherent_of_steps)
open Tables (key KeysUnique find? mem_of_find? key_of_find?)

/-! ### What a transition works on -/

/-- The rows a transition works on: a lease, its job and its run, as they are stored. -/
structure LeaseContext.Stored (context : LeaseContext) (db : Database) (leaseId : Id) : Prop where
  lease : context.lease ∈ db.leases
  leaseId : context.lease.lease.id = leaseId
  job : context.job ∈ db.jobs
  jobId : context.lease.lease.jobId = context.job.id
  run : context.run ∈ db.runs
  runId : context.run.id = context.lease.lease.runId

theorem loadLeaseContext_spec {db : Database} {leaseId : Id} {context : LeaseContext}
    (h : loadLeaseContext db leaseId = .ok context) : context.Stored db leaseId := by
  simp only [loadLeaseContext, bind_eq_ok, orThrow_eq_ok, parseLease_eq_ok, parseJob_eq_ok,
    parseRun_eq_ok, pure_eq_ok] at h
  obtain ⟨lease, hlease, job, hjob, run, hrun, _, ⟨-, rfl⟩, _, ⟨-, rfl⟩, _, ⟨-, rfl⟩, rfl⟩ := h
  exact ⟨mem_of_find? hlease, key_of_find? hlease, mem_of_find? hjob, (key_of_find? hjob).symm,
    mem_of_find? hrun, key_of_find? hrun⟩

theorem requireActiveContext_spec {platform : Platform} {db : Database} {workerId leaseId : Id}
    {leaseToken : String} {now : Timestamp} {context : LeaseContext}
    (h : requireActiveContext platform db workerId leaseId leaseToken now = .ok context) :
    context.Stored db leaseId ∧ context.lease.lease.status = .active := by
  simp only [requireActiveContext, bind_eq_ok, require_eq_ok, pure_eq_ok] at h
  obtain ⟨_, hload, _, -, _, ⟨hactive, -⟩, rfl⟩ := h
  exact ⟨loadLeaseContext_spec hload, hactive⟩

theorem requireAttemptByLease_spec {db : Database} {leaseId : Id} {attempt : ExecutionAttempt}
    (h : requireAttemptByLease db leaseId = .ok attempt) :
    attempt ∈ db.attempts ∧ attempt.leaseId = leaseId := by
  simp only [requireAttemptByLease, getByLeaseId, bind_eq_ok, orThrow_eq_ok] at h
  obtain ⟨_, hfound, rfl⟩ := h
  simp only [mapM_eq_ok_some, parseAttempt_eq_ok] at hfound
  obtain ⟨_, hfind, -, rfl⟩ := hfound
  exact ⟨List.mem_of_find?_eq_some hfind, by simpa using List.find?_some hfind⟩

/-- A context on a coherent database names one run in its lease and its job. -/
theorem LeaseContext.Stored.run_of_job {context : LeaseContext} {db : Database} {leaseId : Id}
    (h : context.Stored db leaseId) (hc : Coherent (view db)) :
    context.run.id = context.job.runId :=
  h.runId.trans (hc.job_of_lease (mem_view_lease h.lease) (mem_view_job h.job) h.jobId)

/-- The attempt of the lease is an attempt of the job of the lease. -/
theorem LeaseContext.Stored.job_of_attempt {context : LeaseContext} {db : Database} {leaseId : Id}
    (h : context.Stored db leaseId) (hc : Coherent (view db)) {attempt : ExecutionAttempt}
    (hattempt : attempt ∈ db.attempts) (hof : attempt.leaseId = leaseId) :
    attempt.jobId = context.job.id := by
  have hlease : context.lease.lease.id = attempt.leaseId := h.leaseId.trans hof.symm
  obtain ⟨hjob, -⟩ :=
    hc.lease_of_attempt (mem_view_attempt hattempt) (mem_view_lease h.lease) hlease
  exact hjob.symm.trans h.jobId

/-- What the steps of a transition write, on their own: documents of one table each. -/
theorem insertAttempt_spec {db db' : Database} {attempt : ExecutionAttempt}
    (h : insertAttempt db attempt = .ok db') :
    (∀ a ∈ db.attempts, a.id ≠ attempt.id) ∧
      db' = { db with attempts := db.attempts ++ [attempt] } := by
  simp only [insertAttempt, bind_eq_ok, require_eq_ok, pure_eq_ok] at h
  obtain ⟨_, hfresh, _, -, _, -, rfl⟩ := h
  exact ⟨hfresh, rfl⟩

theorem insertEvent_spec {db db' : Database} {event : ExecutionEvent}
    (h : insertEvent db event = .ok db') : db' = { db with events := db.events ++ [event] } := by
  simp only [insertEvent, bind_eq_ok, require_eq_ok, pure_eq_ok] at h
  obtain ⟨_, -, _, -, rfl⟩ := h
  rfl

theorem updateAttempt_spec {db db' : Database} {attempt : ExecutionAttempt}
    (h : updateAttempt db attempt = .ok db') :
    isExecutionAttempt attempt = true ∧
      db' = { db with attempts := Tables.update db.attempts attempt } := by
  simp only [updateAttempt, bind_eq_ok, require_eq_ok, pure_eq_ok] at h
  obtain ⟨_, hvalid, rfl⟩ := h
  exact ⟨hvalid, rfl⟩

theorem updateJob_spec {db db' : Database} {job : Job} {status : JobStatus} {timestamp : Timestamp}
    (h : updateJob db job status timestamp = .ok db') :
    db' = { db with
      jobs := Tables.update db.jobs { job with status, updatedAt := timestamp } } := by
  simp only [updateJob, bind_eq_ok, require_eq_ok, pure_eq_ok] at h
  obtain ⟨_, -, rfl⟩ := h
  rfl

theorem updateRun_spec {db db' : Database} {run : CollectionRun} {status : CollectionRunStatus}
    {timestamp : Timestamp} (h : updateRun db run status timestamp = .ok db') :
    db' = { db with
      runs := Tables.update db.runs { run with status, updatedAt := timestamp } } := by
  simp only [updateRun, bind_eq_ok, require_eq_ok, pure_eq_ok] at h
  obtain ⟨_, -, rfl⟩ := h
  rfl

theorem storeReplay_spec {db db' : Database} {key : TransitionKey}
    {result : ExecutionTransitionResult} {timestamp : Timestamp}
    (h : storeReplay db key result timestamp = .ok db') :
    (∀ stored ∈ db.transitionRequests, stored.workerId = key.workerId →
        stored.leaseId = key.leaseId → stored.idempotencyKey ≠ key.idempotencyKey) ∧
      db' = { db with
        transitionRequests := db.transitionRequests ++
          [{ workerId := key.workerId, leaseId := key.leaseId, idempotencyKey := key.idempotencyKey
             operation := key.operation, payloadHash := key.payloadHash, result
             createdAt := timestamp }] } := by
  simp only [storeReplay, bind_eq_ok, require_eq_ok, pure_eq_ok] at h
  obtain ⟨_, hfresh, rfl⟩ := h
  exact ⟨hfresh, rfl⟩

theorem replayOr_refines {platform : Platform} {request : WorkerRequest} {key : TransitionKey}
    {effect : Database → Effect}
    {body : Database → Except RegistryError (ExecutionTransitionResult × Database)}
    (hbody : Refines effect body) : Refines effect (replayOr platform request key body) := by
  intro db result db' hc h
  simp only [replayOr, bind_eq_ok] at h
  obtain ⟨_, -, replay, -, h⟩ := h
  split at h
  · simp only [pure_eq_ok, Prod.mk.injEq] at h
    obtain ⟨-, rfl⟩ := h
    exact .refl _ db
  · exact hbody db result db' hc h

/-! ### Starting and staging -/

theorem startInTransaction_refines (platform : Platform) (request : WorkerRequest)
    (executor : ExecutionExecutor) (key : TransitionKey) (now : Timestamp) (attemptId eventId : Id) :
    RefinesQuietly
      (startInTransaction platform request executor key now attemptId eventId) := by
  intro db result db' hc h
  simp only [startInTransaction, bind_eq_ok, require_eq_ok, pure_eq_ok, Prod.mk.injEq] at h
  obtain ⟨context, hcontext, _, ⟨hleased, -⟩, existing, -, _, -, _, -, event, -, db₁, hattempt, db₂,
    hevent, db₃, hjob, db₄, hrun, db₅, hreplay, -, rfl⟩ := h
  obtain ⟨hstored, hactive⟩ := requireActiveContext_spec hcontext
  obtain ⟨hfresh, rfl⟩ := insertAttempt_spec hattempt
  obtain rfl := insertEvent_spec hevent
  obtain rfl := updateJob_spec hjob
  obtain rfl := updateRun_spec hrun
  obtain ⟨-, rfl⟩ := storeReplay_spec hreplay
  let attempt := newAttempt context request.workerId executor attemptId now
  have hmove := @Move.begin (view db) (viewRun context.run) (viewJob context.job)
    (viewLease context.lease) (viewAttempt attempt) (mem_view_lease hstored.lease)
    (by simp [viewLease, hactive]) (mem_view_job hstored.job) hstored.jobId hleased
    (mem_view_run hstored.run) (hstored.run_of_job hc) (List.forall_mem_map.mpr hfresh) rfl rfl rfl
    rfl
  refine ⟨?_,
    { elsewhere := ⟨rfl, rfl, rfl, rfl, rfl⟩
      runs := map_runIdentity_update (runKeys_of_coherent hc) hstored.run rfl
      jobs := jobs_kept (jobKeys_of_coherent hc) hstored.job rfl rfl
      active := fun a ha hstatus => Or.inr ⟨a, List.mem_append_left _ ha, rfl, hstatus⟩
      completed := fun a ha hstatus => ?_ }⟩
  · simp only [view, map_viewRun_update, map_viewJob_update, List.map_append, List.map_cons,
      List.map_nil]
    exact .single hmove
  · rcases List.mem_append.mp ha with ha | ha
    · exact Or.inl ha
    · rw [List.mem_singleton.mp ha] at hstatus
      cases hstatus

theorem start_refines (platform : Platform) (request : WorkerRequest) (executor : ExecutionExecutor)
    (now : Timestamp) (attemptId eventId : Id) :
    RefinesQuietly (start platform request executor now attemptId eventId) := by
  intro db result db' hc h
  simp only [start, bind_eq_ok] at h
  obtain ⟨_, -, _, -, h⟩ := h
  exact replayOr_refines (startInTransaction_refines _ _ _ _ _ _ _) db result db' hc h

theorem stageInTransaction_refines (platform : Platform) (request : WorkerRequest)
    (stage : ExecutionStage) (hexpected : stage.expected.isActive = true)
    (htarget : stage.target.isActive = true) (key : TransitionKey) (now : Timestamp) (eventId : Id) :
    RefinesQuietly (stageInTransaction platform request stage key now eventId) := by
  intro db result db' hc h
  simp only [stageInTransaction, bind_eq_ok, require_eq_ok, pure_eq_ok, Prod.mk.injEq] at h
  obtain ⟨context, hcontext, attempt, hattempt, _, ⟨hstatus, -⟩, event, -, db₁, hupdate, db₂, hevent,
    db₃, hjob, db₄, hreplay, -, rfl⟩ := h
  obtain ⟨hstored, -⟩ := requireActiveContext_spec hcontext
  obtain ⟨hmem, hof⟩ := requireAttemptByLease_spec hattempt
  obtain ⟨-, rfl⟩ := updateAttempt_spec hupdate
  obtain rfl := insertEvent_spec hevent
  obtain rfl := updateJob_spec hjob
  obtain ⟨-, rfl⟩ := storeReplay_spec hreplay
  have hactive : (viewAttempt attempt).status.isActive = true := by
    rw [← hexpected, ← hstatus]
    rfl
  have hmove := Move.stage (mem_view_attempt hmem) hactive htarget (mem_view_job hstored.job)
    (hstored.job_of_attempt hc hmem hof)
  refine ⟨?_, .of_update_attempt (attemptKeys_of_coherent hc) hmem rfl rfl
    ⟨rfl, rfl, rfl, rfl, rfl⟩ rfl (jobs_kept (jobKeys_of_coherent hc) hstored.job rfl rfl)
    (Or.inr htarget) fun hcompleted => ?_⟩
  · simp only [view, map_viewJob_update, map_viewAttempt_update]
    exact .single hmove
  · have hcompleted : stage.target = .completed := hcompleted
    rw [hcompleted] at htarget
    cases htarget

theorem transition_refines (platform : Platform) (request : WorkerRequest) (stage : ExecutionStage)
    (hexpected : stage.expected.isActive = true) (htarget : stage.target.isActive = true)
    (now : Timestamp) (eventId : Id) :
    RefinesQuietly (transition platform request stage now eventId) := by
  intro db result db' hc h
  simp only [transition, bind_eq_ok] at h
  obtain ⟨_, -, h⟩ := h
  exact replayOr_refines (stageInTransaction_refines _ _ _ hexpected htarget _ _ _) db result db' hc h

theorem markUploading_refines (platform : Platform) (request : WorkerRequest) (now : Timestamp)
    (eventId : Id) : RefinesQuietly (markUploading platform request now eventId) :=
  transition_refines platform request uploadingStage rfl rfl now eventId

theorem markVerifying_refines (platform : Platform) (request : WorkerRequest) (now : Timestamp)
    (eventId : Id) : RefinesQuietly (markVerifying platform request now eventId) :=
  transition_refines platform request verifyingStage rfl rfl now eventId

/-! ### Ending -/

theorem viewAttempt_terminal (attempt : ExecutionAttempt) (terminal : Terminal) (now : Timestamp) :
    viewAttempt (terminalAttempt attempt terminal now) =
      { viewAttempt attempt with status := terminal.target } := by
  cases terminal <;> rfl

/-- A terminal transition is accepted from an active attempt only. -/
theorem assertTerminal_active {db : Database} {attempt : ExecutionAttempt} {job : Job}
    {terminal : Terminal} {u : Unit} (h : assertTerminal db attempt job terminal = .ok u) :
    attempt.status.isActive = true := by
  cases terminal with
  | receipt receipt =>
    simp only [assertTerminal, bind_eq_ok, require_eq_ok] at h
    obtain ⟨_, ⟨hstatus, -⟩, -⟩ := h
    rw [hstatus]
    rfl
  | failure failure => simpa [assertTerminal] using h

/-- What the end of an attempt does to its job and run: both end, or the job is retried by the next
    one while the run is pending again. -/
theorem settleJob_spec {platform : Platform} {db db' : Database} {job : Job} {run : CollectionRun}
    {terminal : Terminal} {now : Timestamp} {retryJobId : Id} {reason : String}
    (h : settleJob platform db job run terminal now retryJobId = .ok (reason, db')) :
    (∃ status,
      (terminal.target = .completed ∧ status = .completed ∨
        terminal.target = .failed ∧ (status = .failed ∨ status = .deadLetter)) ∧
      db' =
        { db with
          jobs := Tables.update db.jobs { job with status, updatedAt := now }
          runs := Tables.update db.runs
            { run with status := deriveRunStatusFromJob status, updatedAt := now } }) ∨
    (terminal.target = .failed ∧ job.attempt < job.maxAttempts ∧
      (∀ j ∈ db.jobs, j.id ≠ retryJobId) ∧ ∃ availableAt, db' =
        { db with
          jobs := Tables.update db.jobs { job with status := .retry, updatedAt := now } ++
            [retryJobFor job availableAt now retryJobId]
          runs := Tables.update db.runs { run with status := .pending, updatedAt := now } }) := by
  cases terminal with
  | receipt receipt =>
    simp only [settleJob, bind_eq_ok, pure_eq_ok, Prod.mk.injEq] at h
    obtain ⟨_, hjob, _, hrun, -, rfl⟩ := h
    obtain rfl := updateJob_spec hjob
    obtain rfl := updateRun_spec hrun
    exact Or.inl ⟨.completed, Or.inl ⟨rfl, rfl⟩, rfl⟩
  | failure failure =>
    simp only [settleJob] at h
    split at h
    · rename_i hretry
      simp only [insertRetryJob, insertJob, bind_eq_ok, require_eq_ok, pure_eq_ok,
        Prod.mk.injEq] at h
      obtain ⟨_, hjob, _, ⟨_, -, _, -, _, -, _, hfresh, _, -, rfl⟩, _, hrun, -, rfl⟩ := h
      obtain rfl := updateJob_spec hjob
      obtain rfl := updateRun_spec hrun
      exact Or.inr ⟨rfl, hretry.2, Tables.forall_key_ne_update.mp hfresh, _, rfl⟩
    · split at h <;> simp only [bind_eq_ok, pure_eq_ok, Prod.mk.injEq] at h <;>
        obtain ⟨_, hjob, _, hrun, -, rfl⟩ := h <;>
        obtain rfl := updateJob_spec hjob <;>
        obtain rfl := updateRun_spec hrun
      · exact Or.inl ⟨.deadLetter, Or.inr ⟨rfl, Or.inr rfl⟩, rfl⟩
      · exact Or.inl ⟨.failed, Or.inr ⟨rfl, Or.inl rfl⟩, rfl⟩

/-- The jobs and runs an end of an attempt keeps, whatever becomes of the job. -/
theorem settleJob_kept {platform : Platform} {db db' : Database} {job : Job} {run : CollectionRun}
    {terminal : Terminal} {now : Timestamp} {retryJobId : Id} {reason : String}
    (h : settleJob platform db job run terminal now retryJobId = .ok (reason, db'))
    (hruns : KeysUnique db.runs) (hrun : run ∈ db.runs) (hjobs : KeysUnique db.jobs)
    (hjob : job ∈ db.jobs) :
    db'.runs.map runIdentity = db.runs.map runIdentity ∧
      (∀ j ∈ db.jobs, ∃ j' ∈ db'.jobs, j'.id = j.id ∧ j'.jobType = j.jobType) ∧
      db'.attempts = db.attempts ∧ SameElsewhere db db' := by
  rcases settleJob_spec h with ⟨status, -, rfl⟩ | ⟨-, -, -, _, rfl⟩
  · exact ⟨map_runIdentity_update hruns hrun rfl, jobs_kept hjobs hjob rfl rfl, rfl,
      ⟨rfl, rfl, rfl, rfl, rfl⟩⟩
  · refine ⟨map_runIdentity_update hruns hrun rfl, fun j hj => ?_, rfl, ⟨rfl, rfl, rfl, rfl, rfl⟩⟩
    have hkept : ∀ j ∈ db.jobs,
        ∃ j' ∈ Tables.update db.jobs { job with status := .retry, updatedAt := now },
          j'.id = j.id ∧ j'.jobType = j.jobType := jobs_kept hjobs hjob rfl rfl
    obtain ⟨j', hj', hkept⟩ := hkept j hj
    exact ⟨j', List.mem_append_left _ hj', hkept⟩

/-- The effect of a terminal transition: it ends the attempt of its lease, and completes it with a
    receipt it accepted. -/
def terminalEffect (request : WorkerRequest) (terminal : Terminal) (db : Database) : Effect where
  ends id := ∃ attempt ∈ db.attempts, attempt.leaseId = request.leaseId ∧ attempt.id = id
  completes completed := ∃ receipt now, terminal = .receipt receipt ∧
    ∃ attempt ∈ db.attempts, ∃ job ∈ db.jobs, attempt.leaseId = request.leaseId ∧
      attempt.jobId = job.id ∧ completed = terminalAttempt attempt terminal now ∧
      assertTerminal db attempt job terminal = .ok ()

/-- The end of an attempt, the settlement of its job and run and the closing of its lease are one
    move. -/
theorem settle_move {platform : Platform} {db db' db'' : Database} {context : LeaseContext}
    {leaseId : Id} {attempt : ExecutionAttempt} {terminal : Terminal} {now : Timestamp}
    {retryJobId : Id} {reason : String} {events : List ExecutionEvent} (hc : Coherent (view db))
    (hstored : context.Stored db leaseId) (hmem : attempt ∈ db.attempts)
    (hof : attempt.leaseId = leaseId) (hactive : attempt.status.isActive = true)
    (hsettle : settleJob platform
      { db with
        attempts := Tables.update db.attempts (terminalAttempt attempt terminal now)
        events }
      context.job context.run terminal now retryJobId = .ok (reason, db'))
    (hclose : closeExecutionLease db' context.lease .released reason now = .ok db'') :
    Move (view db) (view db'') := by
  simp only [closeExecutionLease, updateLeaseDocument, bind_eq_ok, require_eq_ok, pure_eq_ok] at hclose
  obtain ⟨_, -, rfl⟩ := hclose
  have hattempt := mem_view_attempt hmem
  have hjob := mem_view_job hstored.job
  have hlease := mem_view_lease hstored.lease
  have hleaseOf : (viewLease context.lease).id = (viewAttempt attempt).leaseId :=
    hstored.leaseId.trans hof.symm
  have hjobOf : (viewAttempt attempt).jobId = (viewJob context.job).id :=
    hstored.job_of_attempt hc hmem hof
  have hrun := mem_view_run hstored.run
  have hrunOf : (viewRun context.run).id = (viewJob context.job).runId := hstored.run_of_job hc
  have hreleased : JobLeaseStatus.released ≠ .active := by simp
  rcases settleJob_spec hsettle with ⟨status, hend, rfl⟩ | ⟨hfailed, hleft, hfresh, availableAt, rfl⟩
  · have hmove := Move.finish hattempt hactive hjob hjobOf hlease hleaseOf hrun hrunOf hend
    simp only [view, map_viewRun_update, map_viewJob_update, map_viewAttempt_update,
      map_viewLease_update, viewLease_closed _ hreleased, viewAttempt_terminal]
    exact hmove
  · have hmove := @Move.retry (view db) (viewRun context.run) (viewJob context.job)
      (viewJob (retryJobFor context.job availableAt now retryJobId)) (viewLease context.lease)
      (viewAttempt attempt) hattempt hactive hjob hjobOf hlease hleaseOf hrun hrunOf
      (List.forall_mem_map.mpr hfresh) rfl rfl rfl hleft rfl
    simp only [view, map_viewRun_update, map_viewJob_update, map_viewAttempt_update,
      map_viewLease_update, viewLease_closed _ hreleased, viewAttempt_terminal, hfailed,
      List.map_append, List.map_cons, List.map_nil]
    exact hmove

theorem terminalInTransaction_refines (platform : Platform) (request : WorkerRequest)
    (terminal : Terminal) (key : TransitionKey) (now : Timestamp) (ids : TerminalIds) :
    Refines (terminalEffect request terminal)
      (terminalInTransaction platform request terminal key now ids) := by
  intro db result db' hc h
  simp only [terminalInTransaction, bind_eq_ok, require_eq_ok, pure_eq_ok, Prod.mk.injEq] at h
  obtain ⟨context, hcontext, attempt, hattempt, _, hterminal, _, -, event, -, db₁, hupdate, db₂,
    hevent, ⟨reason, db₃⟩, hsettle, db₄, hclose, db₅, hreplay, -, rfl⟩ := h
  obtain ⟨hstored, -⟩ := requireActiveContext_spec hcontext
  obtain ⟨hmem, hof⟩ := requireAttemptByLease_spec hattempt
  obtain ⟨-, rfl⟩ := updateAttempt_spec hupdate
  obtain rfl := insertEvent_spec hevent
  obtain ⟨-, rfl⟩ := storeReplay_spec hreplay
  have hmove := settle_move hc hstored hmem hof (assertTerminal_active hterminal) hsettle hclose
  have hrunKeys := runKeys_of_coherent hc
  have hjobKeys := jobKeys_of_coherent hc
  have hrun := hstored.run
  have hjob := hstored.job
  obtain ⟨hruns, hjobs, hattempts, helsewhere⟩ := settleJob_kept hsettle hrunKeys hrun hjobKeys hjob
  simp only [closeExecutionLease, updateLeaseDocument, bind_eq_ok, require_eq_ok,
    pure_eq_ok] at hclose
  obtain ⟨_, -, rfl⟩ := hclose
  refine ⟨.single hmove, .of_update_attempt (attemptKeys_of_coherent hc) hmem hattempts ?_
    ⟨helsewhere.plans, helsewhere.scheduleStates, helsewhere.sessions, helsewhere.contentObjects,
      helsewhere.rawArtifacts⟩ hruns hjobs (Or.inl ⟨attempt, hmem, hof, rfl⟩) fun hcompleted => ?_⟩
  · cases terminal <;> rfl
  · cases terminal with
    | receipt receipt =>
      exact ⟨receipt, now, rfl, attempt, hmem, context.job, hstored.job, hof,
        hstored.job_of_attempt hc hmem hof, rfl, hterminal⟩
    | failure failure => cases hcompleted

theorem complete_refines (platform : Platform) (request : WorkerRequest) (receipt : ExecutionReceipt)
    (now : Timestamp) (ids : TerminalIds) :
    Refines (terminalEffect request (.receipt receipt))
      (complete platform request receipt now ids) := by
  intro db result db' hc h
  simp only [complete, bind_eq_ok] at h
  obtain ⟨_, -, _, -, h⟩ := h
  exact replayOr_refines (terminalInTransaction_refines _ _ _ _ _ _) db result db' hc h

/-- The effect of a failure: it ends the attempt of its lease. -/
def failureEffect (request : WorkerRequest) (db : Database) : Effect where
  ends id := ∃ attempt ∈ db.attempts, attempt.leaseId = request.leaseId ∧ attempt.id = id
  completes _ := False

theorem fail_refines (platform : Platform) (request : WorkerRequest) (input : FailExecutionInput)
    (occurredAt now : Timestamp) (ids : TerminalIds) :
    Refines (failureEffect request) (fail platform request input occurredAt now ids) := by
  intro db result db' hc h
  simp only [fail, bind_eq_ok] at h
  obtain ⟨_, -, h⟩ := h
  refine replayOr_refines ?_ db result db' hc h
  intro db result db' hc h
  simp only [bind_eq_ok] at h
  obtain ⟨_, -, h⟩ := h
  have hrefined := terminalInTransaction_refines _ _ _ _ _ _ db result db' hc h
  refine hrefined.mono (fun _ hends => hends) ?_
  rintro a ⟨receipt, _, hreceipt, -⟩
  cases hreceipt

/-! ### Reconciliation -/

/-- The rows of an abandoned attempt, as they are stored. -/
structure AbandonedRow.Stored (row : AbandonedRow) (db : Database) : Prop where
  attempt : row.attempt ∈ db.attempts
  active : row.attempt.status.isActive = true
  lease : row.lease ∈ db.leases
  leaseId : row.lease.lease.id = row.attempt.leaseId
  job : row.job ∈ db.jobs
  jobId : row.attempt.jobId = row.job.id
  run : row.run ∈ db.runs
  runId : row.run.id = row.job.runId

theorem abandonedRow_attempt {db : Database} {now : Timestamp} {attempt : ExecutionAttempt}
    {row : AbandonedRow} (h : abandonedRow db now attempt = some row) : row.attempt = attempt := by
  simp only [abandonedRow, Option.bind_eq_bind, Option.bind_eq_some_iff] at h
  obtain ⟨lease, -, job, -, run, -, h⟩ := h
  split at h
  · obtain rfl : _ = row := by simpa using h
    rfl
  · simp at h

theorem abandonedRow_spec {db : Database} (hc : Coherent (view db)) {now : Timestamp}
    {attempt : ExecutionAttempt} {row : AbandonedRow} (hmem : attempt ∈ db.attempts)
    (h : abandonedRow db now attempt = some row) : row.Stored db := by
  simp only [abandonedRow, Option.bind_eq_bind, Option.bind_eq_some_iff] at h
  obtain ⟨lease, hlease, job, hjob, run, hrun, h⟩ := h
  split at h
  · rename_i hactive
    obtain rfl : _ = row := by simpa using h
    have hleaseOf : lease.lease.id = attempt.leaseId := key_of_find? hlease
    have hjobOf : attempt.jobId = job.id := (key_of_find? hjob).symm
    have hstored := hc.lease_of_attempt (mem_view_attempt hmem)
      (mem_view_lease (mem_of_find? hlease)) hleaseOf
    have hrunOf : attempt.runId = job.runId := hstored.2.symm.trans
      (hc.job_of_lease (mem_view_lease (mem_of_find? hlease)) (mem_view_job (mem_of_find? hjob))
        (hstored.1.trans hjobOf))
    exact ⟨hmem, hactive.1, mem_of_find? hlease, hleaseOf, mem_of_find? hjob, hjobOf,
      mem_of_find? hrun, (key_of_find? hrun).trans hrunOf⟩
  · simp at h

/-- Two abandoned attempts have different leases, jobs and runs. -/
theorem AbandonedRow.Stored.apart {db : Database} {row other : AbandonedRow} (h : row.Stored db)
    (h' : other.Stored db) (hc : Coherent (view db)) (hne : other.attempt.id ≠ row.attempt.id) :
    other.lease.lease.id ≠ row.lease.lease.id ∧ other.job.id ≠ row.job.id ∧
      other.run.id ≠ row.run.id := by
  obtain ⟨honly, -, -, -, hphase⟩ :=
    hc.attempt_of_job (mem_view_attempt h.attempt) (mem_view_job h.job) h.jobId
  obtain ⟨-, -, -, -, hphase'⟩ :=
    hc.attempt_of_job (mem_view_attempt h'.attempt) (mem_view_job h'.job) h'.jobId
  have hjobs : other.job.id ≠ row.job.id := by
    intro heq
    have hmem : viewAttempt other.attempt ∈ Protocol.attemptsFor (view db).attempts row.job.id :=
      Protocol.mem_attemptsFor.mpr ⟨mem_view_attempt h'.attempt, h'.jobId.trans heq⟩
    rw [show row.job.id = (viewJob row.job).id from rfl, honly, List.mem_singleton] at hmem
    exact hne (congrArg AttemptState.id hmem)
  have hnotRetry : ∀ {attempt : ExecutionAttempt} {job : Job},
      (viewJob job).status = (viewAttempt attempt).status.toJobStatus →
      (viewJob job).status ≠ .retry := by
    intro attempt job hstatus
    rw [hstatus]
    cases (viewAttempt attempt).status <;> simp [ExecutionAttemptStatus.toJobStatus]
  refine ⟨fun heq => hjobs ?_, hjobs, fun heq => hjobs ?_⟩
  · obtain ⟨hjob, -⟩ :=
      hc.lease_of_attempt (mem_view_attempt h.attempt) (mem_view_lease h.lease) h.leaseId
    obtain ⟨hjob', -⟩ :=
      hc.lease_of_attempt (mem_view_attempt h'.attempt) (mem_view_lease h'.lease) h'.leaseId
    have hlease : viewLease other.lease = viewLease row.lease :=
      hc.leaseKeys.eq_of_key (mem_view_lease h'.lease) (mem_view_lease h.lease) heq
    exact h'.jobId.symm.trans (hjob'.symm.trans
      ((congrArg LeaseState.jobId hlease).trans (hjob.trans h.jobId)))
  · have hruns : (viewJob other.job).runId = (viewJob row.job).runId :=
      h'.runId.symm.trans (heq.trans h.runId)
    have := hc.eq_of_run (mem_view_job h'.job) (mem_view_job h.job) hruns
      (hnotRetry (hphase' h'.active).1) (hnotRetry (hphase h.active).1)
    exact congrArg JobState.id this

/-- The effect of giving up one attempt. -/
def abandonEffect (attemptId : Id) : Effect where
  ends id := id = attemptId
  completes _ := False

/-- The attempt is failed, its job and run with it, and a lease that is still active is closed; the
    rows of the other abandoned attempts stay as they were read. -/
theorem abandon_refined {platform : Platform} {now : Timestamp} {db db' : Database}
    {row : AbandonedRow} {eventId : Id} (hstored : row.Stored db) (hc : Coherent (view db))
    (h : abandon platform now db (row, eventId) = .ok db') :
    Refined (abandonEffect row.attempt.id) db db' ∧
      ∀ other : AbandonedRow, other.Stored db → other.attempt.id ≠ row.attempt.id →
        other.Stored db' := by
  simp only [abandon, bind_eq_ok, parseAttempt_eq_ok, parseLease_eq_ok, parseJob_eq_ok,
    parseRun_eq_ok] at h
  obtain ⟨_, ⟨-, rfl⟩, _, ⟨-, rfl⟩, _, ⟨-, rfl⟩, _, ⟨-, rfl⟩, event, -, _, hattempt, _, hevent, _, hjob,
    _, hrun, h⟩ := h
  obtain ⟨-, rfl⟩ := updateAttempt_spec hattempt
  obtain rfl := insertEvent_spec hevent
  obtain rfl := updateJob_spec hjob
  obtain rfl := updateRun_spec hrun
  have hmove := Move.finish (mem_view_attempt hstored.attempt) hstored.active
    (mem_view_job hstored.job) hstored.jobId (mem_view_lease hstored.lease) hstored.leaseId
    (mem_view_run hstored.run) hstored.runId
    (Or.inr ⟨rfl, Or.inl rfl⟩ : _ ∨ ExecutionAttemptStatus.failed = .failed ∧ _)
  -- What is common to the two ways the lease ends: `leases` are the leases it leaves.
  let settled (leases : List LeaseRow) : Database :=
    { db with
      attempts := Tables.update db.attempts
        (terminalAttempt row.attempt (.failure (abandonedFailure now)) now)
      events := db.events ++ [event]
      jobs := Tables.update db.jobs { row.job with status := .failed, updatedAt := now }
      runs := Tables.update db.runs { row.run with status := .failed, updatedAt := now }
      leases }
  have hframe : ∀ leases, Frame (abandonEffect row.attempt.id) db (settled leases) := fun leases =>
    .of_update_attempt (attemptKeys_of_coherent hc) hstored.attempt rfl rfl
      ⟨rfl, rfl, rfl, rfl, rfl⟩ (map_runIdentity_update (runKeys_of_coherent hc) hstored.run rfl)
      (jobs_kept (jobKeys_of_coherent hc) hstored.job rfl rfl) (Or.inl rfl)
      (by intro h; cases h)
  have hothers : ∀ {leases : List LeaseRow} {other : AbandonedRow}, other.Stored db →
      other.attempt.id ≠ row.attempt.id → other.lease ∈ leases → other.Stored (settled leases) := by
    intro leases other hother hne hlease
    obtain ⟨-, hjobs, hruns⟩ := hstored.apart hother hc hne
    exact
      { hother with
        attempt := Tables.mem_update.mpr (Or.inl ⟨hother.attempt, hne⟩)
        lease := hlease
        job := Tables.mem_update.mpr (Or.inl ⟨hother.job, hjobs⟩)
        run := Tables.mem_update.mpr (Or.inl ⟨hother.run, hruns⟩) }
  split at h
  · simp only [closeExecutionLease, updateLeaseDocument, bind_eq_ok, require_eq_ok,
      pure_eq_ok] at h
    obtain ⟨_, -, rfl⟩ := h
    refine ⟨⟨?_, hframe _⟩, fun other hother hne => hothers hother hne
      (Tables.mem_update.mpr (Or.inl ⟨hother.lease, (hstored.apart hother hc hne).1⟩))⟩
    simp only [view, map_viewRun_update, map_viewJob_update, map_viewAttempt_update,
      map_viewLease_update, viewLease_closed _ (show JobLeaseStatus.expired ≠ .active by simp),
      viewAttempt_terminal]
    exact .single hmove
  · rename_i hclosed
    obtain rfl : _ = db' := by simpa using h
    refine ⟨⟨?_, hframe _⟩, fun other hother hne => hothers hother hne hother.lease⟩
    -- Closing a lease that is already closed changes nothing the protocol sees.
    have hsame : Tables.update (view db).leases { viewLease row.lease with active := false } =
        (view db).leases := by
      have : ({ viewLease row.lease with active := false } : LeaseState) = viewLease row.lease := by
        simp [viewLease, hclosed]
      rw [this]
      exact hc.leaseKeys.update_self (mem_view_lease hstored.lease)
    rw [hsame] at hmove
    simp only [view, map_viewRun_update, map_viewJob_update, map_viewAttempt_update,
      viewAttempt_terminal]
    exact .single hmove

/-- The rows a reconciliation reads are stored, one for each attempt. -/
theorem abandonedRows_spec {db : Database} (hc : Coherent (view db)) (now : Timestamp) :
    ((abandonedRows db now).map (·.attempt.id)).Nodup ∧
      ∀ row ∈ abandonedRows db now, row.Stored db ∧ abandonedRow db now row.attempt = some row := by
  have hmem : ∀ row ∈ abandonedRows db now, ∃ attempt ∈ db.attempts,
      abandonedRow db now attempt = some row := by
    intro row hrow
    simpa only [abandonedRows, List.mem_insertionSort, List.mem_filterMap] using hrow
  constructor
  · have hrows : (db.attempts.filterMap (abandonedRow db now)).Nodup := by
      refine List.Nodup.filterMap (fun a a' row h h' => ?_) (.of_map _ (attemptKeys_of_coherent hc))
      rw [← abandonedRow_attempt h, ← abandonedRow_attempt h']
    refine List.Nodup.map_on (fun row hrow other hother hid => ?_)
      ((List.perm_insertionSort _ _).nodup_iff.mpr hrows)
    obtain ⟨attempt, hattempt, hsome⟩ := hmem row hrow
    obtain ⟨attempt', hattempt', hsome'⟩ := hmem other hother
    rw [abandonedRow_attempt hsome, abandonedRow_attempt hsome'] at hid
    have : attempt = attempt' := (attemptKeys_of_coherent hc).eq_of_key hattempt hattempt' hid
    rw [this] at hsome
    exact Option.some.inj (hsome.symm.trans hsome')
  · intro row hrow
    obtain ⟨attempt, hattempt, hsome⟩ := hmem row hrow
    refine ⟨abandonedRow_spec hc hattempt hsome, ?_⟩
    rw [abandonedRow_attempt hsome]
    exact hsome

/-- The effect of a reconciliation: it ends the attempts that are abandoned. -/
def reconcileEffect (now : Timestamp) (db : Database) : Effect where
  ends id := ∃ attempt ∈ db.attempts, (abandonedRow db now attempt).isSome = true ∧ attempt.id = id
  completes _ := False

/-- The rule for giving up stored attempts one after the other: what giving up one of them keeps, the
    loop keeps. -/
theorem foldlM_abandon {platform : Platform} {now : Timestamp} {P : Database → Prop}
    {entries : List (AbandonedRow × Id)}
    (hstep : ∀ current entry next, Coherent (view current) → entry ∈ entries →
      entry.1.Stored current → P current → abandon platform now current entry = .ok next → P next)
    {db db' : Database} (hc : Coherent (view db))
    (hnodup : (entries.map fun entry => entry.1.attempt.id).Nodup)
    (hstored : ∀ entry ∈ entries, entry.1.Stored db) (hdb : P db)
    (h : entries.foldlM (abandon platform now) db = .ok db') : P db' := by
  induction entries generalizing db with
  | nil =>
    obtain rfl : db = db' := by simpa [pure, Except.pure] using h
    exact hdb
  | cons entry rest ih =>
    rw [List.foldlM_cons, bind_eq_ok] at h
    obtain ⟨next, habandon, hrest⟩ := h
    rw [List.map_cons, List.nodup_cons] at hnodup
    have hfirst := hstored entry List.mem_cons_self
    obtain ⟨hrefined, hothers⟩ := abandon_refined hfirst hc habandon
    refine ih (fun current entry next hcurrent hentry =>
        hstep current entry next hcurrent (List.mem_cons_of_mem _ hentry))
      (hrefined.coherent hc) hnodup.2 (fun other hother => ?_)
      (hstep db entry next hc List.mem_cons_self hfirst hdb habandon) hrest
    refine hothers other.1 (hstored other (List.mem_cons_of_mem _ hother)) fun heq => hnodup.1 ?_
    exact List.mem_map.mpr ⟨other, hother, heq⟩

/-- The rule for a reconciliation: what giving up one abandoned attempt keeps, it keeps. -/
theorem reconcileExpired_rule {platform : Platform} {now : Timestamp} {eventId : Nat → Id}
    {P : Database → Prop} {db db' : Database}
    (hstep : ∀ (current : Database) (row : AbandonedRow) (eventId : Id) (next : Database),
      Coherent (view current) → row ∈ abandonedRows db now → row.Stored current → P current →
      abandon platform now current (row, eventId) = .ok next → P next)
    (hc : Coherent (view db)) (hdb : P db) {count : Nat}
    (h : reconcileExpired platform now eventId db = .ok (count, db')) : P db' := by
  simp only [reconcileExpired, bind_eq_ok, pure_eq_ok, Prod.mk.injEq] at h
  obtain ⟨_, hfold, -, rfl⟩ := h
  obtain ⟨hnodup, hrows⟩ := abandonedRows_spec hc now
  have hfst : ((abandonedRows db now).mapIdx fun i row => (row, eventId i)).map Prod.fst =
      abandonedRows db now := by
    refine List.ext_getElem? fun i => ?_
    simp [Function.comp_def]
  have hmem : ∀ entry ∈ (abandonedRows db now).mapIdx fun i row => (row, eventId i),
      entry.1 ∈ abandonedRows db now := by
    intro entry hentry
    rw [← hfst]
    exact List.mem_map_of_mem hentry
  refine foldlM_abandon (fun current entry next hcurrent hentry =>
      hstep current entry.1 entry.2 next hcurrent (hmem entry hentry))
    hc ?_ (fun entry hentry => (hrows _ (hmem entry hentry)).1) hdb hfold
  rw [← hfst, List.map_map] at hnodup
  exact hnodup

theorem reconcileExpired_refines (platform : Platform) (now : Timestamp) (eventId : Nat → Id) :
    Refines (reconcileEffect now) (reconcileExpired platform now eventId) := by
  intro db count db' hc h
  refine reconcileExpired_rule (P := Refined (reconcileEffect now db) db)
    (fun current row eventId next hcurrent hrow hstored hrefined habandon => ?_) hc (.refl _ db) h
  obtain ⟨hrow', hsome⟩ := (abandonedRows_spec hc now).2 row hrow
  have hends : (reconcileEffect now db).ends row.attempt.id :=
    ⟨row.attempt, hrow'.attempt, by rw [hsome]; rfl, rfl⟩
  obtain ⟨hstep, -⟩ := abandon_refined hstored hcurrent habandon
  exact hrefined.trans (hstep.mono (fun _ hid => hid ▸ hends) fun _ => False.elim)

end MarkorbitKnowledge.Execution
