import MarkorbitKnowledge.Adk.JobWorkers

/-!
# What a step of a process can do

`move_of_step` says once, for every step, which row is written, from which copy and over which status,
and what is logged.  The invariants of the queue are proved over `WorkerMove`.
-/

namespace MarkorbitKnowledge.Adk

open Contracts Fallible Tables Transitions

/-! ### Documents -/

/-- The next document of a job: what identifies it and its limit stay. -/
structure Continues (job next : AiKnowledgeJob) : Prop where
  id : next.id = job.id
  identity : SameIdentity job next
  maxAttempts : next.maxAttempts = job.maxAttempts

theorem SameIdentity.refl (job : AiKnowledgeJob) : SameIdentity job job :=
  ⟨rfl, rfl, rfl, rfl, rfl, rfl⟩

theorem SameIdentity.trans {a b c : AiKnowledgeJob} (h : SameIdentity a b) (h' : SameIdentity b c) :
    SameIdentity a c :=
  ⟨h.1.trans h'.1, h.2.trans h'.2, h.3.trans h'.3, h.4.trans h'.4, h.5.trans h'.5, h.6.trans h'.6⟩

/-- The attempts a document may have: fewer than its limit unless it has failed. -/
structure Bounded (job : AiKnowledgeJob) : Prop where
  le : job.attempts ≤ job.attemptLimit
  lt : job.status ≠ .failed → job.attempts < job.attemptLimit

/-- A document with the same attempts and another status. -/
structure Restated (job next : AiKnowledgeJob) (status : AiKnowledgeJobStatus) : Prop where
  continues : Continues job next
  attempts : next.attempts = job.attempts
  status_eq : next.status = status

theorem Restated.bounded {job next : AiKnowledgeJob} {status : AiKnowledgeJobStatus}
    (h : Restated job next status) (hbounded : Bounded job) (hstatus : job.status ≠ .failed) :
    Bounded next := by
  have hlimit : next.attemptLimit = job.attemptLimit := by
    rw [AiKnowledgeJob.attemptLimit, AiKnowledgeJob.attemptLimit, h.continues.maxAttempts]
  have hlt := hbounded.lt hstatus
  constructor
  · rw [h.attempts, hlimit]
    exact hbounded.le
  · intro _
    rw [h.attempts, hlimit]
    exact hlt

section Documents

variable {job next : AiKnowledgeJob} {now : Timestamp} {error : String}

theorem claimJob_spec (h : claimJob job now = .ok next) :
    job.status = .queued ∧ Restated job next .claimed := by
  simp only [claimJob, bind_eq_ok, require_eq_ok, pure_eq_ok] at h
  obtain ⟨_, hstatus, rfl⟩ := h
  exact ⟨hstatus, ⟨rfl, ⟨rfl, rfl, rfl, rfl, rfl, rfl⟩, rfl⟩, rfl, rfl⟩

theorem markRunning_spec (h : markRunning job now = .ok next) :
    job.status = .claimed ∧ Restated job next .running := by
  simp only [markRunning, bind_eq_ok, require_eq_ok, pure_eq_ok] at h
  obtain ⟨_, hstatus, rfl⟩ := h
  exact ⟨hstatus, ⟨rfl, ⟨rfl, rfl, rfl, rfl, rfl, rfl⟩, rfl⟩, rfl, rfl⟩

theorem markExecutionBlocked_spec (h : markExecutionBlocked job error now = .ok next) :
    job.status = .claimed ∧ Restated job next .blockedExecution := by
  simp only [markExecutionBlocked, bind_eq_ok, require_eq_ok, pure_eq_ok] at h
  obtain ⟨_, hstatus, rfl⟩ := h
  exact ⟨hstatus, ⟨rfl, ⟨rfl, rfl, rfl, rfl, rfl, rfl⟩, rfl⟩, rfl, rfl⟩

theorem markCredentialBlocked_spec (h : markCredentialBlocked job error now = .ok next) :
    Restated job next .blockedCredential := by
  simp only [markCredentialBlocked, bind_eq_ok, require_eq_ok, pure_eq_ok] at h
  obtain ⟨_, -, rfl⟩ := h
  exact ⟨⟨rfl, ⟨rfl, rfl, rfl, rfl, rfl, rfl⟩, rfl⟩, rfl, rfl⟩

theorem blockJobForRecovery_spec (h : blockJobForRecovery job error now = .ok next) :
    job.status = .running ∧ Restated job next .blockedRecovery := by
  simp only [blockJobForRecovery, bind_eq_ok, require_eq_ok, pure_eq_ok] at h
  obtain ⟨_, hstatus, rfl⟩ := h
  exact ⟨hstatus, ⟨rfl, ⟨rfl, rfl, rfl, rfl, rfl, rfl⟩, rfl⟩, rfl, rfl⟩

theorem completeJob_spec {artifactIds : List String} (h : completeJob job artifactIds now = .ok next) :
    Restated job next .succeeded := by
  simp only [completeJob, bind_eq_ok, require_eq_ok, pure_eq_ok] at h
  obtain ⟨_, -, _, -, rfl⟩ := h
  exact ⟨⟨rfl, ⟨rfl, rfl, rfl, rfl, rfl, rfl⟩, rfl⟩, rfl, rfl⟩

/-- The document of one more failure. -/
structure FailedOnce (job next : AiKnowledgeJob) : Prop where
  continues : Continues job next
  attempts : next.attempts = job.attempts + 1
  status : next.status = .failed ∨ next.status = .retryPending ∧ next.attempts < next.attemptLimit

theorem failJob_spec {retryable : Bool} (h : failJob job error retryable now = .ok next) :
    FailedOnce job next := by
  simp only [failJob, bind_eq_ok, require_eq_ok, pure_eq_ok] at h
  obtain ⟨_, -, rfl⟩ := h
  refine ⟨⟨rfl, ⟨rfl, rfl, rfl, rfl, rfl, rfl⟩, rfl⟩, rfl, ?_⟩
  by_cases hretry : retryable = true ∧ job.attempts + 1 < job.attemptLimit
  · exact Or.inr ⟨if_pos hretry, hretry.2⟩
  · exact Or.inl (if_neg hretry)

theorem FailedOnce.bounded (h : FailedOnce job next) (hbounded : Bounded job)
    (hstatus : job.status ≠ .failed) : Bounded next := by
  have hlimit : next.attemptLimit = job.attemptLimit := by
    rw [AiKnowledgeJob.attemptLimit, AiKnowledgeJob.attemptLimit, h.continues.maxAttempts]
  have hlt := hbounded.lt hstatus
  constructor
  · rw [h.attempts, hlimit]
    exact hlt
  · intro hnext
    rcases h.status with hfailed | ⟨-, hretry⟩
    · exact absurd hfailed hnext
    · exact hretry

/-- What recovery makes of a job, by the status it has read. -/
theorem recoveredJob_spec {input : RecoverAdkKnowledgeJobsInput} {made : Except String AiKnowledgeJob}
    (h : recoveredJob input job now = some made) (hmade : made = .ok next) :
    (job.status = .running ∧ Restated job next .blockedRecovery) ∨
      ((job.status = .retryPending ∨ job.status = .blockedCredential ∨ job.status = .claimed) ∧
        Restated job next .queued) := by
  subst hmade
  unfold recoveredJob at h
  cases hstatus : job.status <;> simp only [hstatus, Option.ite_none_right_eq_some,
    Option.some.injEq, reduceCtorEq] at h
  case retryPending =>
    have h := h.2
    simp only [requeueJob, bind_eq_ok, require_eq_ok, pure_eq_ok] at h
    obtain ⟨_, -, rfl⟩ := h
    exact Or.inr ⟨Or.inl rfl, ⟨rfl, ⟨rfl, rfl, rfl, rfl, rfl, rfl⟩, rfl⟩, rfl, rfl⟩
  case blockedCredential =>
    have h := h.2
    simp only [requeueCredentialBlockedJob, bind_eq_ok, require_eq_ok, pure_eq_ok] at h
    obtain ⟨_, -, rfl⟩ := h
    exact Or.inr ⟨Or.inr (Or.inl rfl), ⟨rfl, ⟨rfl, rfl, rfl, rfl, rfl, rfl⟩, rfl⟩, rfl, rfl⟩
  case claimed =>
    have h := h.2
    simp only [recoverClaimedJob, bind_eq_ok, require_eq_ok, pure_eq_ok] at h
    obtain ⟨_, -, rfl⟩ := h
    exact Or.inr ⟨Or.inr (Or.inr rfl), ⟨rfl, ⟨rfl, rfl, rfl, rfl, rfl, rfl⟩, rfl⟩, rfl, rfl⟩
  case running => exact Or.inl ⟨rfl, (blockJobForRecovery_spec h.2).2⟩

end Documents

/-! ### The store -/

section Store

variable {store store' : List JobRow} {job : AiKnowledgeJob} {id : String}

theorem parseJob_spec {next : AiKnowledgeJob} (h : parseJob job = .ok next) : next = job := by
  simp only [parseJob, bind_eq_ok, require_eq_ok] at h
  obtain ⟨_, -, h⟩ := h
  split at h <;> simp only [bind_eq_ok, require_eq_ok, pure_eq_ok] at h
  · obtain ⟨_, -, rfl⟩ := h
    rfl
  · obtain ⟨_, -, rfl⟩ := h
    rfl

theorem getJob_eq_none (h : getJob store id = .ok none) : ∀ row ∈ store, row.job.id ≠ id := by
  unfold getJob at h
  split at h
  · rename_i hnone
    exact find?_eq_none.mp hnone
  · simp [map_eq_ok] at h

theorem getJob_eq_some (h : getJob store id = .ok (some job)) :
    ∃ row ∈ store, row.job.id = id ∧ row.job = job := by
  unfold getJob at h
  split at h
  · simp [pure_eq_ok] at h
  · rename_i row hrow
    simp only [map_eq_ok] at h
    obtain ⟨parsed, hparsed, heq⟩ := h
    obtain rfl := Option.some.inj heq
    exact ⟨row, mem_of_find? hrow, key_of_find? hrow, (parseJob_spec hparsed).symm⟩

theorem getByExecutionKey_eq_none {executionKey : String}
    (h : getByExecutionKey store executionKey = .ok none) :
    ∀ row ∈ store, row.executionKey ≠ executionKey := by
  unfold getByExecutionKey at h
  split at h
  · rename_i hnone
    simpa using hnone
  · simp [map_eq_ok] at h

/-- A call of `put` leaves the store, or adds a row under an id and a key of its own. -/
theorem put_spec {stored : AiKnowledgeJob} (h : put store job = .ok (stored, store')) :
    store' = store ∨ ∃ executionKey, executionKeyOf job = .ok executionKey ∧
      (∀ row ∈ store, row.job.id ≠ job.id) ∧ (∀ row ∈ store, row.executionKey ≠ executionKey) ∧
      store' = store ++ [{ executionKey := executionKey, job := job }] := by
  simp only [put, existingJob, bind_eq_ok] at h
  obtain ⟨executionKey, hkey, existing, hexisting, h⟩ := h
  split at h
  · simp only [bind_eq_ok, pure_eq_ok, Prod.mk.injEq] at h
    obtain ⟨_, -, -, rfl⟩ := h
    exact Or.inl rfl
  · obtain ⟨found, hfound, hexisting⟩ := hexisting
    split at hexisting
    · simp [pure_eq_ok] at hexisting
    · simp only [pure_eq_ok, Prod.mk.injEq] at h
      exact Or.inr ⟨executionKey, hkey, getJob_eq_none hfound,
        getByExecutionKey_eq_none hexisting, h.2.symm⟩

/-- The stored document a guarded update replaces. -/
structure Replaces (store : List JobRow) (job : AiKnowledgeJob) (expected : AiKnowledgeJobStatus)
    (row : JobRow) : Prop where
  stored : row ∈ store
  id : row.job.id = job.id
  status : row.job.status = expected
  identity : SameIdentity row.job job

theorem saveIfStatus_spec {expected : AiKnowledgeJobStatus} {saved : AiKnowledgeJob}
    (h : saveIfStatus store job expected = .ok (some saved, store')) :
    saved = job ∧ store' = setJob store job ∧ ∃ row, Replaces store job expected row := by
  simp only [saveIfStatus, bind_eq_ok, orThrow_eq_ok, require_eq_ok] at h
  obtain ⟨_, -, found, hfound, existing, hexisting, _, hidentity, h⟩ := h
  subst hexisting
  obtain ⟨row, hrow, hid, rfl⟩ := getJob_eq_some hfound
  split at h
  · rename_i hstatus
    simp only [pure_eq_ok, Prod.mk.injEq, Option.some.injEq] at h
    exact ⟨h.1.symm, h.2.symm, row, hrow, hid, hstatus, hidentity⟩
  · simp [pure_eq_ok] at h

theorem claimNext_spec {now : Timestamp} (h : claimNext store now = .ok (some job, store')) :
    store' = setJob store job ∧ ∃ row ∈ store, row.job.status = .queued ∧
      Restated row.job job .claimed := by
  simp only [claimNext] at h
  split at h
  · simp [pure_eq_ok] at h
  · rename_i row hhead
    simp only [bind_eq_ok, pure_eq_ok, Prod.mk.injEq, Option.some.injEq] at h
    obtain ⟨parsed, hparsed, claimed, hclaimed, rfl, rfl⟩ := h
    obtain rfl := parseJob_spec hparsed
    have hmem := (List.perm_insertionSort _ _).mem_iff.mp (List.mem_of_mem_head? hhead)
    obtain ⟨hstatus, hrestated⟩ := claimJob_spec hclaimed
    exact ⟨rfl, row, List.mem_of_mem_filter hmem, hstatus, hrestated⟩

theorem mapM_parseJob {rows : List JobRow} {jobs : List AiKnowledgeJob}
    (h : rows.mapM (fun row => parseJob row.job) = .ok jobs) : jobs = rows.map (·.job) := by
  induction rows generalizing jobs with
  | nil =>
    simp only [List.mapM_nil, pure_eq_ok] at h
    exact h.symm
  | cons row rows ih =>
    simp only [List.mapM_cons, bind_eq_ok, pure_eq_ok] at h
    obtain ⟨parsed, hparsed, rest, hrest, rfl⟩ := h
    rw [parseJob_spec hparsed, ih hrest, List.map_cons]

theorem listJobs_spec {jobs : List AiKnowledgeJob} (h : listJobs store = .ok jobs) :
    ∀ job ∈ jobs, ∃ row ∈ store, row.job = job := by
  intro job hjob
  rw [mapM_parseJob h, List.mem_map] at hjob
  obtain ⟨row, hrow, rfl⟩ := hjob
  exact ⟨row, (List.perm_insertionSort _ _).mem_iff.mp hrow, rfl⟩

end Store

/-! ### Tasks -/

/-- The document of a process that has marked its job RUNNING and stored no outcome. -/
def Task.active : Task → Option AiKnowledgeJob
  | .running job | .calling job | .called job _ | .sinking job _ | .sunk job _ _ => some job
  | _ => none

/-- The document of a process that has claimed a job and not started it. -/
def Task.held : Task → Option AiKnowledgeJob
  | .claimed job => some job
  | _ => none

def Task.requests : Task → List QueueRequest
  | .enqueuing requests => requests
  | .putting request rest => request :: rest
  | _ => []

def Task.listed : Task → List AiKnowledgeJob
  | .recovering _ rest => rest
  | _ => []

/-- The provider call has failed, and no failure is stored yet. -/
def Task.endedDefinitely : Task → Bool
  | .called _ (.error error) => decide (error.verdict = .definite)
  | _ => false

/-- The call or the sink has ended so that only BLOCKED_RECOVERY is left. -/
def Task.doomed : Task → Bool
  | .called _ (.error error) => decide (error.verdict = .uncertain)
  | .sunk _ _ (.error _) => true
  | _ => false

/-- A request gives a job at least one attempt. -/
def QueueRequest.Valid : QueueRequest → Prop
  | .legacy _ _ _ maxAttempts => 0 < maxAttempts
  | .grounded _ => True

/-- What a process stores of an execution that has ended. -/
structure Settles (task : Task) (job next : AiKnowledgeJob) (events : List JobEvent) : Prop where
  continues : Continues job next
  status : next.status = .blockedCredential ∨ next.status = .blockedRecovery ∨
    next.status = .retryPending ∨ next.status = .failed ∨ next.status = .succeeded
  effect : (events = [] ∧ next.attempts = job.attempts ∧ next.status ≠ .failed ∧
      task.endedDefinitely = false) ∨
    (events = [.failed job.id task.endedDefinitely] ∧ FailedOnce job next)
  doomed : task.doomed = true → next.status = .blockedRecovery

/-- A task without a job, made of what the process has read before or reads now. -/
structure Passive (s : WorkerState) (process : Nat) (task : Task) : Prop where
  active : task.active = none
  held : task.held = none
  requests : ∀ request ∈ task.requests, request.Valid ∨ request ∈ (s.tasks process).requests
  listed : ∀ job ∈ task.listed, job ∈ (s.tasks process).listed ∨ ∃ row ∈ s.store, row.job = job

def sinkEvents (job : AiKnowledgeJob) : Except String AdkPersistedLineage → List JobEvent
  | .ok _ => []
  | .error _ => [.sinkFailed job.id]

/-- Everything a step of a process can do. -/
inductive WorkerMove (digest : String → String) (s : WorkerState) (process : Nat) (action : Action) :
    WorkerState → Prop
  | rests {task : Task} (htask : Passive s process task) :
      WorkerMove digest s process action (s.setTask process task)
  | inserts {request : QueueRequest} {rest : List QueueRequest} {now : Timestamp}
      {executionKey : String} (htask : s.tasks process = .putting request rest)
      (hkey : executionKeyOf (request.job digest now) = .ok executionKey)
      (hid : ∀ row ∈ s.store, row.job.id ≠ (request.job digest now).id)
      (hfresh : ∀ row ∈ s.store, row.executionKey ≠ executionKey) :
      WorkerMove digest s process action
        ⟨s.store ++ [{ executionKey := executionKey, job := request.job digest now }],
          Function.update s.tasks process (.enqueuing rest), s.events⟩
  | claims {row : JobRow} {job : AiKnowledgeJob} (htask : s.tasks process = .idle)
      (hrow : row ∈ s.store)
      (hstatus : row.job.status = .queued) (hjob : Restated row.job job .claimed) :
      WorkerMove digest s process action
        ⟨setJob s.store job, Function.update s.tasks process (.claimed job), s.events⟩
  | starts {now : Timestamp} {job next : AiKnowledgeJob} {row : JobRow}
      (haction : action = .start now) (htask : s.tasks process = .claimed job)
      (hrow : Replaces s.store next .claimed row) (hnext : Restated job next .running) :
      WorkerMove digest s process action
        ⟨setJob s.store next, Function.update s.tasks process (.running next),
          s.events ++ [.started job.id]⟩
  | blocks {now : Timestamp} {job next : AiKnowledgeJob} {row : JobRow}
      (haction : action = .start now) (htask : s.tasks process = .claimed job)
      (hrow : Replaces s.store next .claimed row) (hnext : Restated job next .blockedExecution) :
      WorkerMove digest s process action
        ⟨setJob s.store next, Function.update s.tasks process .idle, s.events⟩
  | calls {job : AiKnowledgeJob} (htask : s.tasks process = .running job) :
      WorkerMove digest s process action
        ⟨s.store, Function.update s.tasks process (.calling job), s.events ++ [.called job.id]⟩
  | ends {job : AiKnowledgeJob} (result : Except AcquireError AiKnowledgeAcquisition)
      (htask : s.tasks process = .calling job) :
      WorkerMove digest s process action
        ⟨s.store, Function.update s.tasks process (.called job result),
          s.events ++ [.ended job.id (callVerdict result)]⟩
  | sinks {job : AiKnowledgeJob} {acquisition : AiKnowledgeAcquisition}
      (htask : s.tasks process = .called job (.ok acquisition)) :
      WorkerMove digest s process action
        ⟨s.store, Function.update s.tasks process (.sinking job acquisition), s.events⟩
  | sunk {job : AiKnowledgeJob} {acquisition : AiKnowledgeAcquisition}
      (result : Except String AdkPersistedLineage)
      (htask : s.tasks process = .sinking job acquisition) :
      WorkerMove digest s process action
        ⟨s.store, Function.update s.tasks process (.sunk job acquisition result),
          s.events ++ sinkEvents job result⟩
  | settles {job next : AiKnowledgeJob} {row : JobRow} {events : List JobEvent}
      (hactive : (s.tasks process).active = some job) (hrow : Replaces s.store next .running row)
      (hsettles : Settles (s.tasks process) job next events) :
      WorkerMove digest s process action
        ⟨setJob s.store next, Function.update s.tasks process .idle, s.events ++ events⟩
  | recovers {now : Timestamp} {input : RecoverAdkKnowledgeJobsInput} {job next : AiKnowledgeJob}
      {rest : List AiKnowledgeJob} {row : JobRow} (haction : action = .recoverNext now)
      (htask : s.tasks process = .recovering input (job :: rest))
      (hrow : Replaces s.store next job.status row)
      (hnext : (job.status = .running ∧ Restated job next .blockedRecovery) ∨
        ((job.status = .retryPending ∨ job.status = .blockedCredential ∨ job.status = .claimed) ∧
          Restated job next .queued)) :
      WorkerMove digest s process action
        ⟨setJob s.store next, Function.update s.tasks process (.recovering input rest),
          s.events ++ staleEvents job⟩

section Moves

variable {digest : String → String} {s : WorkerState} {process : Nat}

theorem passive_idle : Passive s process .idle :=
  ⟨rfl, rfl, fun _ h => (by cases h), fun _ h => (by cases h)⟩

theorem enqueueRequests_valid {input : EnqueueAdkKnowledgeJobsInput} {requests : List QueueRequest}
    (h : enqueueRequests input = .ok requests) : ∀ request ∈ requests, request.Valid := by
  simp only [enqueueRequests, bind_eq_ok, require_eq_ok, pure_eq_ok] at h
  obtain ⟨_, -, _, hmax, rfl⟩ := h
  intro request hrequest
  simp only [List.mem_flatMap, List.mem_map] at hrequest
  obtain ⟨_, -, _, -, rfl⟩ := hrequest
  simp only [positiveInteger, Bool.and_eq_true, decide_eq_true_eq] at hmax
  exact hmax.2

theorem groundedRequests_valid {evidence : GroundedPreparedExecution} {requests : List QueueRequest}
    (h : groundedRequests evidence = .ok requests) : ∀ request ∈ requests, request.Valid := by
  simp only [groundedRequests, bind_eq_ok, require_eq_ok, pure_eq_ok] at h
  obtain ⟨_, -, rfl⟩ := h
  intro request hrequest
  obtain rfl := List.mem_singleton.mp hrequest
  trivial

/-- An update guarded by the status either writes over a row with that status, or writes nothing. -/
theorem persist_cases {next : Except String AiKnowledgeJob} {expected : AiKnowledgeJobStatus}
    {events : List JobEvent} {after : AiKnowledgeJob → Task} :
    s.persist process next expected events after = s.setTask process .idle ∨
      ∃ job row, next = .ok job ∧ Replaces s.store job expected row ∧
        s.persist process next expected events after =
          ⟨setJob s.store job, Function.update s.tasks process (after job), s.events ++ events⟩ := by
  unfold WorkerState.persist
  dsimp only
  split
  · rename_i job store hsaved
    simp only [bind_eq_ok] at hsaved
    obtain ⟨made, hmade, hsaved⟩ := hsaved
    obtain ⟨rfl, rfl, row, hrow⟩ := saveIfStatus_spec hsaved
    exact Or.inr ⟨job, row, hmade, hrow, rfl⟩
  · exact Or.inl rfl
  · exact Or.inl rfl

theorem settles_error {job next : AiKnowledgeJob} {error : AcquireError} {now : Timestamp}
    (h : afterError job error now = .ok next) :
    Settles (.called job (.error error)) job next
      (if error.verdict = .definite then [.failed job.id true] else []) := by
  unfold afterError at h
  cases hverdict : error.verdict <;> simp only [hverdict] at h
  case credentialMissing =>
    have hnext := markCredentialBlocked_spec h
    refine ⟨hnext.continues, Or.inl hnext.status_eq, Or.inl ⟨by simp, hnext.attempts, ?_, ?_⟩, ?_⟩
    · simp [hnext.status_eq]
    · simp [Task.endedDefinitely, hverdict]
    · simp [Task.doomed, hverdict]
  case uncertain =>
    have hnext := (blockJobForRecovery_spec h).2
    refine ⟨hnext.continues, Or.inr (Or.inl hnext.status_eq),
      Or.inl ⟨by simp, hnext.attempts, ?_, ?_⟩, fun _ => hnext.status_eq⟩
    · simp [hnext.status_eq]
    · simp [Task.endedDefinitely, hverdict]
  case definite =>
    have hnext := failJob_spec h
    refine ⟨hnext.continues, ?_, Or.inr ⟨?_, hnext⟩, ?_⟩
    · rcases hnext.status with hfailed | ⟨hretry, -⟩
      · exact Or.inr (Or.inr (Or.inr (Or.inl hfailed)))
      · exact Or.inr (Or.inr (Or.inl hretry))
    · simp [Task.endedDefinitely, hverdict]
    · simp [Task.doomed, hverdict]

/-- A failure that is not one of the provider call. -/
theorem settles_failure {task : Task} {job next : AiKnowledgeJob} {error : String} {now : Timestamp}
    (h : failJob job error false now = .ok next) (hended : task.endedDefinitely = false)
    (hdoomed : task.doomed = false) : Settles task job next [.failed job.id false] := by
  have hnext := failJob_spec h
  refine ⟨hnext.continues, ?_, Or.inr ⟨by rw [hended], hnext⟩, by simp [hdoomed]⟩
  rcases hnext.status with hfailed | ⟨hretry, -⟩
  · exact Or.inr (Or.inr (Or.inr (Or.inl hfailed)))
  · exact Or.inr (Or.inr (Or.inl hretry))

theorem settles_sink {job next : AiKnowledgeJob} {acquisition : AiKnowledgeAcquisition}
    {result : Except String AdkPersistedLineage} {now : Timestamp}
    (h : afterSink job acquisition result now = .ok next) :
    Settles (.sunk job acquisition result) job next [] := by
  have hblocked : ∀ {error}, blockJobForRecovery job error now = .ok next →
      Settles (.sunk job acquisition result) job next [] := by
    intro error hnext
    have hnext := (blockJobForRecovery_spec hnext).2
    exact ⟨hnext.continues, Or.inr (Or.inl hnext.status_eq),
      Or.inl ⟨rfl, hnext.attempts, by simp [hnext.status_eq], rfl⟩, fun _ => hnext.status_eq⟩
  cases result with
  | error message => exact hblocked h
  | ok lineage =>
    simp only [afterSink] at h
    split at h
    · have hnext := completeJob_spec h
      exact ⟨hnext.continues, Or.inr (Or.inr (Or.inr (Or.inr hnext.status_eq))),
        Or.inl ⟨rfl, hnext.attempts, by simp [hnext.status_eq], rfl⟩, by simp [Task.doomed]⟩
    · exact hblocked h

theorem move_of_step (process : Nat) (action : Action) :
    workerStep digest s (process, action) = s ∨
      WorkerMove digest s process action (workerStep digest s (process, action)) := by
  have hidle : WorkerMove digest s process action (s.setTask process .idle) := .rests passive_idle
  simp only [workerStep]
  split
  · exact Or.inr hidle
  · -- `enqueueAdkKnowledgeJobs`
    split
    · rename_i requests hrequests
      refine Or.inr (.rests ⟨rfl, rfl, fun request hrequest => Or.inl ?_, fun _ h => (by cases h)⟩)
      exact enqueueRequests_valid hrequests request hrequest
    · exact Or.inl rfl
  · split
    · rename_i requests hrequests
      refine Or.inr (.rests ⟨rfl, rfl, fun request hrequest => Or.inl ?_, fun _ h => (by cases h)⟩)
      exact groundedRequests_valid hrequests request hrequest
    · exact Or.inl rfl
  · exact Or.inr hidle
  · rename_i request rest htask
    split
    · refine Or.inr (.rests ⟨rfl, rfl, fun other hother => Or.inr ?_, fun _ h => (by cases h)⟩)
      rw [htask]
      exact hother
    · split
      · refine Or.inr (.rests ⟨rfl, rfl, fun other hother => Or.inr ?_, fun _ h => (by cases h)⟩)
        rw [htask]
        exact List.mem_cons_of_mem request hother
      · exact Or.inr hidle
    · exact Or.inr hidle
  · rename_i request rest now htask
    split
    · rename_i hput
      rcases put_spec hput with rfl | ⟨executionKey, hkey, hid, hfresh, rfl⟩
      · refine Or.inr (.rests ⟨rfl, rfl, fun other hother => Or.inr ?_, fun _ h => (by cases h)⟩)
        rw [htask]
        exact List.mem_cons_of_mem request hother
      · exact Or.inr (.inserts htask hkey hid hfresh)
    · exact Or.inr hidle
  · -- `claimNext`
    rename_i now htask
    split
    · rename_i hclaim
      obtain ⟨rfl, row, hrow, hstatus, hjob⟩ := claimNext_spec hclaim
      exact Or.inr (.claims htask hrow hstatus hjob)
    · exact Or.inl rfl
    · exact Or.inl rfl
  · rename_i job now htask
    split
    · rcases persist_cases with hsame | ⟨next, row, hnext, hrow, hsaved⟩
      · exact Or.inr (hsame ▸ hidle)
      · rw [hsaved, List.append_nil]
        exact Or.inr (.blocks rfl htask hrow (markExecutionBlocked_spec hnext).2)
    · rcases persist_cases with hsame | ⟨next, row, hnext, hrow, hsaved⟩
      · exact Or.inr (hsame ▸ hidle)
      · rw [hsaved]
        exact Or.inr (.starts rfl htask hrow (markRunning_spec hnext).2)
  · -- before the provider call
    rename_i job registries now htask
    split
    · exact Or.inr (.calls htask)
    · rcases persist_cases with hsame | ⟨next, row, hnext, hrow, hsaved⟩
      · exact Or.inr (hsame ▸ hidle)
      · rw [hsaved]
        refine Or.inr (.settles (by rw [htask]; rfl) hrow ?_)
        rw [htask]
        exact settles_failure hnext rfl rfl
  · rename_i job result htask
    exact Or.inr (.ends result htask)
  · rename_i job error now htask
    rcases persist_cases with hsame | ⟨next, row, hnext, hrow, hsaved⟩
    · exact Or.inr (hsame ▸ hidle)
    · rw [hsaved]
      refine Or.inr (.settles (by rw [htask]; rfl) hrow ?_)
      rw [htask]
      exact settles_error hnext
  · rename_i job acquisition now htask
    split
    · exact Or.inr (.sinks htask)
    · rcases persist_cases with hsame | ⟨next, row, hnext, hrow, hsaved⟩
      · exact Or.inr (hsame ▸ hidle)
      · rw [hsaved]
        refine Or.inr (.settles (by rw [htask]; rfl) hrow ?_)
        rw [htask]
        exact settles_failure hnext rfl rfl
  · rename_i job acquisition result htask
    refine Or.inr ?_
    cases result with
    | ok lineage =>
      have hmove : WorkerMove digest s process (.endSink (.ok lineage)) _ := .sunk (.ok lineage) htask
      rwa [sinkEvents, List.append_nil] at hmove
    | error message => exact .sunk (.error message) htask
  · rename_i job acquisition result now htask
    rcases persist_cases with hsame | ⟨next, row, hnext, hrow, hsaved⟩
    · exact Or.inr (hsame ▸ hidle)
    · rw [hsaved]
      refine Or.inr (.settles (by rw [htask]; rfl) hrow ?_)
      rw [htask]
      exact settles_sink hnext
  · -- recovery
    split
    · rename_i input jobs hjobs
      exact Or.inr (.rests ⟨rfl, rfl, fun _ h => (by cases h),
        fun job hjob => Or.inr (listJobs_spec hjobs job hjob)⟩)
    · exact Or.inl rfl
  · exact Or.inr hidle
  · rename_i input job rest now htask
    have hrest : Passive s process (.recovering input rest) := by
      refine ⟨rfl, rfl, fun _ h => (by cases h), fun other hother => Or.inl ?_⟩
      rw [htask]
      exact List.mem_cons_of_mem job hother
    split
    · exact Or.inr (.rests hrest)
    · rename_i made hmade
      split
      · rename_i hsaved
        simp only [bind_eq_ok] at hsaved
        obtain ⟨next, hnext, hsaved⟩ := hsaved
        obtain ⟨rfl, rfl, row, hrow⟩ := saveIfStatus_spec hsaved
        exact Or.inr (.recovers rfl htask hrow (recoveredJob_spec hmade hnext))
      · exact Or.inr (.rests hrest)
      · exact Or.inr hidle
  · exact Or.inl rfl

end Moves

end MarkorbitKnowledge.Adk
