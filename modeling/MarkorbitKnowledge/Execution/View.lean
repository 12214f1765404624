import MarkorbitKnowledge.Execution.Coherence
import MarkorbitKnowledge.Execution.WorkerExecution

/-!
# What a call does to the database

`view` keeps of the database what the execution protocol speaks about.  A successful repository call
is `Refined` when it is a sequence of protocol moves on the view and leaves the rest of the database
alone (`Frame`): the catalogue, the schedule states, the artifact registry, and of the rows it
rewrites everything that identifies them.  The attempts a call may end and the completions it may
accept are its `Effect`; most calls have none.
-/

namespace MarkorbitKnowledge.Execution

open Contracts Fallible Transitions
open Protocol (RunState JobState LeaseState AttemptState Move Coherent coherent_of_steps)
open Tables (KeysUnique)

/-! ### The view -/

def viewRun (run : CollectionRun) : RunState := ⟨run.id, run.status⟩

def viewJob (job : Job) : JobState :=
  ⟨job.id, job.runId, job.attempt, job.maxAttempts, job.status⟩

def viewLease (row : LeaseRow) : LeaseState :=
  ⟨row.lease.id, row.lease.jobId, row.lease.runId, decide (row.lease.status = .active)⟩

def viewAttempt (attempt : ExecutionAttempt) : AttemptState :=
  ⟨attempt.id, attempt.jobId, attempt.runId, attempt.leaseId, attempt.status⟩

/-- What the protocol sees of the database. -/
def view (db : Database) : Protocol.State where
  runs := db.runs.map viewRun
  jobs := db.jobs.map viewJob
  leases := db.leases.map viewLease
  attempts := db.attempts.map viewAttempt

section Stored

variable {db : Database}

theorem mem_view_run {run : CollectionRun} (h : run ∈ db.runs) : viewRun run ∈ (view db).runs :=
  List.mem_map_of_mem h

theorem mem_view_job {job : Job} (h : job ∈ db.jobs) : viewJob job ∈ (view db).jobs :=
  List.mem_map_of_mem h

theorem mem_view_lease {row : LeaseRow} (h : row ∈ db.leases) :
    viewLease row ∈ (view db).leases :=
  List.mem_map_of_mem h

theorem mem_view_attempt {attempt : ExecutionAttempt} (h : attempt ∈ db.attempts) :
    viewAttempt attempt ∈ (view db).attempts :=
  List.mem_map_of_mem h

theorem runKeys_of_coherent (h : Coherent (view db)) : KeysUnique db.runs :=
  (Tables.keysUnique_map viewRun fun _ => rfl).mp h.runKeys

theorem jobKeys_of_coherent (h : Coherent (view db)) : KeysUnique db.jobs :=
  (Tables.keysUnique_map viewJob fun _ => rfl).mp h.jobKeys

theorem leaseKeys_of_coherent (h : Coherent (view db)) : KeysUnique db.leases :=
  (Tables.keysUnique_map viewLease fun _ => rfl).mp h.leaseKeys

theorem attemptKeys_of_coherent (h : Coherent (view db)) : KeysUnique db.attempts :=
  (Tables.keysUnique_map viewAttempt fun _ => rfl).mp h.attemptKeys

end Stored

@[simp] theorem map_viewRun_update (runs : List CollectionRun) (run : CollectionRun) :
    (Tables.update runs run).map viewRun = Tables.update (runs.map viewRun) (viewRun run) :=
  Tables.map_update viewRun (fun _ => rfl) runs run

@[simp] theorem map_viewJob_update (jobs : List Job) (job : Job) :
    (Tables.update jobs job).map viewJob = Tables.update (jobs.map viewJob) (viewJob job) :=
  Tables.map_update viewJob (fun _ => rfl) jobs job

@[simp] theorem map_viewLease_update (leases : List LeaseRow) (row : LeaseRow) :
    (Tables.update leases row).map viewLease = Tables.update (leases.map viewLease) (viewLease row) :=
  Tables.map_update viewLease (fun _ => rfl) leases row

@[simp] theorem map_viewAttempt_update (attempts : List ExecutionAttempt)
    (attempt : ExecutionAttempt) :
    (Tables.update attempts attempt).map viewAttempt =
      Tables.update (attempts.map viewAttempt) (viewAttempt attempt) :=
  Tables.map_update viewAttempt (fun _ => rfl) attempts attempt

theorem viewLease_closed (row : LeaseRow) {status : JobLeaseStatus} (hstatus : status ≠ .active)
    (timestamp : Timestamp) (reason : String) :
    viewLease { row with lease := closedLease row.lease status timestamp reason } =
      { viewLease row with active := false } := by
  simp [viewLease, closedLease, hstatus]

/-! ### What a call leaves alone -/

/-- The part of a run that is fixed when it is dispatched. -/
structure RunIdentity where
  id : Id
  workspaceId : Id
  planId : Id
  triggerType : RunTriggerType
  idempotencyKey : Option String
  extensions : Option Extensions

def runIdentity (run : CollectionRun) : RunIdentity where
  id := run.id
  workspaceId := run.workspaceId
  planId := run.planId
  triggerType := run.trigger.type
  idempotencyKey := run.trigger.idempotencyKey
  extensions := run.extensions

theorem map_runIdentity_update {runs : List CollectionRun} (hu : KeysUnique runs)
    {run next : CollectionRun} (hrun : run ∈ runs) (hsame : runIdentity next = runIdentity run) :
    (Tables.update runs next).map runIdentity = runs.map runIdentity := by
  refine Tables.map_update_of_eq runIdentity fun x hx hk => ?_
  have hid : next.id = run.id := congrArg RunIdentity.id hsame
  have : x = run := hu.eq_of_key hx hrun (hk.trans hid)
  rw [this, hsame]

/-- The tables no execution call writes are the same. -/
structure SameElsewhere (db db' : Database) : Prop where
  plans : db'.plans = db.plans
  scheduleStates : db'.scheduleStates = db.scheduleStates
  sessions : db'.sessions = db.sessions
  contentObjects : db'.contentObjects = db.contentObjects
  rawArtifacts : db'.rawArtifacts = db.rawArtifacts

theorem SameElsewhere.refl (db : Database) : SameElsewhere db db := ⟨rfl, rfl, rfl, rfl, rfl⟩

theorem SameElsewhere.trans {db db' db'' : Database} (h : SameElsewhere db db')
    (h' : SameElsewhere db' db'') : SameElsewhere db db'' where
  plans := h'.plans.trans h.plans
  scheduleStates := h'.scheduleStates.trans h.scheduleStates
  sessions := h'.sessions.trans h.sessions
  contentObjects := h'.contentObjects.trans h.contentObjects
  rawArtifacts := h'.rawArtifacts.trans h.rawArtifacts

/-- The attempts a call may end, and the completed attempts it may store. -/
structure Effect where
  ends : Id → Prop
  completes : ExecutionAttempt → Prop

/-- No attempt ends. -/
def Effect.quiet : Effect := ⟨fun _ => False, fun _ => False⟩

structure Frame (effect : Effect) (db db' : Database) : Prop where
  elsewhere : SameElsewhere db db'
  runs : db'.runs.map runIdentity = db.runs.map runIdentity
  jobs : ∀ job ∈ db.jobs, ∃ job' ∈ db'.jobs, job'.id = job.id ∧ job'.jobType = job.jobType
  active : ∀ a ∈ db.attempts, a.status.isActive = true →
    effect.ends a.id ∨ ∃ a' ∈ db'.attempts, a'.id = a.id ∧ a'.status.isActive = true
  completed : ∀ a ∈ db'.attempts, a.status = .completed → a ∈ db.attempts ∨ effect.completes a

namespace Frame

variable {effect : Effect} {db db' db'' : Database}

theorem refl (effect : Effect) (db : Database) : Frame effect db db where
  elsewhere := .refl db
  runs := rfl
  jobs job hjob := ⟨job, hjob, rfl, rfl⟩
  active a ha hactive := Or.inr ⟨a, ha, rfl, hactive⟩
  completed _ ha _ := Or.inl ha

theorem trans (h : Frame effect db db') (h' : Frame effect db' db'') : Frame effect db db'' where
  elsewhere := h.elsewhere.trans h'.elsewhere
  runs := h'.runs.trans h.runs
  jobs job hjob := by
    obtain ⟨job', hjob', hid, htype⟩ := h.jobs job hjob
    obtain ⟨job'', hjob'', hid', htype'⟩ := h'.jobs job' hjob'
    exact ⟨job'', hjob'', hid'.trans hid, htype'.trans htype⟩
  active a ha hactive := by
    rcases h.active a ha hactive with hends | ⟨a', ha', hid, hactive'⟩
    · exact Or.inl hends
    · rcases h'.active a' ha' hactive' with hends | ⟨a'', ha'', hid', hactive''⟩
      · exact Or.inl (hid ▸ hends)
      · exact Or.inr ⟨a'', ha'', hid'.trans hid, hactive''⟩
  completed a ha hcompleted := by
    rcases h'.completed a ha hcompleted with ha | hcompletes
    · exact h.completed a ha hcompleted
    · exact Or.inr hcompletes

theorem mono {effect' : Effect} (h : Frame effect db db') (hends : ∀ id, effect.ends id → effect'.ends id)
    (hcompletes : ∀ a, effect.completes a → effect'.completes a) : Frame effect' db db' where
  elsewhere := h.elsewhere
  runs := h.runs
  jobs := h.jobs
  active a ha hactive := (h.active a ha hactive).imp (hends a.id) id
  completed a ha hcompleted := (h.completed a ha hcompleted).imp id (hcompletes a)

end Frame

/-- The job types a frame keeps, across an update of one job. -/
theorem jobs_kept {jobs : List Job} (hu : KeysUnique jobs) {job next : Job} (hjob : job ∈ jobs)
    (hid : next.id = job.id) (htype : next.jobType = job.jobType) :
    ∀ j ∈ jobs, ∃ j' ∈ Tables.update jobs next, j'.id = j.id ∧ j'.jobType = j.jobType := by
  intro j hj
  refine Tables.exists_mem_update (fun x hx hk hP => ?_) ⟨j, hj, rfl, rfl⟩
  have : x = job := hu.eq_of_key hx hjob (hk.trans hid)
  subst this
  exact ⟨hid.trans hP.1, htype.trans hP.2⟩

/-- A frame of a call that stores no attempt. -/
theorem Frame.of_same_attempts {effect : Effect} {db db' : Database}
    (elsewhere : SameElsewhere db db') (runs : db'.runs.map runIdentity = db.runs.map runIdentity)
    (jobs : ∀ job ∈ db.jobs, ∃ job' ∈ db'.jobs, job'.id = job.id ∧ job'.jobType = job.jobType)
    (attempts : db'.attempts = db.attempts) : Frame effect db db' where
  elsewhere := elsewhere
  runs := runs
  jobs := jobs
  active a ha hactive := Or.inr ⟨a, attempts ▸ ha, rfl, hactive⟩
  completed _ ha _ := Or.inl (attempts ▸ ha)

/-- A frame of a call that moves one attempt on. -/
theorem Frame.of_update_attempt {effect : Effect} {db db' : Database} {attempt next : ExecutionAttempt}
    (hu : KeysUnique db.attempts) (hattempt : attempt ∈ db.attempts)
    (attempts : db'.attempts = Tables.update db.attempts next) (hid : next.id = attempt.id)
    (elsewhere : SameElsewhere db db') (runs : db'.runs.map runIdentity = db.runs.map runIdentity)
    (jobs : ∀ job ∈ db.jobs, ∃ job' ∈ db'.jobs, job'.id = job.id ∧ job'.jobType = job.jobType)
    (hactive : effect.ends attempt.id ∨ next.status.isActive = true)
    (hcompleted : next.status = .completed → effect.completes next) : Frame effect db db' where
  elsewhere := elsewhere
  runs := runs
  jobs := jobs
  active a ha hstatus := by
    by_cases hk : a.id = next.id
    · have : a = attempt := hu.eq_of_key ha hattempt (hk.trans hid)
      subst this
      refine hactive.imp id fun hnext => ⟨next, ?_, hk.symm, hnext⟩
      rw [attempts]
      exact Tables.mem_update.mpr (Or.inr ⟨rfl, a, ha, hk⟩)
    · refine Or.inr ⟨a, ?_, rfl, hstatus⟩
      rw [attempts]
      exact Tables.mem_update.mpr (Or.inl ⟨ha, hk⟩)
  completed a ha hstatus := by
    rw [attempts] at ha
    rcases Tables.mem_update.mp ha with ⟨ha, -⟩ | ⟨rfl, -⟩
    · exact Or.inl ha
    · exact Or.inr (hcompleted hstatus)

/-! ### Refinement -/

/-- The call moved the protocol and left the rest alone, up to its effect. -/
structure Refined (effect : Effect) (db db' : Database) : Prop where
  steps : Steps Move (view db) (view db')
  frame : Frame effect db db'

namespace Refined

variable {effect : Effect} {db db' db'' : Database}

theorem refl (effect : Effect) (db : Database) : Refined effect db db := ⟨.refl, .refl effect db⟩

theorem trans (h : Refined effect db db') (h' : Refined effect db' db'') : Refined effect db db'' :=
  ⟨h.steps.trans h'.steps, h.frame.trans h'.frame⟩

theorem coherent (h : Refined effect db db') (hc : Coherent (view db)) : Coherent (view db') :=
  coherent_of_steps hc h.steps

theorem mono {effect' : Effect} (h : Refined effect db db')
    (hends : ∀ id, effect.ends id → effect'.ends id)
    (hcompletes : ∀ a, effect.completes a → effect'.completes a) : Refined effect' db db' :=
  ⟨h.steps, h.frame.mono hends hcompletes⟩

/-- A call that writes neither runs, jobs, leases nor attempts. -/
theorem of_same (elsewhere : SameElsewhere db db') (hruns : db'.runs = db.runs)
    (hjobs : db'.jobs = db.jobs) (hleases : db'.leases = db.leases)
    (hattempts : db'.attempts = db.attempts) : Refined effect db db' where
  steps := by
    have : view db' = view db := by rw [view, hruns, hjobs, hleases, hattempts]; rfl
    rw [this]
  frame := .of_same_attempts elsewhere (by rw [hruns])
    (fun job hjob => ⟨job, hjobs ▸ hjob, rfl, rfl⟩) hattempts

end Refined

/-- A repository call is refined wherever it succeeds. -/
def Refines {α : Type} (effect : Database → Effect)
    (body : Database → Except RegistryError (α × Database)) : Prop :=
  ∀ db a db', Coherent (view db) → body db = .ok (a, db') → Refined (effect db) db db'

/-- A call that ends no attempt. -/
abbrev RefinesQuietly {α : Type} (body : Database → Except RegistryError (α × Database)) : Prop :=
  Refines (fun _ => .quiet) body

end MarkorbitKnowledge.Execution
