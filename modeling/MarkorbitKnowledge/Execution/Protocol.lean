import MarkorbitKnowledge.Contracts.Execution
import MarkorbitKnowledge.Lib.Transitions
import Mathlib.Data.List.Range

/-!
# The execution protocol

What the execution store is for, without its documents: runs made of successive jobs, leases that
grant a job to a worker, and the one execution attempt a lease may start.  A `Move` is a change the
protocol allows, with the facts that allow it; `Coherent` says when a state is one the protocol can
be in.  It has two halves.  `Phase` is about one job: which leases are active for it and which
attempts it has, as a function of its status.  `Agrees` is about one run: its jobs are numbered from
1, all but the last were retried, and the status of the run is the one derived from the last job.

`Move.coherent` is the result: every move keeps the state coherent.  The repositories of the source
are connected to it in `Execution.Refinement`.
-/

namespace MarkorbitKnowledge.Execution.Protocol

open Contracts Tables

/-! ### States -/

structure RunState where
  id : Id
  status : CollectionRunStatus

structure JobState where
  id : Id
  runId : Id
  attempt : Nat
  maxAttempts : Nat
  status : JobStatus

structure LeaseState where
  id : Id
  jobId : Id
  runId : Id
  active : Bool

structure AttemptState where
  id : Id
  jobId : Id
  runId : Id
  leaseId : Id
  status : ExecutionAttemptStatus

instance : Keyed RunState Id := ⟨RunState.id⟩
instance : Keyed JobState Id := ⟨JobState.id⟩
instance : Keyed LeaseState Id := ⟨LeaseState.id⟩
instance : Keyed AttemptState Id := ⟨AttemptState.id⟩

@[simp] theorem key_runState (run : RunState) : key run = run.id := rfl
@[simp] theorem key_jobState (job : JobState) : key job = job.id := rfl
@[simp] theorem key_leaseState (lease : LeaseState) : key lease = lease.id := rfl
@[simp] theorem key_attemptState (attempt : AttemptState) : key attempt = attempt.id := rfl

structure State where
  runs : List RunState
  jobs : List JobState
  leases : List LeaseState
  attempts : List AttemptState

def State.empty : State := ⟨[], [], [], []⟩

/-- The jobs of a run, oldest first. -/
def jobsIn (jobs : List JobState) (run : Id) : List JobState :=
  jobs.filter fun job => decide (job.runId = run)

/-- The active leases of a job. -/
def activeFor (leases : List LeaseState) (job : Id) : List LeaseState :=
  leases.filter fun lease => decide (lease.jobId = job) && lease.active

/-- The execution attempts of a job. -/
def attemptsFor (attempts : List AttemptState) (job : Id) : List AttemptState :=
  attempts.filter fun attempt => decide (attempt.jobId = job)

/-! ### Moves -/

/-- A change the protocol allows. -/
inductive Move (s : State) : State → Prop
  /-- A run is dispatched with its first job. -/
  | dispatch {run : RunState} {job : JobState} (hrun : ∀ r ∈ s.runs, r.id ≠ run.id)
      (hjob : ∀ j ∈ s.jobs, j.id ≠ job.id) (hruns : run.status = .pending)
      (hjobs : job.status = .pending) (hof : job.runId = run.id) (hfirst : job.attempt = 1)
      (hmax : 1 ≤ job.maxAttempts) :
      Move s { s with runs := s.runs ++ [run], jobs := s.jobs ++ [job] }
  /-- A pending run is cancelled with all its jobs, which are pending too. -/
  | cancel {run : RunState} (hrun : run ∈ s.runs)
      (hjobs : ∀ j ∈ jobsIn s.jobs run.id, j.status = .pending) :
      Move s
        { s with
          runs := Tables.update s.runs { run with status := .cancelled }
          jobs := s.jobs.map fun j =>
            if j.runId = run.id then { j with status := .cancelled } else j }
  /-- A pending job is leased. -/
  | grant {job : JobState} {lease : LeaseState} (hjob : job ∈ s.jobs)
      (hpending : job.status = .pending) (hlease : ∀ l ∈ s.leases, l.id ≠ lease.id)
      (hof : lease.jobId = job.id) (hrun : lease.runId = job.runId) (hactive : lease.active = true) :
      Move s
        { s with
          jobs := Tables.update s.jobs { job with status := .leased }
          leases := s.leases ++ [lease] }
  /-- A lease ends before its job was started: the job is given back. -/
  | giveBack {job : JobState} {lease : LeaseState} (hlease : lease ∈ s.leases)
      (hactive : lease.active = true) (hjob : job ∈ s.jobs) (hof : lease.jobId = job.id)
      (hleased : job.status = .leased) :
      Move s
        { s with
          jobs := Tables.update s.jobs { job with status := .pending }
          leases := Tables.update s.leases { lease with active := false } }
  /-- A lease ends while its job is not merely leased: only the lease changes. -/
  | detach {lease : LeaseState} (hlease : lease ∈ s.leases)
      (hjob : ∀ j ∈ s.jobs, j.id = lease.jobId → j.status ≠ .leased) :
      Move s { s with leases := Tables.update s.leases { lease with active := false } }
  /-- The holder of an active lease starts the execution attempt of the leased job. -/
  | begin {run : RunState} {job : JobState} {lease : LeaseState} {attempt : AttemptState}
      (hlease : lease ∈ s.leases) (hactive : lease.active = true) (hjob : job ∈ s.jobs)
      (hof : lease.jobId = job.id) (hleased : job.status = .leased) (hrun : run ∈ s.runs)
      (hrunOf : run.id = job.runId) (hattempt : ∀ a ∈ s.attempts, a.id ≠ attempt.id)
      (hajob : attempt.jobId = job.id) (harun : attempt.runId = job.runId)
      (halease : attempt.leaseId = lease.id) (hastatus : attempt.status = .running) :
      Move s
        { s with
          runs := Tables.update s.runs { run with status := .running }
          jobs := Tables.update s.jobs { job with status := .running }
          attempts := s.attempts ++ [attempt] }
  /-- An attempt passes to its next stage, and its job with it. -/
  | stage {job : JobState} {attempt : AttemptState} {target : ExecutionAttemptStatus}
      (hattempt : attempt ∈ s.attempts) (hactive : attempt.status.isActive = true)
      (htarget : target.isActive = true) (hjob : job ∈ s.jobs) (hof : attempt.jobId = job.id) :
      Move s
        { s with
          jobs := Tables.update s.jobs { job with status := target.toJobStatus }
          attempts := Tables.update s.attempts { attempt with status := target } }
  /-- An attempt ends for good: its job completes, fails or is given up, the run follows the job,
      and the lease is closed. -/
  | finish {run : RunState} {job : JobState} {lease : LeaseState} {attempt : AttemptState}
      {outcome : ExecutionAttemptStatus} {status : JobStatus} (hattempt : attempt ∈ s.attempts)
      (hactive : attempt.status.isActive = true) (hjob : job ∈ s.jobs)
      (hof : attempt.jobId = job.id) (hlease : lease ∈ s.leases) (hleaseOf : lease.id = attempt.leaseId)
      (hrun : run ∈ s.runs) (hrunOf : run.id = job.runId)
      (hend : outcome = .completed ∧ status = .completed ∨
        outcome = .failed ∧ (status = .failed ∨ status = .deadLetter)) :
      Move s
        { runs := Tables.update s.runs { run with status := deriveRunStatusFromJob status }
          jobs := Tables.update s.jobs { job with status }
          leases := Tables.update s.leases { lease with active := false }
          attempts := Tables.update s.attempts { attempt with status := outcome } }
  /-- An attempt fails and the run gets its next job. -/
  | retry {run : RunState} {job next : JobState} {lease : LeaseState} {attempt : AttemptState}
      (hattempt : attempt ∈ s.attempts) (hactive : attempt.status.isActive = true)
      (hjob : job ∈ s.jobs) (hof : attempt.jobId = job.id) (hlease : lease ∈ s.leases)
      (hleaseOf : lease.id = attempt.leaseId) (hrun : run ∈ s.runs) (hrunOf : run.id = job.runId)
      (hnext : ∀ j ∈ s.jobs, j.id ≠ next.id) (hnextRun : next.runId = job.runId)
      (hnextAttempt : next.attempt = job.attempt + 1) (hnextMax : next.maxAttempts = job.maxAttempts)
      (hleft : job.attempt < job.maxAttempts) (hnextStatus : next.status = .pending) :
      Move s
        { runs := Tables.update s.runs { run with status := .pending }
          jobs := Tables.update s.jobs { job with status := .retry } ++ [next]
          leases := Tables.update s.leases { lease with active := false }
          attempts := Tables.update s.attempts { attempt with status := .failed } }

/-! ### Coherent states -/

/-- What the status of a job says about its active leases and its attempts. -/
inductive Phase : JobStatus → List LeaseState → List AttemptState → Prop
  | pending : Phase .pending [] []
  | cancelled : Phase .cancelled [] []
  | leased (lease : LeaseState) : Phase .leased [lease] []
  | executing (attempt : AttemptState) (active : List LeaseState)
      (hactive : attempt.status.isActive = true)
      (hlease : active = [] ∨ ∃ lease, active = [lease] ∧ lease.id = attempt.leaseId) :
      Phase attempt.status.toJobStatus active [attempt]
  | completed (attempt : AttemptState) (h : attempt.status = .completed) :
      Phase .completed [] [attempt]
  | failed (status : JobStatus) (attempt : AttemptState) (h : attempt.status = .failed)
      (hstatus : status = .failed ∨ status = .deadLetter ∨ status = .retry) :
      Phase status [] [attempt]

/-- A run with the status `status` and the jobs `jobs`: numbered from 1, all retried but the last,
    within the retry limit, and the run's status is the one derived from the last job. -/
def Agrees (status : CollectionRunStatus) (jobs : List JobState) : Prop :=
  ∃ earlier last, jobs = earlier ++ [last] ∧ (∀ j ∈ earlier, j.status = .retry) ∧
    last.status ≠ .retry ∧ jobs.map (·.attempt) = List.range' 1 jobs.length ∧
    jobs.length ≤ last.maxAttempts ∧ (∀ j ∈ jobs, j.maxAttempts = last.maxAttempts) ∧
    status = deriveRunStatusFromJob last.status

structure Coherent (s : State) : Prop where
  runKeys : KeysUnique s.runs
  jobKeys : KeysUnique s.jobs
  leaseKeys : KeysUnique s.leases
  attemptKeys : KeysUnique s.attempts
  runOfJob : ∀ j ∈ s.jobs, ∃ r ∈ s.runs, r.id = j.runId
  jobOfLease : ∀ l ∈ s.leases, ∃ j ∈ s.jobs, j.id = l.jobId ∧ j.runId = l.runId
  leaseOfAttempt : ∀ a ∈ s.attempts, ∃ l ∈ s.leases,
    l.id = a.leaseId ∧ l.jobId = a.jobId ∧ l.runId = a.runId
  phase : ∀ j ∈ s.jobs, Phase j.status (activeFor s.leases j.id) (attemptsFor s.attempts j.id)
  agrees : ∀ r ∈ s.runs, Agrees r.status (jobsIn s.jobs r.id)

theorem coherent_empty : Coherent State.empty where
  runKeys := List.nodup_nil
  jobKeys := List.nodup_nil
  leaseKeys := List.nodup_nil
  attemptKeys := List.nodup_nil
  runOfJob := nofun
  jobOfLease := nofun
  leaseOfAttempt := nofun
  phase := nofun
  agrees := nofun

/-! ### One job -/

theorem mem_jobsIn {jobs : List JobState} {run : Id} {j : JobState} :
    j ∈ jobsIn jobs run ↔ j ∈ jobs ∧ j.runId = run := by
  simp [jobsIn]

theorem mem_activeFor {leases : List LeaseState} {job : Id} {l : LeaseState} :
    l ∈ activeFor leases job ↔ l ∈ leases ∧ l.jobId = job ∧ l.active = true := by
  simp [activeFor]

theorem mem_attemptsFor {attempts : List AttemptState} {job : Id} {a : AttemptState} :
    a ∈ attemptsFor attempts job ↔ a ∈ attempts ∧ a.jobId = job := by
  simp [attemptsFor]

/-- A change of a lease of another job is not seen by the active leases of a job. -/
theorem activeFor_update_other {leases : List LeaseState} (hu : KeysUnique leases)
    {lease : LeaseState} (hl : lease ∈ leases) {job : Id} (hne : lease.jobId ≠ job) (active : Bool) :
    activeFor (Tables.update leases { lease with active }) job = activeFor leases job := by
  refine filter_update_of_not (by simp [hne]) fun x hx hk => ?_
  have : x = lease := hu.eq_of_key hx hl hk
  simp [this, hne]

theorem activeFor_append {leases : List LeaseState} {lease : LeaseState} {job : Id}
    (hne : lease.jobId ≠ job) : activeFor (leases ++ [lease]) job = activeFor leases job := by
  simp [activeFor, hne]

theorem attemptsFor_append {attempts : List AttemptState} {attempt : AttemptState} {job : Id}
    (hne : attempt.jobId ≠ job) :
    attemptsFor (attempts ++ [attempt]) job = attemptsFor attempts job := by
  simp [attemptsFor, hne]

theorem attemptsFor_update_other {attempts : List AttemptState} (hu : KeysUnique attempts)
    {attempt : AttemptState} (ha : attempt ∈ attempts) {job : Id} (hne : attempt.jobId ≠ job)
    (status : ExecutionAttemptStatus) :
    attemptsFor (Tables.update attempts { attempt with status }) job = attemptsFor attempts job := by
  refine filter_update_of_not (by simp [hne]) fun x hx hk => ?_
  have : x = attempt := hu.eq_of_key hx ha hk
  simp [this, hne]

/-- The attempts of a job after the status of its only attempt changed. -/
theorem attemptsFor_update_self {attempts : List AttemptState} (hu : KeysUnique attempts)
    {attempt : AttemptState} (ha : attempt ∈ attempts)
    (honly : attemptsFor attempts attempt.jobId = [attempt]) (status : ExecutionAttemptStatus) :
    attemptsFor (Tables.update attempts { attempt with status }) attempt.jobId =
      [{ attempt with status }] := by
  have h : attemptsFor (Tables.update attempts { attempt with status }) attempt.jobId =
      Tables.update (attemptsFor attempts attempt.jobId) { attempt with status } := by
    refine filter_update_of_iff fun x hx hk => ?_
    have : x = attempt := hu.eq_of_key hx ha hk
    simp [this]
  rw [h, honly]
  simp [Tables.update]

/-- A closed lease is no longer among the active leases of a job. -/
theorem activeFor_close (leases : List LeaseState) (lease : LeaseState) (job : Id) :
    activeFor (Tables.update leases { lease with active := false }) job =
      (activeFor leases job).filter fun l => decide (l.id ≠ lease.id) :=
  filter_update_of_drop (by simp)

theorem toJobStatus_injective : Function.Injective ExecutionAttemptStatus.toJobStatus := by
  intro a b h
  cases a <;> cases b <;> simp_all [ExecutionAttemptStatus.toJobStatus]

/-- The status of a job tells its active lease and its attempt, of which it has at most one each. -/
theorem Phase.at_most_once {status : JobStatus} {active : List LeaseState}
    {attempts : List AttemptState} (h : Phase status active attempts) :
    active.length ≤ 1 ∧ (status = .leased ↔ active ≠ [] ∧ attempts = []) ∧
      (∀ executing : ExecutionAttemptStatus, executing.isActive = true →
        (status = executing.toJobStatus ↔ ∃ a ∈ attempts, a.status = executing)) ∧
      attempts.length ≤ 1 := by
  have hne : ∀ executing : ExecutionAttemptStatus, executing.isActive = true →
      executing.toJobStatus ∉ [.pending, .cancelled, .leased, .completed, .failed, .deadLetter,
        JobStatus.retry] := by
    intro executing
    cases executing <;> simp [ExecutionAttemptStatus.isActive, ExecutionAttemptStatus.toJobStatus]
  cases h with
  | pending | cancelled | leased =>
    refine ⟨by simp, by simp, fun executing hexecuting => ?_, by simp⟩
    have := hne executing hexecuting
    simp only [List.mem_cons, not_or] at this
    simp [Ne.symm this.1, Ne.symm this.2.1, Ne.symm this.2.2.1]
  | executing a _ ha hlease =>
    refine ⟨?_, ?_, fun executing _ => ?_, by simp⟩
    · rcases hlease with rfl | ⟨lease, rfl, -⟩ <;> simp
    · have := hne _ ha
      simp only [List.mem_cons, not_or] at this
      simp [this.2.2.1]
    · simpa using toJobStatus_injective.eq_iff
  | completed a ha =>
    refine ⟨by simp, by simp, fun executing hexecuting => ?_, by simp⟩
    cases executing <;> simp_all [ExecutionAttemptStatus.isActive, ExecutionAttemptStatus.toJobStatus]
  | failed _ a ha hstatus =>
    refine ⟨by simp, ?_, fun executing hexecuting => ?_, by simp⟩
    · rcases hstatus with rfl | rfl | rfl <;> simp
    · rcases hstatus with rfl | rfl | rfl <;> cases executing <;>
        simp_all [ExecutionAttemptStatus.isActive, ExecutionAttemptStatus.toJobStatus]

namespace Coherent

variable {s : State}

/-- The job an attempt belongs to has no other attempt, and its status is that of the attempt while
    the attempt is active. -/
theorem attempt_of_job (h : Coherent s) {a : AttemptState} (ha : a ∈ s.attempts) {j : JobState}
    (hj : j ∈ s.jobs) (hof : a.jobId = j.id) :
    attemptsFor s.attempts j.id = [a] ∧ j.status ≠ .leased ∧ j.status ≠ .pending ∧
      j.status ≠ .cancelled ∧
      (a.status.isActive = true → j.status = a.status.toJobStatus ∧
        (activeFor s.leases j.id = [] ∨
          ∃ l, activeFor s.leases j.id = [l] ∧ l.id = a.leaseId)) := by
  have hmem : a ∈ attemptsFor s.attempts j.id := mem_attemptsFor.mpr ⟨ha, hof⟩
  have hphase := h.phase j hj
  generalize hst : j.status = st at hphase ⊢
  generalize hac : activeFor s.leases j.id = ac at hphase ⊢
  generalize hat : attemptsFor s.attempts j.id = at' at hphase hmem ⊢
  cases hphase with
  | pending => simp at hmem
  | cancelled => simp at hmem
  | leased => simp at hmem
  | executing b _ hb hlease =>
    obtain rfl : a = b := by simpa using hmem
    refine ⟨rfl, ?_, ?_, ?_, fun _ => ⟨rfl, hlease⟩⟩ <;>
      (cases hs : a.status <;> simp_all [ExecutionAttemptStatus.toJobStatus])
  | completed b hb =>
    obtain rfl : a = b := by simpa using hmem
    simp [hb, ExecutionAttemptStatus.isActive]
  | failed _ b hb hstatus =>
    obtain rfl : a = b := by simpa using hmem
    rcases hstatus with rfl | rfl | rfl <;> simp [hb, ExecutionAttemptStatus.isActive]

/-- A leased job has exactly its active lease and no attempt. -/
theorem lease_of_leased (h : Coherent s) {j : JobState} (hj : j ∈ s.jobs)
    (hleased : j.status = .leased) :
    ∃ l, activeFor s.leases j.id = [l] ∧ attemptsFor s.attempts j.id = [] := by
  have hphase := h.phase j hj
  rw [hleased] at hphase
  generalize activeFor s.leases j.id = ac at hphase
  generalize attemptsFor s.attempts j.id = at' at hphase
  generalize hst : JobStatus.leased = st at hphase
  cases hphase with
  | leased l => exact ⟨l, rfl, rfl⟩
  | executing b _ hb _ => cases hs : b.status <;> simp_all [ExecutionAttemptStatus.toJobStatus]
  | failed _ _ _ hstatus => rcases hstatus with rfl | rfl | rfl <;> cases hst
  | pending => cases hst
  | cancelled => cases hst
  | completed => cases hst

/-- A pending job has no active lease and no attempt. -/
theorem nothing_of_pending (h : Coherent s) {j : JobState} (hj : j ∈ s.jobs)
    (hpending : j.status = .pending) :
    activeFor s.leases j.id = [] ∧ attemptsFor s.attempts j.id = [] := by
  have hphase := h.phase j hj
  rw [hpending] at hphase
  generalize activeFor s.leases j.id = ac at hphase
  generalize attemptsFor s.attempts j.id = at' at hphase
  generalize hst : JobStatus.pending = st at hphase
  cases hphase with
  | pending => exact ⟨rfl, rfl⟩
  | executing b _ hb _ => cases hs : b.status <;> simp_all [ExecutionAttemptStatus.toJobStatus]
  | failed _ _ _ hstatus => rcases hstatus with rfl | rfl | rfl <;> cases hst
  | leased => cases hst
  | cancelled => cases hst
  | completed => cases hst

end Coherent

end MarkorbitKnowledge.Execution.Protocol
