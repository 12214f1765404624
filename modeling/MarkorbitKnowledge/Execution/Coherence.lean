import MarkorbitKnowledge.Execution.Protocol

/-!
# Every move keeps the execution protocol coherent

The induction step of the execution invariants.  A move touches one run, one job, one lease and one
attempt, so each field of `Coherent` is a frame for everything else and one fact about what the move
wrote.  The facts about a run come first (`Agrees.advance`, `Agrees.retry`, `Agrees.cancel`), then
the frames, then one lemma for each move, and `Move.coherent` collects them.
-/

namespace MarkorbitKnowledge.Execution.Protocol

open Contracts Tables

/-! ### One run -/

namespace Agrees

variable {status : CollectionRunStatus} {jobs : List JobState} {job : JobState}

/-- A job of a run that was not retried is its last job. -/
theorem eq_last (h : Agrees status jobs) (hj : job ∈ jobs) (hne : job.status ≠ .retry) :
    ∃ earlier, jobs = earlier ++ [job] ∧ (∀ j ∈ earlier, j.status = .retry) ∧
      jobs.map (·.attempt) = List.range' 1 jobs.length ∧ jobs.length ≤ job.maxAttempts ∧
      (∀ j ∈ jobs, j.maxAttempts = job.maxAttempts) ∧
      status = deriveRunStatusFromJob job.status := by
  obtain ⟨earlier, last, hsplit, hretry, hlast, hnum, hmax, hsame, hstatus⟩ := h
  have : job = last := by
    rw [hsplit, List.mem_append, List.mem_singleton] at hj
    rcases hj with hj | rfl
    · exact absurd (hretry job hj) hne
    · rfl
  subst this
  exact ⟨earlier, hsplit, hretry, hnum, hmax, hsame, hstatus⟩

theorem first (hpending : job.status = .pending) (hfirst : job.attempt = 1)
    (hmax : 1 ≤ job.maxAttempts) : Agrees .pending [job] :=
  ⟨[], job, rfl, nofun, by simp [hpending], by simp [hfirst], by simpa using hmax, by simp,
    by simp [hpending, deriveRunStatusFromJob]⟩

/-- The last job moves on, and the run with it. -/
theorem advance (h : Agrees status jobs) (hu : KeysUnique jobs) (hj : job ∈ jobs)
    (hne : job.status ≠ .retry) {next : JobStatus} (hnext : next ≠ .retry) :
    Agrees (deriveRunStatusFromJob next) (Tables.update jobs { job with status := next }) := by
  obtain ⟨earlier, rfl, hretry, hnum, hmax, hsame, -⟩ := h.eq_last hj hne
  rw [hu.update_last (by simp)]
  refine ⟨earlier, { job with status := next }, rfl, hretry, hnext, ?_, ?_, ?_, rfl⟩
  · simpa using hnum
  · simpa using hmax
  · intro j hj
    rw [List.mem_append, List.mem_singleton] at hj
    rcases hj with hj | rfl
    · exact hsame j (List.mem_append_left _ hj)
    · rfl

/-- The last job is retried by a next one. -/
theorem retry (h : Agrees status jobs) (hu : KeysUnique jobs) (hj : job ∈ jobs)
    (hne : job.status ≠ .retry) {next : JobState} (hpending : next.status = .pending)
    (hattempt : next.attempt = job.attempt + 1) (hmaxAttempts : next.maxAttempts = job.maxAttempts)
    (hleft : job.attempt < job.maxAttempts) :
    Agrees .pending (Tables.update jobs { job with status := .retry } ++ [next]) := by
  obtain ⟨earlier, rfl, hretry, hnum, hmax, hsame, -⟩ := h.eq_last hj hne
  have hcount : job.attempt = earlier.length + 1 := by
    have := congrArg List.getLast? hnum
    simpa [List.getLast?_range', Nat.add_comm] using this
  rw [hu.update_last (by simp)]
  refine ⟨earlier ++ [{ job with status := .retry }], next, rfl, ?_, by simp [hpending], ?_, ?_, ?_,
    by simp [hpending, deriveRunStatusFromJob]⟩
  · intro j hj
    rw [List.mem_append, List.mem_singleton] at hj
    rcases hj with hj | rfl
    · exact hretry j hj
    · rfl
  · have hlen : (earlier ++ [job]).length = earlier.length + 1 := by simp
    rw [List.map_append, List.map_append]
    rw [List.map_append, hlen] at hnum
    simp only [List.map_cons, List.map_nil, List.length_append, List.length_singleton] at hnum ⊢
    rw [hnum, hattempt, hcount]
    conv_rhs => rw [List.range'_concat]
    simp [Nat.add_comm]
  · simp only [List.length_append, List.length_singleton]
    omega
  · intro j hj
    rw [List.mem_append, List.mem_append, List.mem_singleton, List.mem_singleton] at hj
    rcases hj with (hj | rfl) | rfl
    · exact (hsame j (List.mem_append_left _ hj)).trans hmaxAttempts.symm
    · exact hmaxAttempts.symm
    · rfl

/-- A run whose jobs are all pending has one job, and is cancelled with it. -/
theorem cancel (h : Agrees status jobs) (hpending : ∀ j ∈ jobs, j.status = .pending) :
    Agrees .cancelled (jobs.map fun j => { j with status := .cancelled }) := by
  obtain ⟨earlier, last, rfl, hretry, -, hnum, hmax, -, -⟩ := h
  have hnil : earlier = [] := by
    refine List.eq_nil_iff_forall_not_mem.mpr fun j hj => ?_
    have h₁ := hretry j hj
    have h₂ := hpending j (List.mem_append_left _ hj)
    simp [h₁] at h₂
  subst hnil
  exact ⟨[], { last with status := .cancelled }, rfl, nofun, by simp, by simpa using hnum,
    by simpa using hmax, by simp, rfl⟩

end Agrees

/-! ### Frames -/

theorem jobsIn_update_other {jobs : List JobState} (hu : KeysUnique jobs) {job : JobState}
    (hj : job ∈ jobs) {run : Id} (hne : job.runId ≠ run) (status : JobStatus) :
    jobsIn (Tables.update jobs { job with status }) run = jobsIn jobs run := by
  refine filter_update_of_not (by simp [hne]) fun x hx hk => ?_
  have : x = job := hu.eq_of_key hx hj hk
  simp [this, hne]

theorem jobsIn_update_self {jobs : List JobState} (hu : KeysUnique jobs) {job : JobState}
    (hj : job ∈ jobs) (status : JobStatus) :
    jobsIn (Tables.update jobs { job with status }) job.runId =
      Tables.update (jobsIn jobs job.runId) { job with status } := by
  refine filter_update_of_iff fun x hx hk => ?_
  have : x = job := hu.eq_of_key hx hj hk
  simp [this]

theorem jobsIn_append {jobs : List JobState} {job : JobState} {run : Id} :
    jobsIn (jobs ++ [job]) run = jobsIn jobs run ++ (if job.runId = run then [job] else []) := by
  by_cases h : job.runId = run <;> simp [jobsIn, h]

namespace Coherent

variable {s : State}

theorem jobs_of_run (h : Coherent s) {job : JobState} (hj : job ∈ s.jobs) {r : RunState}
    (hr : r ∈ s.runs) (hid : r.id = job.runId) (hne : job.status ≠ .retry) :
    r.status = deriveRunStatusFromJob job.status := by
  obtain ⟨-, -, -, -, -, -, hstatus⟩ :=
    (h.agrees r hr).eq_last (mem_jobsIn.mpr ⟨hj, hid.symm⟩) hne
  exact hstatus

/-- A run has one job that was not retried. -/
theorem eq_of_run (h : Coherent s) {i j : JobState} (hi : i ∈ s.jobs) (hj : j ∈ s.jobs)
    (hrun : i.runId = j.runId) (hni : i.status ≠ .retry) (hnj : j.status ≠ .retry) : i = j := by
  obtain ⟨r, hr, hid⟩ := h.runOfJob j hj
  have hagree := h.agrees r hr
  obtain ⟨_, hsplit, -⟩ := hagree.eq_last (mem_jobsIn.mpr ⟨hi, hrun.trans hid.symm⟩) hni
  obtain ⟨_, hsplit', -⟩ := hagree.eq_last (mem_jobsIn.mpr ⟨hj, hid.symm⟩) hnj
  have hlast := congrArg List.getLast? (hsplit.symm.trans hsplit')
  simpa using hlast

/-- The runs after the last job of one of them took the status `status`. -/
theorem agrees_advance (h : Coherent s) {job : JobState} (hj : job ∈ s.jobs)
    (hne : job.status ≠ .retry) {status : JobStatus} (hstatus : status ≠ .retry) {r : RunState}
    (hr : r ∈ s.runs) :
    Agrees (if r.id = job.runId then deriveRunStatusFromJob status else r.status)
      (jobsIn (Tables.update s.jobs { job with status }) r.id) := by
  by_cases hid : r.id = job.runId
  · rw [if_pos hid, hid, jobsIn_update_self h.jobKeys hj]
    have hagree := h.agrees r hr
    rw [hid] at hagree
    exact hagree.advance (h.jobKeys.filter _) (mem_jobsIn.mpr ⟨hj, rfl⟩) hne hstatus
  · rw [if_neg hid, jobsIn_update_other h.jobKeys hj (Ne.symm hid)]
    exact h.agrees r hr

/-- A job that moves on without a change of its derived run status leaves the runs as they are. -/
theorem agrees_of_same (h : Coherent s) {job : JobState} (hj : job ∈ s.jobs)
    (hne : job.status ≠ .retry) {status : JobStatus} (hstatus : status ≠ .retry)
    (hsame : deriveRunStatusFromJob status = deriveRunStatusFromJob job.status) :
    ∀ r ∈ s.runs, Agrees r.status (jobsIn (Tables.update s.jobs { job with status }) r.id) := by
  intro r hr
  have hagree := h.agrees_advance hj hne hstatus hr
  by_cases hid : r.id = job.runId
  · rwa [if_pos hid, hsame, ← h.jobs_of_run hj hr hid hne] at hagree
  · rwa [if_neg hid] at hagree

/-- A job that moves on and takes its run along. -/
theorem agrees_of_update (h : Coherent s) {job : JobState} (hj : job ∈ s.jobs)
    (hne : job.status ≠ .retry) {status : JobStatus} (hstatus : status ≠ .retry) {run : RunState}
    (hrun : run.id = job.runId) :
    ∀ r ∈ Tables.update s.runs { run with status := deriveRunStatusFromJob status },
      Agrees r.status (jobsIn (Tables.update s.jobs { job with status }) r.id) := by
  intro r hr
  rcases mem_update.mp hr with ⟨hr, hid⟩ | ⟨rfl, r', hr', hid⟩
  · have hagree := h.agrees_advance hj hne hstatus hr
    rwa [if_neg (by simpa [hrun] using hid)] at hagree
  · have hagree := h.agrees_advance hj hne hstatus hr'
    have hid' : r'.id = run.id := hid
    rwa [if_pos (hid'.trans hrun), hid'] at hagree

/-- The references to jobs after a job changed its status. -/
theorem jobOfLease_update (h : Coherent s) (job : JobState) (hj : job ∈ s.jobs)
    (status : JobStatus) {l : LeaseState} (hl : l ∈ s.leases) :
    ∃ j ∈ Tables.update s.jobs { job with status }, j.id = l.jobId ∧ j.runId = l.runId := by
  refine exists_mem_update (fun x hx hk hP => ?_) (h.jobOfLease l hl)
  have : x = job := h.jobKeys.eq_of_key hx hj hk
  simpa [this] using hP

theorem runOfJob_update (h : Coherent s) {job : JobState} (hj : job ∈ s.jobs)
    (status : JobStatus) :
    ∀ j ∈ Tables.update s.jobs { job with status }, ∃ r ∈ s.runs, r.id = j.runId := by
  intro j hj'
  rcases mem_update.mp hj' with ⟨hj', -⟩ | ⟨rfl, -⟩
  · exact h.runOfJob j hj'
  · exact h.runOfJob job hj

theorem exists_run_update {runs : List RunState} (run : RunState) (status : CollectionRunStatus)
    {k : Id} (h : ∃ r ∈ runs, r.id = k) :
    ∃ r ∈ Tables.update runs { run with status }, r.id = k :=
  exists_mem_update (fun _ _ hk hP => hk.symm.trans hP) h

/-- The references to leases after a lease was opened or closed. -/
theorem leaseOfAttempt_update (h : Coherent s) {lease : LeaseState} (hl : lease ∈ s.leases)
    (active : Bool) {a : AttemptState} (ha : a ∈ s.attempts) :
    ∃ l ∈ Tables.update s.leases { lease with active },
      l.id = a.leaseId ∧ l.jobId = a.jobId ∧ l.runId = a.runId := by
  refine exists_mem_update (fun x hx hk hP => ?_) (h.leaseOfAttempt a ha)
  have : x = lease := h.leaseKeys.eq_of_key hx hl hk
  simpa [this] using hP

end Coherent

/-- A lease after it was opened or closed is the row that was stored, up to that. -/
theorem exists_of_mem_update_lease {leases : List LeaseState} {lease l : LeaseState}
    (hlease : lease ∈ leases) {active : Bool} (hl : l ∈ Tables.update leases { lease with active }) :
    ∃ l' ∈ leases, l'.id = l.id ∧ l'.jobId = l.jobId ∧ l'.runId = l.runId := by
  rcases mem_update.mp hl with ⟨hl, -⟩ | ⟨rfl, -⟩
  · exact ⟨l, hl, rfl, rfl, rfl⟩
  · exact ⟨lease, hlease, rfl, rfl, rfl⟩

theorem exists_of_mem_update_attempt {attempts : List AttemptState} {attempt a : AttemptState}
    (hattempt : attempt ∈ attempts) {status : ExecutionAttemptStatus}
    (ha : a ∈ Tables.update attempts { attempt with status }) :
    ∃ a' ∈ attempts, a'.leaseId = a.leaseId ∧ a'.jobId = a.jobId ∧ a'.runId = a.runId := by
  rcases mem_update.mp ha with ⟨ha, -⟩ | ⟨rfl, -⟩
  · exact ⟨a, ha, rfl, rfl, rfl⟩
  · exact ⟨attempt, hattempt, rfl, rfl, rfl⟩

/-! ### One lemma for each move -/

namespace Coherent

variable {s : State}

/-- Nothing refers to a job that is not stored. -/
theorem nothing_of_fresh (h : Coherent s) {job : Id} (hfresh : ∀ j ∈ s.jobs, j.id ≠ job) :
    activeFor s.leases job = [] ∧ attemptsFor s.attempts job = [] := by
  constructor
  · refine List.filter_eq_nil_iff.mpr fun l hl hp => ?_
    obtain ⟨j, hj, hid, -⟩ := h.jobOfLease l hl
    simp only [Bool.and_eq_true, decide_eq_true_eq] at hp
    exact hfresh j hj (hid.trans hp.1)
  · refine List.filter_eq_nil_iff.mpr fun a ha hp => ?_
    obtain ⟨l, hl, -, hjob, -⟩ := h.leaseOfAttempt a ha
    obtain ⟨j, hj, hid, -⟩ := h.jobOfLease l hl
    simp only [decide_eq_true_eq] at hp
    exact hfresh j hj (hid.trans (hjob.trans hp))

theorem job_of_lease (h : Coherent s) {lease : LeaseState} (hlease : lease ∈ s.leases)
    {job : JobState} (hjob : job ∈ s.jobs) (hof : lease.jobId = job.id) :
    lease.runId = job.runId := by
  obtain ⟨j, hj, hid, hrun⟩ := h.jobOfLease lease hlease
  have : j = job := h.jobKeys.eq_of_key hj hjob (hid.trans hof)
  exact this ▸ hrun.symm

theorem lease_of_attempt (h : Coherent s) {attempt : AttemptState}
    (hattempt : attempt ∈ s.attempts) {lease : LeaseState} (hlease : lease ∈ s.leases)
    (hof : lease.id = attempt.leaseId) :
    lease.jobId = attempt.jobId ∧ lease.runId = attempt.runId := by
  obtain ⟨l, hl, hid, hjob, hrun⟩ := h.leaseOfAttempt attempt hattempt
  have : l = lease := h.leaseKeys.eq_of_key hl hlease (hid.trans hof.symm)
  exact this ▸ ⟨hjob, hrun⟩

theorem dispatch (h : Coherent s) {run : RunState} {job : JobState}
    (hrun : ∀ r ∈ s.runs, r.id ≠ run.id) (hjob : ∀ j ∈ s.jobs, j.id ≠ job.id)
    (hruns : run.status = .pending) (hjobs : job.status = .pending) (hof : job.runId = run.id)
    (hfirst : job.attempt = 1) (hmax : 1 ≤ job.maxAttempts) :
    Coherent { s with runs := s.runs ++ [run], jobs := s.jobs ++ [job] } where
  runKeys := h.runKeys.append_singleton hrun
  jobKeys := h.jobKeys.append_singleton hjob
  leaseKeys := h.leaseKeys
  attemptKeys := h.attemptKeys
  runOfJob := by
    intro j hj
    rcases List.mem_append.mp hj with hj | hj
    · obtain ⟨r, hr, hid⟩ := h.runOfJob j hj
      exact ⟨r, List.mem_append_left _ hr, hid⟩
    · rw [List.mem_singleton.mp hj]
      exact ⟨run, by simp, hof.symm⟩
  jobOfLease := by
    intro l hl
    obtain ⟨j, hj, hP⟩ := h.jobOfLease l hl
    exact ⟨j, List.mem_append_left _ hj, hP⟩
  leaseOfAttempt := h.leaseOfAttempt
  phase := by
    intro j hj
    rcases List.mem_append.mp hj with hj | hj
    · exact h.phase j hj
    · obtain ⟨hactive, hattempts⟩ := h.nothing_of_fresh hjob
      rw [List.mem_singleton.mp hj, hjobs, hactive, hattempts]
      exact .pending
  agrees := by
    intro r hr
    rw [jobsIn_append, hof]
    rcases List.mem_append.mp hr with hr | hr
    · rw [if_neg (Ne.symm (hrun r hr)), List.append_nil]
      exact h.agrees r hr
    · rw [List.mem_singleton.mp hr, if_pos rfl, hruns]
      have hnil : jobsIn s.jobs run.id = [] := by
        refine List.filter_eq_nil_iff.mpr fun j hj hp => ?_
        obtain ⟨r', hr', hid⟩ := h.runOfJob j hj
        exact hrun r' hr' (hid.trans (by simpa using hp))
      rw [hnil]
      exact Agrees.first hjobs hfirst hmax

theorem cancel (h : Coherent s) {run : RunState} (hrun : run ∈ s.runs)
    (hjobs : ∀ j ∈ jobsIn s.jobs run.id, j.status = .pending) :
    Coherent
      { s with
        runs := Tables.update s.runs { run with status := .cancelled }
        jobs := s.jobs.map fun j =>
          if j.runId = run.id then { j with status := .cancelled } else j } where
  runKeys := h.runKeys.update _
  jobKeys := by
    have : (s.jobs.map fun j =>
        if j.runId = run.id then { j with status := .cancelled } else j).map key =
        s.jobs.map key := by
      rw [List.map_map]
      refine List.map_congr_left fun j _ => ?_
      by_cases hj : j.runId = run.id <;> simp [hj]
    rw [KeysUnique, this]
    exact h.jobKeys
  leaseKeys := h.leaseKeys
  attemptKeys := h.attemptKeys
  runOfJob := by
    intro j' hj'
    obtain ⟨j, hj, rfl⟩ := List.mem_map.mp hj'
    have := exists_run_update run .cancelled (h.runOfJob j hj)
    by_cases hid : j.runId = run.id <;> simpa [hid] using this
  jobOfLease := by
    intro l hl
    obtain ⟨j, hj, hid, hrunId⟩ := h.jobOfLease l hl
    refine ⟨_, List.mem_map_of_mem hj, ?_⟩
    by_cases hj' : j.runId = run.id
    · rw [if_pos hj']; exact ⟨hid, hrunId⟩
    · rw [if_neg hj']; exact ⟨hid, hrunId⟩
  leaseOfAttempt := h.leaseOfAttempt
  phase := by
    intro j' hj'
    obtain ⟨j, hj, rfl⟩ := List.mem_map.mp hj'
    by_cases hid : j.runId = run.id
    · rw [if_pos hid]
      have hpending := hjobs j (mem_jobsIn.mpr ⟨hj, hid⟩)
      obtain ⟨hactive, hattempts⟩ := h.nothing_of_pending hj hpending
      simp only [hactive, hattempts]
      exact .cancelled
    · rw [if_neg hid]
      exact h.phase j hj
  agrees := by
    -- Taking the jobs of a run commutes with cancelling those of `run`.
    have hview : ∀ r, jobsIn (s.jobs.map fun j =>
        if j.runId = run.id then { j with status := .cancelled } else j) r =
        (jobsIn s.jobs r).map fun j =>
          if j.runId = run.id then { j with status := .cancelled } else j := by
      intro r
      rw [jobsIn, List.filter_map, jobsIn]
      congr 1
      refine List.filter_congr fun j _ => ?_
      by_cases hj : j.runId = run.id <;> simp [hj]
    intro r hr
    rw [hview]
    rcases mem_update.mp hr with ⟨hr, hid⟩ | ⟨rfl, -⟩
    · have hsame : (jobsIn s.jobs r.id).map (fun j =>
          if j.runId = run.id then { j with status := .cancelled } else j) =
          jobsIn s.jobs r.id := by
        conv_rhs => rw [← List.map_id (jobsIn s.jobs r.id)]
        refine List.map_congr_left fun j hj => if_neg ?_
        rw [(mem_jobsIn.mp hj).2]
        exact hid
      rw [hsame]
      exact h.agrees r hr
    · have hall : (jobsIn s.jobs run.id).map (fun j =>
          if j.runId = run.id then { j with status := .cancelled } else j) =
          (jobsIn s.jobs run.id).map fun j => { j with status := .cancelled } :=
        List.map_congr_left fun j hj => if_pos (mem_jobsIn.mp hj).2
      rw [hall]
      exact (h.agrees run hrun).cancel hjobs

theorem grant (h : Coherent s) {job : JobState} {lease : LeaseState} (hjob : job ∈ s.jobs)
    (hpending : job.status = .pending) (hlease : ∀ l ∈ s.leases, l.id ≠ lease.id)
    (hof : lease.jobId = job.id) (hrun : lease.runId = job.runId) (hactive : lease.active = true) :
    Coherent
      { s with
        jobs := Tables.update s.jobs { job with status := .leased }
        leases := s.leases ++ [lease] } where
  runKeys := h.runKeys
  jobKeys := h.jobKeys.update _
  leaseKeys := h.leaseKeys.append_singleton hlease
  attemptKeys := h.attemptKeys
  runOfJob := h.runOfJob_update hjob _
  jobOfLease := by
    intro l hl
    rcases List.mem_append.mp hl with hl | hl
    · exact h.jobOfLease_update job hjob _ hl
    · rw [List.mem_singleton.mp hl]
      exact ⟨{ job with status := .leased }, mem_update.mpr (Or.inr ⟨rfl, job, hjob, rfl⟩),
        hof.symm, hrun.symm⟩
  leaseOfAttempt := by
    intro a ha
    obtain ⟨l, hl, hP⟩ := h.leaseOfAttempt a ha
    exact ⟨l, List.mem_append_left _ hl, hP⟩
  phase := by
    intro j hj
    rcases mem_update.mp hj with ⟨hj, hne⟩ | ⟨rfl, -⟩
    · rw [activeFor_append (by rw [hof]; exact Ne.symm hne)]
      exact h.phase j hj
    · obtain ⟨hnone, hattempts⟩ := h.nothing_of_pending hjob hpending
      have hsplit : activeFor (s.leases ++ [lease]) job.id = activeFor s.leases job.id ++ [lease] := by
        simp [activeFor, hof, hactive]
      simp only [hsplit, hnone, hattempts]
      exact .leased lease
  agrees := h.agrees_of_same hjob (by simp [hpending]) (by simp)
    (by simp [hpending, deriveRunStatusFromJob])

theorem giveBack (h : Coherent s) {job : JobState} {lease : LeaseState} (hlease : lease ∈ s.leases)
    (hactive : lease.active = true) (hjob : job ∈ s.jobs) (hof : lease.jobId = job.id)
    (hleased : job.status = .leased) :
    Coherent
      { s with
        jobs := Tables.update s.jobs { job with status := .pending }
        leases := Tables.update s.leases { lease with active := false } } where
  runKeys := h.runKeys
  jobKeys := h.jobKeys.update _
  leaseKeys := h.leaseKeys.update _
  attemptKeys := h.attemptKeys
  runOfJob := h.runOfJob_update hjob _
  jobOfLease := by
    intro l hl
    obtain ⟨l', hl', -, hjobId, hrunId⟩ := exists_of_mem_update_lease hlease hl
    rw [← hjobId, ← hrunId]
    exact h.jobOfLease_update job hjob _ hl'
  leaseOfAttempt := fun _ ha => h.leaseOfAttempt_update hlease false ha
  phase := by
    intro j hj
    rcases mem_update.mp hj with ⟨hj, hne⟩ | ⟨rfl, -⟩
    · rw [activeFor_update_other h.leaseKeys hlease (by rw [hof]; exact Ne.symm hne)]
      exact h.phase j hj
    · obtain ⟨l, hl, hattempts⟩ := h.lease_of_leased hjob hleased
      have hmem : lease ∈ activeFor s.leases job.id := mem_activeFor.mpr ⟨hlease, hof, hactive⟩
      rw [hl, List.mem_singleton] at hmem
      simp only [activeFor_close, hl, hattempts]
      simpa [hmem] using Phase.pending
  agrees := h.agrees_of_same hjob (by simp [hleased]) (by simp)
    (by simp [hleased, deriveRunStatusFromJob])

theorem detach (h : Coherent s) {lease : LeaseState} (hlease : lease ∈ s.leases)
    (hjob : ∀ j ∈ s.jobs, j.id = lease.jobId → j.status ≠ .leased) :
    Coherent { s with leases := Tables.update s.leases { lease with active := false } } where
  runKeys := h.runKeys
  jobKeys := h.jobKeys
  leaseKeys := h.leaseKeys.update _
  attemptKeys := h.attemptKeys
  runOfJob := h.runOfJob
  jobOfLease := by
    intro l hl
    obtain ⟨l', hl', -, hjobId, hrunId⟩ := exists_of_mem_update_lease hlease hl
    rw [← hjobId, ← hrunId]
    exact h.jobOfLease l' hl'
  leaseOfAttempt := fun _ ha => h.leaseOfAttempt_update hlease false ha
  phase := by
    intro j hj
    by_cases hid : j.id = lease.jobId
    · have hphase := h.phase j hj
      have hne := hjob j hj hid
      simp only [activeFor_close]
      generalize j.status = st at hphase hne ⊢
      generalize activeFor s.leases j.id = ac at hphase ⊢
      generalize attemptsFor s.attempts j.id = at' at hphase ⊢
      cases hphase with
      | pending => exact .pending
      | cancelled => exact .cancelled
      | leased => exact absurd rfl hne
      | completed a ha => exact .completed a ha
      | failed _ a ha hstatus => exact .failed _ a ha hstatus
      | executing a _ ha hl =>
        refine .executing a _ ha ?_
        rcases hl with rfl | ⟨l, rfl, hl⟩
        · exact Or.inl rfl
        · by_cases hid : l.id = lease.id
          · exact Or.inl (by simp [hid])
          · exact Or.inr ⟨l, by simp [hid], hl⟩
    · rw [activeFor_update_other h.leaseKeys hlease (Ne.symm hid)]
      exact h.phase j hj
  agrees := h.agrees

theorem begin (h : Coherent s) {run : RunState} {job : JobState} {lease : LeaseState}
    {attempt : AttemptState} (hlease : lease ∈ s.leases) (hactive : lease.active = true)
    (hjob : job ∈ s.jobs) (hof : lease.jobId = job.id) (hleased : job.status = .leased)
    (hrunOf : run.id = job.runId) (hattempt : ∀ a ∈ s.attempts, a.id ≠ attempt.id)
    (hajob : attempt.jobId = job.id) (harun : attempt.runId = job.runId)
    (halease : attempt.leaseId = lease.id) (hastatus : attempt.status = .running) :
    Coherent
      { s with
        runs := Tables.update s.runs { run with status := .running }
        jobs := Tables.update s.jobs { job with status := .running }
        attempts := s.attempts ++ [attempt] } where
  runKeys := h.runKeys.update _
  jobKeys := h.jobKeys.update _
  leaseKeys := h.leaseKeys
  attemptKeys := h.attemptKeys.append_singleton hattempt
  runOfJob := fun j hj => exists_run_update run .running (h.runOfJob_update hjob _ j hj)
  jobOfLease := fun _ hl => h.jobOfLease_update job hjob _ hl
  leaseOfAttempt := by
    intro a ha
    rcases List.mem_append.mp ha with ha | ha
    · exact h.leaseOfAttempt a ha
    · rw [List.mem_singleton.mp ha]
      exact ⟨lease, hlease, halease.symm, hof.trans hajob.symm,
        (h.job_of_lease hlease hjob hof).trans harun.symm⟩
  phase := by
    intro j hj
    rcases mem_update.mp hj with ⟨hj, hne⟩ | ⟨rfl, -⟩
    · rw [attemptsFor_append (by rw [hajob]; exact Ne.symm hne)]
      exact h.phase j hj
    · obtain ⟨l, hl, hattempts⟩ := h.lease_of_leased hjob hleased
      have hmem : lease ∈ activeFor s.leases job.id := mem_activeFor.mpr ⟨hlease, hof, hactive⟩
      rw [hl, List.mem_singleton] at hmem
      have hsplit : attemptsFor (s.attempts ++ [attempt]) job.id = [attempt] := by
        have : attemptsFor (s.attempts ++ [attempt]) job.id =
            attemptsFor s.attempts job.id ++ [attempt] := by simp [attemptsFor, hajob]
        rw [this, hattempts, List.nil_append]
      have hexec := Phase.executing attempt [l] (by simp [hastatus, ExecutionAttemptStatus.isActive])
        (Or.inr ⟨l, rfl, by rw [← hmem, halease]⟩)
      simp only [hsplit, hl]
      rwa [hastatus] at hexec
  agrees := by
    have hnext : JobStatus.running ≠ .retry := by simp
    exact h.agrees_of_update hjob (by simp [hleased]) hnext hrunOf

theorem stage (h : Coherent s) {job : JobState} {attempt : AttemptState}
    {target : ExecutionAttemptStatus} (hattempt : attempt ∈ s.attempts)
    (hactive : attempt.status.isActive = true) (htarget : target.isActive = true)
    (hjob : job ∈ s.jobs) (hof : attempt.jobId = job.id) :
    Coherent
      { s with
        jobs := Tables.update s.jobs { job with status := target.toJobStatus }
        attempts := Tables.update s.attempts { attempt with status := target } } := by
  obtain ⟨honly, -, -, -, hphase⟩ := h.attempt_of_job hattempt hjob hof
  obtain ⟨hstatus, hleases⟩ := hphase hactive
  have hrunning : ∀ status : ExecutionAttemptStatus, status.isActive = true →
      status.toJobStatus ≠ .retry ∧ deriveRunStatusFromJob status.toJobStatus = .running := by
    intro status hs
    cases status <;> simp_all [ExecutionAttemptStatus.isActive, ExecutionAttemptStatus.toJobStatus,
      deriveRunStatusFromJob]
  exact
    { runKeys := h.runKeys
      jobKeys := h.jobKeys.update _
      leaseKeys := h.leaseKeys
      attemptKeys := h.attemptKeys.update _
      runOfJob := h.runOfJob_update hjob _
      jobOfLease := fun _ hl => h.jobOfLease_update job hjob _ hl
      leaseOfAttempt := by
        intro a ha
        obtain ⟨a', ha', hl, hj, hr⟩ := exists_of_mem_update_attempt hattempt ha
        rw [← hl, ← hj, ← hr]
        exact h.leaseOfAttempt a' ha'
      phase := by
        intro j hj
        rcases mem_update.mp hj with ⟨hj, hne⟩ | ⟨rfl, -⟩
        · rw [attemptsFor_update_other h.attemptKeys hattempt (by rw [hof]; exact Ne.symm hne)]
          exact h.phase j hj
        · have hself : attemptsFor (Tables.update s.attempts { attempt with status := target }) job.id =
              [{ attempt with status := target }] := by
            rw [← hof] at honly ⊢
            exact attemptsFor_update_self h.attemptKeys hattempt honly target
          simp only [hself]
          exact .executing { attempt with status := target } _ htarget hleases
      agrees := h.agrees_of_same hjob (by rw [hstatus]; exact (hrunning _ hactive).1)
        (hrunning _ htarget).1
        (by rw [hstatus, (hrunning _ hactive).2, (hrunning _ htarget).2]) }

/-- The phases of the stored jobs after an attempt ended, its lease was closed and its job took the
    status `status`. -/
theorem phase_settled (h : Coherent s) {job : JobState} {lease : LeaseState}
    {attempt : AttemptState} {outcome : ExecutionAttemptStatus} {status : JobStatus}
    (hattempt : attempt ∈ s.attempts) (hactive : attempt.status.isActive = true)
    (hjob : job ∈ s.jobs) (hof : attempt.jobId = job.id) (hlease : lease ∈ s.leases)
    (hleaseOf : lease.id = attempt.leaseId)
    (hend : Phase status [] [{ attempt with status := outcome }]) :
    ∀ j ∈ Tables.update s.jobs { job with status },
      Phase j.status (activeFor (Tables.update s.leases { lease with active := false }) j.id)
        (attemptsFor (Tables.update s.attempts { attempt with status := outcome }) j.id) := by
  obtain ⟨honly, -, -, -, hphase⟩ := h.attempt_of_job hattempt hjob hof
  obtain ⟨-, hleases⟩ := hphase hactive
  have hleaseJob : lease.jobId = job.id := (h.lease_of_attempt hattempt hlease hleaseOf).1.trans hof
  intro j hj
  rcases mem_update.mp hj with ⟨hj, hne⟩ | ⟨rfl, -⟩
  · rw [activeFor_update_other h.leaseKeys hlease (by rw [hleaseJob]; exact Ne.symm hne),
      attemptsFor_update_other h.attemptKeys hattempt (by rw [hof]; exact Ne.symm hne)]
    exact h.phase j hj
  · have hself : attemptsFor (Tables.update s.attempts { attempt with status := outcome }) job.id =
        [{ attempt with status := outcome }] := by
      rw [← hof] at honly ⊢
      exact attemptsFor_update_self h.attemptKeys hattempt honly outcome
    have hnone : activeFor (Tables.update s.leases { lease with active := false }) job.id = [] := by
      rw [activeFor_close]
      rcases hleases with hnil | ⟨l, hl, hid⟩
      · simp [hnil]
      · simp [hl, hid, hleaseOf]
    simp only [hself, hnone]
    exact hend

theorem finish (h : Coherent s) {run : RunState} {job : JobState} {lease : LeaseState}
    {attempt : AttemptState} {outcome : ExecutionAttemptStatus} {status : JobStatus}
    (hattempt : attempt ∈ s.attempts) (hactive : attempt.status.isActive = true)
    (hjob : job ∈ s.jobs) (hof : attempt.jobId = job.id) (hlease : lease ∈ s.leases)
    (hleaseOf : lease.id = attempt.leaseId) (hrunOf : run.id = job.runId)
    (hend : outcome = .completed ∧ status = .completed ∨
      outcome = .failed ∧ (status = .failed ∨ status = .deadLetter)) :
    Coherent
      { runs := Tables.update s.runs { run with status := deriveRunStatusFromJob status }
        jobs := Tables.update s.jobs { job with status }
        leases := Tables.update s.leases { lease with active := false }
        attempts := Tables.update s.attempts { attempt with status := outcome } } := by
  have hnotRetry : status ≠ .retry := by
    rcases hend with ⟨-, rfl⟩ | ⟨-, rfl | rfl⟩ <;> simp
  have hjobStatus : job.status ≠ .retry := by
    rw [((h.attempt_of_job hattempt hjob hof).2.2.2.2 hactive).1]
    cases attempt.status <;> simp [ExecutionAttemptStatus.toJobStatus]
  exact
    { runKeys := h.runKeys.update _
      jobKeys := h.jobKeys.update _
      leaseKeys := h.leaseKeys.update _
      attemptKeys := h.attemptKeys.update _
      runOfJob := fun j hj => exists_run_update run _ (h.runOfJob_update hjob _ j hj)
      jobOfLease := by
        intro l hl
        obtain ⟨l', hl', -, hj, hr⟩ := exists_of_mem_update_lease hlease hl
        rw [← hj, ← hr]
        exact h.jobOfLease_update job hjob _ hl'
      leaseOfAttempt := by
        intro a ha
        obtain ⟨a', ha', hl, hj, hr⟩ := exists_of_mem_update_attempt hattempt ha
        rw [← hl, ← hj, ← hr]
        exact h.leaseOfAttempt_update hlease false ha'
      phase := by
        refine h.phase_settled hattempt hactive hjob hof hlease hleaseOf ?_
        rcases hend with ⟨rfl, rfl⟩ | ⟨rfl, hstatus⟩
        · exact .completed _ rfl
        · exact .failed _ _ rfl (hstatus.imp id Or.inl)
      agrees := h.agrees_of_update hjob hjobStatus hnotRetry hrunOf }

theorem retry (h : Coherent s) {run : RunState} {job next : JobState} {lease : LeaseState}
    {attempt : AttemptState} (hattempt : attempt ∈ s.attempts)
    (hactive : attempt.status.isActive = true) (hjob : job ∈ s.jobs) (hof : attempt.jobId = job.id)
    (hlease : lease ∈ s.leases) (hleaseOf : lease.id = attempt.leaseId) (hrun : run ∈ s.runs)
    (hrunOf : run.id = job.runId) (hnext : ∀ j ∈ s.jobs, j.id ≠ next.id)
    (hnextRun : next.runId = job.runId) (hnextAttempt : next.attempt = job.attempt + 1)
    (hnextMax : next.maxAttempts = job.maxAttempts) (hleft : job.attempt < job.maxAttempts)
    (hnextStatus : next.status = .pending) :
    Coherent
      { runs := Tables.update s.runs { run with status := .pending }
        jobs := Tables.update s.jobs { job with status := .retry } ++ [next]
        leases := Tables.update s.leases { lease with active := false }
        attempts := Tables.update s.attempts { attempt with status := .failed } } := by
  have hjobStatus : job.status ≠ .retry := by
    rw [((h.attempt_of_job hattempt hjob hof).2.2.2.2 hactive).1]
    cases attempt.status <;> simp [ExecutionAttemptStatus.toJobStatus]
  have hfresh : ∀ j ∈ Tables.update s.jobs { job with status := .retry }, j.id ≠ next.id := by
    intro j hj
    rcases mem_update.mp hj with ⟨hj, -⟩ | ⟨rfl, -⟩
    · exact hnext j hj
    · exact hnext job hjob
  have hjobOfLease : ∀ l ∈ Tables.update s.leases { lease with active := false },
      ∃ j ∈ Tables.update s.jobs { job with status := .retry }, j.id = l.jobId ∧ j.runId = l.runId := by
    intro l hl
    obtain ⟨l', hl', -, hj, hr⟩ := exists_of_mem_update_lease hlease hl
    rw [← hj, ← hr]
    exact h.jobOfLease_update job hjob _ hl'
  have hleaseOfAttempt : ∀ a ∈ Tables.update s.attempts { attempt with status := .failed },
      ∃ l ∈ Tables.update s.leases { lease with active := false },
        l.id = a.leaseId ∧ l.jobId = a.jobId ∧ l.runId = a.runId := by
    intro a ha
    obtain ⟨a', ha', hl, hj, hr⟩ := exists_of_mem_update_attempt hattempt ha
    rw [← hl, ← hj, ← hr]
    exact h.leaseOfAttempt_update hlease false ha'
  exact
    { runKeys := h.runKeys.update _
      jobKeys := (h.jobKeys.update _).append_singleton hfresh
      leaseKeys := h.leaseKeys.update _
      attemptKeys := h.attemptKeys.update _
      runOfJob := by
        intro j hj
        rcases List.mem_append.mp hj with hj | hj
        · exact exists_run_update run _ (h.runOfJob_update hjob _ j hj)
        · rw [List.mem_singleton.mp hj, hnextRun, ← hrunOf]
          exact exists_run_update run _ ⟨run, hrun, rfl⟩
      jobOfLease := by
        intro l hl
        obtain ⟨j, hj, hP⟩ := hjobOfLease l hl
        exact ⟨j, List.mem_append_left _ hj, hP⟩
      leaseOfAttempt := hleaseOfAttempt
      phase := by
        intro j hj
        rcases List.mem_append.mp hj with hj | hj
        · exact h.phase_settled hattempt hactive hjob hof hlease hleaseOf
            (.failed _ _ rfl (Or.inr (Or.inr rfl))) j hj
        · have hnone : activeFor (Tables.update s.leases { lease with active := false }) next.id = [] := by
            refine List.filter_eq_nil_iff.mpr fun l hl hp => ?_
            obtain ⟨j', hj', hid, -⟩ := hjobOfLease l hl
            simp only [Bool.and_eq_true, decide_eq_true_eq] at hp
            exact hfresh j' hj' (hid.trans hp.1)
          have hnoAttempt :
              attemptsFor (Tables.update s.attempts { attempt with status := .failed }) next.id = [] := by
            refine List.filter_eq_nil_iff.mpr fun a ha hp => ?_
            obtain ⟨l, hl, -, hlj, -⟩ := hleaseOfAttempt a ha
            obtain ⟨j', hj', hid, -⟩ := hjobOfLease l hl
            simp only [decide_eq_true_eq] at hp
            exact hfresh j' hj' (hid.trans (hlj.trans hp))
          rw [List.mem_singleton.mp hj, hnone, hnoAttempt, hnextStatus]
          exact .pending
      agrees := by
        intro r hr
        rw [jobsIn_append]
        rcases mem_update.mp hr with ⟨hr, hid⟩ | ⟨rfl, -⟩
        · have hid' : r.id ≠ run.id := hid
          have hne : job.runId ≠ r.id := by rw [← hrunOf]; exact Ne.symm hid'
          rw [if_neg (by rw [hnextRun]; exact hne), List.append_nil,
            jobsIn_update_other h.jobKeys hjob hne]
          exact h.agrees r hr
        · have hagree := h.agrees run hrun
          rw [hrunOf] at hagree
          rw [if_pos (hnextRun.trans hrunOf.symm)]
          simp only [hrunOf]
          rw [jobsIn_update_self h.jobKeys hjob]
          exact hagree.retry (h.jobKeys.filter _) (mem_jobsIn.mpr ⟨hjob, rfl⟩) hjobStatus
            hnextStatus hnextAttempt hnextMax hleft }

end Coherent

/-- Every move the protocol allows keeps the state coherent. -/
theorem Move.coherent {s t : State} (hmove : Move s t) (h : Coherent s) : Coherent t := by
  cases hmove with
  | dispatch hrun hjob hruns hjobs hof hfirst hmax =>
    exact h.dispatch hrun hjob hruns hjobs hof hfirst hmax
  | cancel hrun hjobs => exact h.cancel hrun hjobs
  | grant hjob hpending hlease hof hrun hactive =>
    exact h.grant hjob hpending hlease hof hrun hactive
  | giveBack hlease hactive hjob hof hleased => exact h.giveBack hlease hactive hjob hof hleased
  | detach hlease hjob => exact h.detach hlease hjob
  | begin hlease hactive hjob hof hleased _ hrunOf hattempt hajob harun halease hastatus =>
    exact h.begin hlease hactive hjob hof hleased hrunOf hattempt hajob harun halease hastatus
  | stage hattempt hactive htarget hjob hof => exact h.stage hattempt hactive htarget hjob hof
  | finish hattempt hactive hjob hof hlease hleaseOf _ hrunOf hend =>
    exact h.finish hattempt hactive hjob hof hlease hleaseOf hrunOf hend
  | retry hattempt hactive hjob hof hlease hleaseOf hrun hrunOf hnext hnextRun hnextAttempt hnextMax
      hleft hnextStatus =>
    exact h.retry hattempt hactive hjob hof hlease hleaseOf hrun hrunOf hnext hnextRun hnextAttempt
      hnextMax hleft hnextStatus

theorem coherent_of_steps {s t : State} (h : Coherent s) (hsteps : Transitions.Steps Move s t) :
    Coherent t :=
  hsteps.invariant (fun _ _ hmove hs => hmove.coherent hs) h

/-! ### What is never granted or started again -/

/-- The leases ever granted, each with its job. -/
def State.granted (s : State) : List (Id × Id) := s.leases.map fun l => (l.id, l.jobId)

/-- The attempts ever started, each with its job. -/
def State.started (s : State) : List (Id × Id) := s.attempts.map fun a => (a.id, a.jobId)

theorem granted_update {leases : List LeaseState} (hu : KeysUnique leases) {lease : LeaseState}
    (hl : lease ∈ leases) (active : Bool) :
    (Tables.update leases { lease with active }).map (fun l => (l.id, l.jobId)) =
      leases.map fun l => (l.id, l.jobId) := by
  refine map_update_of_eq (fun l : LeaseState => (l.id, l.jobId)) fun x hx hk => ?_
  have : x = lease := hu.eq_of_key hx hl hk
  rw [this]

theorem started_update {attempts : List AttemptState} (hu : KeysUnique attempts)
    {attempt : AttemptState} (ha : attempt ∈ attempts) (status : ExecutionAttemptStatus) :
    (Tables.update attempts { attempt with status }).map (fun a => (a.id, a.jobId)) =
      attempts.map fun a => (a.id, a.jobId) := by
  refine map_update_of_eq (fun a : AttemptState => (a.id, a.jobId)) fun x hx hk => ?_
  have : x = attempt := hu.eq_of_key hx ha hk
  rw [this]

/-- A move grants no lease, or one for a pending job. -/
theorem Move.granted {s t : State} (hmove : Move s t) (h : Coherent s) :
    t.granted = s.granted ∨
      ∃ job ∈ s.jobs, job.status = .pending ∧ ∃ id, t.granted = s.granted ++ [(id, job.id)] := by
  cases hmove with
  | dispatch | cancel | begin | stage => exact Or.inl rfl
  | @grant job lease hjob hpending _ hof _ _ =>
    refine Or.inr ⟨job, hjob, hpending, lease.id, ?_⟩
    simp [State.granted, hof]
  | giveBack hlease | detach hlease => exact Or.inl (granted_update h.leaseKeys hlease false)
  | finish _ _ _ _ hlease => exact Or.inl (granted_update h.leaseKeys hlease false)
  | retry _ _ _ _ hlease => exact Or.inl (granted_update h.leaseKeys hlease false)

/-- A move starts no attempt, or one for a leased job. -/
theorem Move.started {s t : State} (hmove : Move s t) (h : Coherent s) :
    t.started = s.started ∨
      ∃ job ∈ s.jobs, job.status = .leased ∧ ∃ id, t.started = s.started ++ [(id, job.id)] := by
  cases hmove with
  | dispatch | cancel | grant | giveBack | detach => exact Or.inl rfl
  | @begin run job lease attempt _ _ hjob _ hleased _ _ _ hajob _ _ _ =>
    refine Or.inr ⟨job, hjob, hleased, attempt.id, ?_⟩
    simp [State.started, hajob]
  | stage hattempt => exact Or.inl (started_update h.attemptKeys hattempt _)
  | finish hattempt => exact Or.inl (started_update h.attemptKeys hattempt _)
  | retry hattempt => exact Or.inl (started_update h.attemptKeys hattempt _)

theorem attemptsFor_eq_nil {s : State} {job : Id} :
    attemptsFor s.attempts job = [] ↔ s.started.filter (fun p => decide (p.2 = job)) = [] := by
  simp [attemptsFor, State.started, List.filter_eq_nil_iff]

/-- Once a job has an attempt it is never leased again and never gets another one. -/
theorem granted_started_of_steps {s t : State} {job : Id} (h : Coherent s)
    (hsteps : Transitions.Steps Move s t) (hattempt : attemptsFor s.attempts job ≠ []) :
    t.granted.filter (fun p => decide (p.2 = job)) = s.granted.filter (fun p => decide (p.2 = job)) ∧
      t.started.filter (fun p => decide (p.2 = job)) =
        s.started.filter (fun p => decide (p.2 = job)) := by
  induction hsteps with
  | refl => exact ⟨rfl, rfl⟩
  | @tail u v hsteps hmove ih =>
    have hu := coherent_of_steps h hsteps
    have hnone : ∀ j ∈ u.jobs, (j.status = .pending ∨ j.status = .leased) → j.id ≠ job := by
      intro j hj hstatus hid
      refine hattempt (attemptsFor_eq_nil.mpr ?_)
      rw [← ih.2, ← attemptsFor_eq_nil, ← hid]
      rcases hstatus with hpending | hleased
      · exact (hu.nothing_of_pending hj hpending).2
      · obtain ⟨_, -, hnil⟩ := hu.lease_of_leased hj hleased
        exact hnil
    constructor
    · rcases hmove.granted hu with hsame | ⟨j, hj, hpending, id, happend⟩
      · rw [hsame, ih.1]
      · rw [happend, List.filter_append, ih.1]
        simp [hnone j hj (Or.inl hpending)]
    · rcases hmove.started hu with hsame | ⟨j, hj, hleased, id, happend⟩
      · rw [hsame, ih.2]
      · rw [happend, List.filter_append, ih.2]
        simp [hnone j hj (Or.inr hleased)]

end MarkorbitKnowledge.Execution.Protocol
