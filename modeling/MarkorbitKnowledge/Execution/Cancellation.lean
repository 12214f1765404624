import MarkorbitKnowledge.Execution.Validity

/-!
# Cancelling a pending run

`cancel` takes a run that is PENDING and cancels it together with all its jobs, each of which has to
be PENDING too.  A run that waits for a retry is PENDING, and its earlier jobs are RETRY for good, so
such a run is refused: `cancel_iff_never_retried` says that exactly the runs that were never retried
can be cancelled.  A cancelled run stays as it is, and no claim returns a job of it.
-/

namespace MarkorbitKnowledge.Execution

open Contracts Fallible Transitions
open Protocol (Move Coherent RunState JobState)
open Tables (KeysUnique mem_of_find? key_of_find?)

/-! ### Cancelled runs -/

namespace Protocol

/-- The run is stored and all its jobs are CANCELLED. -/
structure Dropped (run : Id) (s : State) : Prop where
  stored : ∃ r ∈ s.runs, r.id = run
  jobs : ∀ j ∈ s.jobs, j.runId = run → j.status = .cancelled

/-- A job that is not CANCELLED is not a job of a dropped run, and may change. -/
theorem Dropped.jobs_update {run : Id} {s : State} (h : Dropped run s) {job : JobState}
    (hjob : job ∈ s.jobs) (hstatus : job.status ≠ .cancelled) (status : JobStatus) :
    ∀ j ∈ Tables.update s.jobs { job with status }, j.runId = run → j.status = .cancelled :=
  Tables.forall_mem_update (P := fun j : JobState => j.runId = run → j.status = .cancelled) h.jobs
    fun hof => absurd (h.jobs job hjob hof) hstatus

theorem stored_update {run : Id} {runs : List RunState} (h : ∃ r ∈ runs, r.id = run)
    (updated : RunState) : ∃ r ∈ Tables.update runs updated, r.id = run := by
  obtain ⟨r, hr, hid⟩ := h
  by_cases heq : r.id = updated.id
  · exact ⟨updated, Tables.mem_update.mpr (Or.inr ⟨rfl, r, hr, heq⟩), heq.symm.trans hid⟩
  · exact ⟨r, Tables.mem_update.mpr (Or.inl ⟨hr, heq⟩), hid⟩

theorem Move.dropped {run : Id} {s t : State} (hmove : Move s t) (hc : Coherent s)
    (h : Dropped run s) : Dropped run t := by
  cases hmove with
  | dispatch hrun hjob hruns hjobs hof =>
    obtain ⟨r, hr, hid⟩ := h.stored
    refine ⟨⟨r, List.mem_append_left _ hr, hid⟩, fun j hj hofRun => ?_⟩
    rcases List.mem_append.mp hj with hj | hj
    · exact h.jobs j hj hofRun
    · rw [List.mem_singleton.mp hj, hof] at hofRun
      exact absurd (hid.trans hofRun.symm) (hrun r hr)
  | cancel hrun hjobs =>
    refine ⟨stored_update h.stored _, fun j hj hofRun => ?_⟩
    obtain ⟨j, hmem, rfl⟩ := List.mem_map.mp hj
    split_ifs at hofRun ⊢
    · rfl
    · exact h.jobs j hmem hofRun
  | grant hjob hpending => exact ⟨h.stored, h.jobs_update hjob (by simp [hpending]) _⟩
  | giveBack _ _ hjob _ hleased => exact ⟨h.stored, h.jobs_update hjob (by simp [hleased]) _⟩
  | detach => exact ⟨h.stored, h.jobs⟩
  | begin _ _ hjob _ hleased =>
    exact ⟨stored_update h.stored _, h.jobs_update hjob (by simp [hleased]) _⟩
  | stage hattempt _ _ hjob hof =>
    obtain ⟨-, -, -, hstatus, -⟩ := hc.attempt_of_job hattempt hjob hof
    exact ⟨h.stored, h.jobs_update hjob hstatus _⟩
  | finish hattempt _ hjob hof =>
    obtain ⟨-, -, -, hstatus, -⟩ := hc.attempt_of_job hattempt hjob hof
    exact ⟨stored_update h.stored _, h.jobs_update hjob hstatus _⟩
  | retry hattempt _ hjob hof _ _ _ _ _ hnextRun =>
    obtain ⟨-, -, -, hstatus, -⟩ := hc.attempt_of_job hattempt hjob hof
    refine ⟨stored_update h.stored _, fun j hj hofRun => ?_⟩
    rcases List.mem_append.mp hj with hj | hj
    · exact h.jobs_update hjob hstatus _ j hj hofRun
    · rw [List.mem_singleton.mp hj, hnextRun] at hofRun
      exact absurd (h.jobs _ hjob hofRun) hstatus

theorem dropped_of_steps {run : Id} {s t : State} (hsteps : Steps Move s t) (hc : Coherent s)
    (h : Dropped run s) : Dropped run t :=
  (Steps.invariant (P := fun s => Coherent s ∧ Dropped run s)
    (fun _ _ hmove hs => ⟨hmove.coherent hs.1, hmove.dropped hs.1 hs.2⟩) hsteps ⟨hc, h⟩).2

end Protocol

/-! ### Claims -/

/-- The job a claim returns was stored and PENDING after the reap. -/
theorem claimJobInTransaction_job {platform : Platform} {options : WorkerProtocolOptions}
    {db db' : Database} {worker : WorkerDefinition} {job : Job} {inputs : ClaimInputs}
    {result : ClaimResult} (hc : Coherent (view db)) (hjob : job ∈ db.jobs)
    (h : claimJobInTransaction platform options db worker job inputs = .ok (result, db')) :
    job.status = .pending ∧ result.job = some { job with status := .leased, updatedAt := inputs.now } := by
  simp only [claimJobInTransaction, jobWithStatus, bind_eq_ok, require_eq_ok, pure_eq_ok,
    Prod.mk.injEq] at h
  obtain ⟨_, -, _, ⟨_, -, rfl⟩, _, ⟨stored, hstored, hid, hpending⟩, _, -, rfl, -⟩ := h
  have : stored = job := (jobKeys_of_coherent hc).eq_of_key hstored hjob hid
  exact ⟨this ▸ hpending, rfl⟩

section Claims

variable {platform : Platform} {options : WorkerProtocolOptions} {db db' : Database}
  {workerId : Id} {credential : String} {inputs : ClaimInputs} {result : ClaimResult} {run : Id}

/-- A claim returns no job of a dropped run. -/
theorem not_claimed_of_dropped (hc : Coherent (view db)) (h : Protocol.Dropped run (view db))
    (hclaim : claim platform options workerId credential inputs db = .ok (result, db')) :
    ∀ job ∈ result.job, job.runId ≠ run := by
  simp only [claim, bind_eq_ok] at hclaim
  obtain ⟨⟨worker, reaped⟩, hbegin, candidates, hcandidates, _, -, hclaim⟩ := hclaim
  have hrefined := beginClaim_refines platform options workerId credential inputs db worker reaped hc
    hbegin
  have hdropped := Protocol.dropped_of_steps hrefined.steps hc h
  split at hclaim
  · simp only [pure_eq_ok, Prod.mk.injEq] at hclaim
    obtain ⟨rfl, -⟩ := hclaim
    simp
  · rename_i job hfind
    rw [mapM_guarded (fun _ _ => parseJob_eq_ok), List.map_id'] at hcandidates
    obtain ⟨-, rfl⟩ := hcandidates
    have hmem := List.mem_of_mem_take (List.mem_of_find?_eq_some hfind)
    simp only [List.mem_insertionSort, List.mem_filter] at hmem
    obtain ⟨hpending, hjob⟩ := claimJobInTransaction_job (hrefined.coherent hc) hmem.1 hclaim
    rw [hjob]
    rintro _ ⟨rfl⟩ hof
    have hcancelled : job.status = .cancelled := hdropped.jobs _ (mem_view_job hmem.1) hof
    simp [hpending] at hcancelled

theorem not_claimedSpecific_of_dropped {jobId : Id} (hc : Coherent (view db))
    (h : Protocol.Dropped run (view db))
    (hclaim : claimSpecific platform options workerId credential jobId inputs db =
      .ok (result, db')) :
    ∀ job ∈ result.job, job.runId ≠ run := by
  simp only [claimSpecific, bind_eq_ok, require_eq_ok, orThrow_eq_ok, parseJob_eq_ok] at hclaim
  obtain ⟨⟨worker, reaped⟩, hbegin, job, hfind, _, ⟨-, rfl⟩, _, -, _, -, _, -, _, -, hclaim⟩ := hclaim
  have hrefined := beginClaim_refines platform options workerId credential inputs db worker reaped hc
    hbegin
  have hdropped := Protocol.dropped_of_steps hrefined.steps hc h
  have hstored := mem_of_find? hfind
  obtain ⟨hpending, hjob⟩ := claimJobInTransaction_job (hrefined.coherent hc) hstored hclaim
  rw [hjob]
  rintro _ ⟨rfl⟩ hof
  have hcancelled : job.status = .cancelled := hdropped.jobs _ (mem_view_job hstored) hof
  simp [hpending] at hcancelled

end Claims

/-! ### Which runs can be cancelled -/

/-- A reason, if there is one, has at most 500 characters. -/
def AdmissibleReason (reason : Option String) : Prop := ∀ text ∈ reason, jsLength (trim text) ≤ 500

theorem jsLength_pos {s : String} (h : s ≠ "") : 0 < jsLength s := by
  cases hlist : s.toList with
  | nil => exact absurd (String.toList_eq_nil_iff.mp hlist) h
  | cons c cs =>
    rw [jsLength, hlist, List.map_cons, List.sum_cons]
    split <;> omega

/-- The reason a cancellation stores satisfies the contract. -/
theorem cancellationFields_valid {reason : Option String} (h : AdmissibleReason reason)
    {now : Timestamp} (hnow : isRfc3339 now = true) :
    cancellationFieldsAreValid true (some now) ((reason.map trim).filter (· ≠ "") <|> none) = true := by
  cases reason with
  | none => simp [cancellationFieldsAreValid, hnow]
  | some text =>
    have hlength := h text rfl
    by_cases hempty : trim text = ""
    · simp [cancellationFieldsAreValid, hnow, hempty]
    · have hpositive := jsLength_pos hempty
      simp [cancellationFieldsAreValid, hnow, hempty, hlength, hpositive]

/-- The fields of a document that is not CANCELLED. -/
theorem cancellationFields_eq_none {cancelledAt : Option Timestamp} {reason : Option String}
    (h : cancellationFieldsAreValid false cancelledAt reason = true) :
    cancelledAt = none ∧ reason = none := by
  simpa [cancellationFieldsAreValid] using h

theorem isCollectionRun_cancelled {run : CollectionRun} (hrun : isCollectionRun run = true)
    (hpending : run.status = .pending) {now : Timestamp} (hnow : isRfc3339 now = true)
    {reason : Option String} (hreason : AdmissibleReason reason) :
    isCollectionRun (cancelledRun run now (reason.map trim)) = true := by
  have hfields := cancellationFields_valid hreason hnow
  simp only [isCollectionRun, Bool.and_eq_true, hpending] at hrun
  obtain ⟨-, hnone⟩ := cancellationFields_eq_none hrun.2
  simp only [isCollectionRun, cancelledRun, Bool.and_eq_true, hnow, hnone, hfields, decide_true,
    and_true]
  tauto

theorem isJob_cancelled {job : Job} (hjob : isJob job = true) (hpending : job.status = .pending)
    {now : Timestamp} (hnow : isRfc3339 now = true) {reason : Option String}
    (hreason : AdmissibleReason reason) :
    isJob (cancelledJob job now (reason.map trim)) = true := by
  have hfields := cancellationFields_valid hreason hnow
  simp only [isJob, Bool.and_eq_true, hpending] at hjob
  obtain ⟨-, hnone⟩ := cancellationFields_eq_none hjob.2
  simp only [isJob, cancelledJob, Bool.and_eq_true, hnow, hnone, hfields, decide_true,
    and_true]
  tauto

/-- The jobs of a run can be cancelled one after another if all are stored as PENDING. -/
theorem foldlM_cancelPendingJob_ok {jobs : List Job} (hkeys : KeysUnique jobs) :
    ∀ {db : Database}, (∀ job ∈ jobs, ∃ stored ∈ db.jobs, stored.id = job.id ∧
      stored.status = .pending) → ∃ db', jobs.foldlM cancelPendingJob db = .ok db' := by
  induction jobs with
  | nil => exact fun {db} _ => ⟨db, rfl⟩
  | cons job jobs ih =>
    intro db hstored
    rw [KeysUnique, List.map_cons, List.nodup_cons] at hkeys
    obtain ⟨db', hrest⟩ := @ih hkeys.2 { db with jobs := Tables.update db.jobs job }
      fun other hother => by
        obtain ⟨stored, hmem, hid, hpending⟩ := hstored other (List.mem_cons_of_mem _ hother)
        have hne : stored.id ≠ job.id := fun heq =>
          hkeys.1 (List.mem_map.mpr ⟨other, hother, hid.symm.trans heq⟩)
        exact ⟨stored, Tables.mem_update.mpr (Or.inl ⟨hmem, hne⟩), hid, hpending⟩
    have hfirst : cancelPendingJob db job =
        .ok { db with jobs := Tables.update db.jobs job } := by
      simp only [cancelPendingJob, bind_eq_ok, require_eq_ok, pure_eq_ok]
      exact ⟨(), hstored job List.mem_cons_self, trivial⟩
    exact ⟨db', by rw [List.foldlM_cons, hfirst, ok_bind, hrest]⟩

/-- A run can be cancelled exactly when all its jobs are PENDING, for an admissible reason and at an
    instant the contract accepts. -/
theorem cancel_isOk_iff {options : WorkerProtocolOptions} {db : Database} (hc : Coherent (view db))
    (hvalid : Valid options db) {run : CollectionRun} (hrun : run ∈ db.runs)
    (hpending : run.status = .pending) {input : CancelRunInput}
    (hexpected : input.expectedUpdatedAt = run.updatedAt) {now : Timestamp} :
    (∃ result, cancel run.id input now db = .ok result) ↔
      (∀ job ∈ jobsOfRun db run.id, job.status = .pending) ∧ AdmissibleReason input.reason ∧
        isRfc3339 now = true := by
  have hfind : Tables.find? db.runs run.id = some run := (runKeys_of_coherent hc).find?_of_mem hrun
  constructor
  · rintro ⟨⟨record, db'⟩, h⟩
    simp only [cancel, recordFromRun, bind_eq_ok, require_eq_ok, orThrow_eq_ok, parseRun_eq_ok,
      pure_eq_ok, hfind, Option.some.injEq] at h
    obtain ⟨_, rfl, _, ⟨_, ⟨-, rfl⟩, jobs, hjobs, rfl⟩, _, -, _, -, _, hreason, jobs', hjobs', _,
      ⟨hcancelled, -⟩, _⟩ := h
    rw [mapM_guarded (c := fun job : Job => job.status = .pending)
      (g := fun job => cancelledJob job now (input.reason.map trim)) (by simp)] at hjobs'
    refine ⟨fun job hjob => hjobs'.1 job ((jobsForRun_perm hjobs).mem_iff.mpr hjob),
      fun text htext => ?_, ?_⟩
    · exact hreason (trim text) (Option.mem_map_of_mem _ htext)
    · simp only [isCollectionRun, cancelledRun, Bool.and_eq_true] at hcancelled
      tauto
  · rintro ⟨hall, hreason, hnow⟩
    obtain ⟨jobs, hjobs, hjobsValid⟩ : ∃ jobs, jobsForRun db run.id = .ok jobs ∧
        ∀ job ∈ jobs, isJob job = true := by
      have hparse : ((jobsOfRun db run.id).insertionSort jobOrder).mapM parseJob =
          .ok (((jobsOfRun db run.id).insertionSort jobOrder).map id) ↔ _ :=
        mapM_guarded (fun _ _ => parseJob_eq_ok)
      have hmem : ∀ job ∈ (jobsOfRun db run.id).insertionSort jobOrder, isJob job = true :=
        fun job hjob => hvalid.jobs job
          (List.mem_filter.mp ((List.perm_insertionSort _ _).mem_iff.mp hjob)).1
      rw [List.map_id] at hparse
      exact ⟨_, hparse.mpr ⟨hmem, List.map_id' _⟩, hmem⟩
    have hperm := jobsForRun_perm hjobs
    have hpendings : ∀ job ∈ jobs, job.status = .pending := fun job hjob =>
      hall job (hperm.mem_iff.mp hjob)
    let cancelled := jobs.map fun job => cancelledJob job now (input.reason.map trim)
    have hcancelledKeys : KeysUnique cancelled := by
      rw [Tables.keysUnique_map (fun job => cancelledJob job now (input.reason.map trim)) fun _ => rfl]
      exact (hperm.map Tables.key).nodup_iff.mpr ((jobKeys_of_coherent hc).filter _)
    let run' := cancelledRun run now (input.reason.map trim)
    obtain ⟨db', hfold⟩ := @foldlM_cancelPendingJob_ok _ hcancelledKeys
      { db with runs := Tables.update db.runs run' } fun job hjob => by
        obtain ⟨job, hmem, rfl⟩ := List.mem_map.mp hjob
        exact ⟨job, (List.mem_filter.mp (hperm.mem_iff.mp hmem)).1, rfl, hpendings job hmem⟩
    refine ⟨(⟨run', cancelled⟩, db'), ?_⟩
    simp only [cancel, recordFromRun, bind_eq_ok, require_eq_ok, orThrow_eq_ok, parseRun_eq_ok,
      pure_eq_ok]
    refine ⟨run, hfind, ⟨run, jobs⟩, ⟨run, ⟨hvalid.runs run hrun, rfl⟩, jobs, hjobs, rfl⟩, (),
      hexpected.symm, (), hpending, (), fun text htext => ?_, cancelled, ?_, (), ⟨?_, ?_⟩, (),
      ⟨run, hrun, rfl, hexpected.symm⟩, db', hfold, rfl⟩
    · obtain ⟨given, hgiven, rfl⟩ := Option.mem_map.mp htext
      exact hreason given hgiven
    · exact (mapM_guarded (c := fun job : Job => job.status = .pending)
        (g := fun job => cancelledJob job now (input.reason.map trim)) (by simp)).mpr
        ⟨hpendings, rfl⟩
    · exact isCollectionRun_cancelled (hvalid.runs run hrun) hpending hnow hreason
    · refine List.all_eq_true.mpr fun job hjob => ?_
      obtain ⟨job, hmem, rfl⟩ := List.mem_map.mp hjob
      exact isJob_cancelled (hjobsValid job hmem) (hpendings job hmem) hnow hreason

/-! ### Every run -/

/-- A successful cancellation drops the run: it is CANCELLED with all its jobs. -/
theorem cancel_drops {id : Id} {input : CancelRunInput} {now : Timestamp} {db db' : Database}
    {record : ExecutionRunRecord} (hc : Coherent (view db))
    (h : cancel id input now db = .ok (record, db')) :
    (∃ run ∈ db'.runs, run.id = id ∧ run.status = .cancelled) ∧
      ∀ job ∈ jobsOfRun db' id, job.status = .cancelled := by
  obtain ⟨run, hrun, rfl, -, rfl⟩ := cancel_spec (jobKeys_of_coherent hc) h
  constructor
  · exact ⟨cancelledRun run now (input.reason.map trim),
      Tables.mem_update.mpr (Or.inr ⟨rfl, run, hrun, rfl⟩), rfl, rfl⟩
  · intro job hjob
    obtain ⟨hmem, hof⟩ := List.mem_filter.mp hjob
    obtain ⟨before, -, rfl⟩ := List.mem_map.mp hmem
    rw [decide_eq_true_eq] at hof
    split_ifs at hof ⊢ with hrunOf
    · rfl
    · exact absurd hof hrunOf

theorem dropped_of_cancelled {id : Id} {db : Database}
    (hrun : ∃ run ∈ db.runs, run.id = id ∧ run.status = .cancelled)
    (hjobs : ∀ job ∈ jobsOfRun db id, job.status = .cancelled) :
    Protocol.Dropped id (view db) := by
  obtain ⟨run, hrun, hid, -⟩ := hrun
  refine ⟨⟨viewRun run, mem_view_run hrun, hid⟩, fun j hj hof => ?_⟩
  obtain ⟨job, hjob, rfl⟩ := List.mem_map.mp hj
  exact hjobs job (List.mem_filter.mpr ⟨hjob, decide_eq_true hof⟩)

variable (platform : Platform) (options : WorkerProtocolOptions)

/-- In every reachable state, a PENDING run whose newest job is PENDING can be cancelled, under its
    current version, exactly when it was never retried, the reason has at most 500 characters and the
    clock shows an instant the contract accepts.  Then the run and all its jobs are CANCELLED and no
    later claim returns a job of it; a cancellation that fails, of any run, changes nothing. -/
theorem cancel_iff_never_retried (ops : List Op) :
    let db := (machine platform options).run ops
    (∀ run ∈ db.runs, run.status = .pending →
      ∀ newest, (jobsOfRun db run.id).getLast? = some newest → newest.status = .pending →
      ∀ reason now,
        let outcome := commit (cancel run.id ⟨run.updatedAt, reason⟩ now) db
        (outcome.1.isOk = true ↔
          (∀ job ∈ jobsOfRun db run.id, job.status ≠ .retry) ∧ AdmissibleReason reason ∧
            isRfc3339 now = true) ∧
        (outcome.1.isOk = true →
          (∃ stored ∈ outcome.2.runs, stored.id = run.id ∧ stored.status = .cancelled) ∧
          (∀ job ∈ jobsOfRun outcome.2 run.id, job.status = .cancelled) ∧
          ∀ later workerId credential inputs result db',
            let db'' := (machine platform options).runFrom outcome.2 later
            (claim platform options workerId credential inputs db'' = .ok (result, db') →
              ∀ job ∈ result.job, job.runId ≠ run.id) ∧
            ∀ jobId, claimSpecific platform options workerId credential jobId inputs db'' =
                .ok (result, db') →
              ∀ job ∈ result.job, job.runId ≠ run.id)) ∧
    ∀ id input now error, (commit (cancel id input now) db).1 = .error error →
      (commit (cancel id input now) db).2 = db := by
  intro db
  have hc : Coherent (view db) := coherent_run platform options ops
  have hvalid : Valid options db := valid_run platform options ops
  refine ⟨?_, fun id input now error h => commit_fst_error h⟩
  intro run hrun hpending newest hnewest hnewestPending reason now outcome
  have hnever : (∀ job ∈ jobsOfRun db run.id, job.status = .pending) ↔
      ∀ job ∈ jobsOfRun db run.id, job.status ≠ .retry := by
    obtain ⟨-, -, earlier, last, hsplit, hearlier, -, -⟩ := run_jobs_agree ops run hrun
    change jobsOfRun db run.id = earlier ++ [last] at hsplit
    rw [hsplit, List.getLast?_append_of_ne_nil _ (by simp), List.getLast?_singleton,
      Option.some.injEq] at hnewest
    rw [hsplit, hnewest]
    simp only [List.mem_append, List.mem_singleton]
    constructor
    · intro hall job hjob
      simp [hall job hjob]
    · rintro hnot job (hjob | rfl)
      · exact absurd (hearlier job hjob) (hnot job (Or.inl hjob))
      · exact hnewestPending
  have hok : outcome.1.isOk = true ↔ ∃ result, cancel run.id ⟨run.updatedAt, reason⟩ now db = .ok result := by
    cases hresult : cancel run.id ⟨run.updatedAt, reason⟩ now db with
    | ok result => simp [outcome, commit, hresult, Except.isOk, Except.toBool]
    | error error => simp [outcome, commit, hresult, Except.isOk, Except.toBool]
  refine ⟨?_, fun hsuccess => ?_⟩
  · rw [hok, cancel_isOk_iff hc hvalid hrun hpending rfl, hnever]
  · obtain ⟨⟨record, db'⟩, hcancel⟩ := hok.mp hsuccess
    have houtcome : outcome.2 = db' := by
      simp only [outcome, commit_of_ok hcancel]
    rw [houtcome]
    obtain ⟨hcancelled, hjobs⟩ := cancel_drops hc hcancel
    refine ⟨hcancelled, hjobs, fun later workerId credential inputs result db'' => ?_⟩
    have hc' : Coherent (view db') :=
      (cancel_refines run.id ⟨run.updatedAt, reason⟩ now db record db' hc hcancel).coherent hc
    have hdropped := Protocol.dropped_of_steps (steps_of_runFrom platform options hc' later) hc'
      (dropped_of_cancelled hcancelled hjobs)
    have hlater := Protocol.coherent_of_steps hc' (steps_of_runFrom platform options hc' later)
    exact ⟨fun hclaim => not_claimed_of_dropped hlater hdropped hclaim,
      fun jobId hclaim => not_claimedSpecific_of_dropped hlater hdropped hclaim⟩

/-! ### A run that waits for its retry -/

def retriedPlan : CollectionPlan :=
  { webPlan with
    policy := { webPlan.policy with retry := { maxAttempts := 2, backoffSeconds := 0 } } }

def webRequest (idempotencyKey : String) : WorkerRequest where
  workerId := 1
  credential := "credential"
  leaseId := 1
  leaseToken := "token"
  idempotencyKey := idempotencyKey

/-- The first job of a run is executed and fails retryably. -/
def failedOnce : List Op :=
  [.saveCatalogue [webSource "https://example.org"] [webConnector], .savePlan retriedPlan,
    .createWorker webWorker 1 0 1 "credential", .heartbeat healthyWorker "credential" 0 1,
    .dispatchManual manualDispatch 0 1 1, claimAt 0 1,
    .start (webRequest "start") { executorId := "web", version := "1.0.0", mode := .fixture } 0 1 1,
    .fail (webRequest "fail") { code := "TIMEOUT", message := "timeout", retryable := true } 0 0
      { eventId := 2, retryJobId := 2 }]

set_option maxRecDepth 100000 in
/-- The run waits for its retry, and its cancellation is refused. -/
theorem retried_run_not_cancelled :
    let db := (machine (samplePlatform fun _ => none) .default).run failedOnce
    ∃ run ∈ db.runs, run.status = .pending ∧
      (jobsOfRun db run.id).map (·.status) = [.retry, .pending] ∧
      (commit (cancel run.id ⟨run.updatedAt, none⟩ 1) db).1.isOk = false := by
  decide +kernel

end MarkorbitKnowledge.Execution
