import MarkorbitKnowledge.Adk.JobSafety

/-!
# The attempts of a job

As long as every update writes over the document it was made from, the stored attempts are the
failures that were stored, and the provider calls that failed are those of them that say so, with one
more at most while the job is RUNNING or after it was given up.
-/

namespace MarkorbitKnowledge.Adk

open Contracts Fallible Tables Transitions

def JobEvent.jobId : JobEvent → String
  | .started jobId | .called jobId | .ended jobId _ | .sinkFailed jobId | .stale jobId
  | .failed jobId _ => jobId

/-- The provider calls of a job that ended in a definite failure. -/
def definiteFailures (events : List JobEvent) (jobId : String) : Nat :=
  events.count (.ended jobId (some .definite))

/-- The failures of provider calls that were stored. -/
def storedCallFailures (events : List JobEvent) (jobId : String) : Nat :=
  events.count (.failed jobId true)

/-- The failures that were stored, of provider calls and others. -/
def storedFailures (events : List JobEvent) (jobId : String) : Nat :=
  storedCallFailures events jobId + events.count (.failed jobId false)

/-- The step writes over no other document than the one its process has read. -/
def fresh (s : WorkerState) : Nat × Action → Bool
  | (process, .start _) =>
    match s.tasks process with
    | .claimed job => s.store.all fun row =>
        decide (row.job.id = job.id → row.job.status = .claimed → row.job = job)
    | _ => true
  | (process, .recoverNext _) =>
    match s.tasks process with
    | .recovering _ (job :: _) => s.store.all fun row =>
        decide (row.job.id = job.id → row.job.status = job.status → row.job = job)
    | _ => true
  | _ => true

structure Counted (s : WorkerState) : Prop where
  known : ∀ event ∈ s.events, ∃ row ∈ s.store, row.job.id = event.jobId
  attempts : ∀ row ∈ s.store, row.job.attempts = storedFailures s.events row.job.id
  copies : ∀ p job, (s.tasks p).active = some job → ∀ row ∈ s.store, row.job.id = job.id →
    row.job.status = .running → row.job.attempts = job.attempts
  balance : ∀ id, storedCallFailures s.events id ≤ definiteFailures s.events id ∧
    definiteFailures s.events id ≤ storedCallFailures s.events id + 1
  even : ∀ row ∈ s.store, row.job.status ≠ .running → row.job.status ≠ .blockedRecovery →
    definiteFailures s.events row.job.id = storedCallFailures s.events row.job.id
  owed : ∀ p job, (s.tasks p).active = some job →
    definiteFailures s.events job.id =
      storedCallFailures s.events job.id + (s.tasks p).endedDefinitely.toNat

theorem counted_initial : Counted .initial where
  known _ h := by cases h
  attempts _ h := by cases h
  copies _ _ h := by cases h
  balance _ := ⟨Nat.le_refl 0, Nat.zero_le 1⟩
  even _ h := by cases h
  owed _ _ h := by cases h

section Counts

variable {events : List JobEvent} {id : String}

theorem counts_append (events : List JobEvent) (id : String) (added : List JobEvent) :
    definiteFailures (events ++ added) id = definiteFailures events id + definiteFailures added id ∧
      storedCallFailures (events ++ added) id =
        storedCallFailures events id + storedCallFailures added id ∧
      storedFailures (events ++ added) id = storedFailures events id + storedFailures added id := by
  simp only [definiteFailures, storedFailures, storedCallFailures, List.count_append, true_and]
  omega

/-- Events of no other kind count. -/
theorem counts_eq_zero {added : List JobEvent}
    (h : ∀ event ∈ added, event.jobId = id → (∀ ofCall, event ≠ .failed id ofCall) ∧
      event ≠ .ended id (some .definite)) :
    definiteFailures added id = 0 ∧ storedCallFailures added id = 0 ∧ storedFailures added id = 0 := by
  have hfailed : ∀ ofCall, added.count (.failed id ofCall) = 0 :=
    fun ofCall => List.count_eq_zero.mpr fun hmem => (h _ hmem rfl).1 ofCall rfl
  have hended : added.count (.ended id (some .definite)) = 0 :=
    List.count_eq_zero.mpr fun hmem => (h _ hmem rfl).2 rfl
  simp [definiteFailures, storedFailures, storedCallFailures, hfailed, hended]

end Counts

section Steps

variable {digest : String → String} {s s' : WorkerState} {process : Nat} {action : Action}

/-- What a step adds to the counts of a job: nothing but by the process that is active on it. -/
theorem counts_of_other (h : WorkerMove digest s process action s') {id : String}
    (hid : ∀ job, (s.tasks process).active = some job → job.id ≠ id) :
    definiteFailures s'.events id = definiteFailures s.events id ∧
      storedCallFailures s'.events id = storedCallFailures s.events id ∧
      storedFailures s'.events id = storedFailures s.events id := by
  have hadd : ∀ added : List JobEvent, (∀ event ∈ added, event.jobId = id →
      (∀ ofCall, event ≠ .failed id ofCall) ∧ event ≠ .ended id (some .definite)) →
      definiteFailures (s.events ++ added) id = definiteFailures s.events id ∧
        storedCallFailures (s.events ++ added) id = storedCallFailures s.events id ∧
        storedFailures (s.events ++ added) id = storedFailures s.events id := by
    intro added hadded
    obtain ⟨hd, hf, hs⟩ := counts_append s.events id added
    obtain ⟨hd', hf', hs'⟩ := counts_eq_zero hadded
    exact ⟨by rw [hd, hd', Nat.add_zero], by rw [hf, hf', Nat.add_zero], by rw [hs, hs', Nat.add_zero]⟩
  cases h with
  | rests | inserts | claims | blocks | sinks => exact ⟨rfl, rfl, rfl⟩
  | starts | calls => exact hadd _ (by simp)
  | @ends job result htask =>
    refine hadd _ fun event hevent hsame => ?_
    obtain rfl := List.mem_singleton.mp hevent
    exact absurd hsame (hid job (by rw [htask]; rfl))
  | sunk result htask => cases result <;> exact hadd _ (by simp [sinkEvents])
  | @settles job next row events hactive hrow hsettles =>
    refine hadd _ fun event hevent hsame => ?_
    rcases hsettles.effect with ⟨rfl, -⟩ | ⟨rfl, -⟩
    · cases hevent
    · obtain rfl := List.mem_singleton.mp hevent
      exact absurd hsame (hid job hactive)
  | recovers =>
    refine hadd _ ?_
    unfold staleEvents
    split <;> simp

/-- A step of a process that is active on a job: it stores an outcome, it goes on, or it ends. -/
inductive ActiveStep (s s' : WorkerState) (process : Nat) (job : AiKnowledgeJob) : Prop
  | settled {next : AiKnowledgeJob} {row : JobRow} (hrow : Replaces s.store next .running row)
      (hid : next.id = job.id) (hstore : s'.store = setJob s.store next)
      (hactive : (s'.tasks process).active = none)
      (hstatus : next.status ≠ .running)
      (hdefinite : definiteFailures s'.events job.id = definiteFailures s.events job.id)
      (hcalls : storedCallFailures s'.events job.id =
        storedCallFailures s.events job.id + (s.tasks process).endedDefinitely.toNat)
      (hattempts : next.attempts + storedFailures s.events job.id =
        job.attempts + storedFailures s'.events job.id)
  | goesOn (hstore : s'.store = s.store) (hactive : (s'.tasks process).active = some job)
      (hcalls : storedCallFailures s'.events job.id = storedCallFailures s.events job.id)
      (hfailures : storedFailures s'.events job.id = storedFailures s.events job.id)
      (hdefinite : definiteFailures s'.events job.id + (s.tasks process).endedDefinitely.toNat =
        definiteFailures s.events job.id + (s'.tasks process).endedDefinitely.toNat)
      (hended : (s.tasks process).endedDefinitely = false)
  | ended (hstore : s'.store = s.store) (hactive : (s'.tasks process).active = none)
      (hevents : s'.events = s.events)

theorem active_step (h : WorkerMove digest s process action s') {job : AiKnowledgeJob}
    (hactive : (s.tasks process).active = some job) : ActiveStep s s' process job := by
  cases h with
  | rests htask => exact .ended rfl (by simp [WorkerState.setTask, htask.active]) rfl
  | inserts htask | claims htask | starts _ htask | blocks _ htask | recovers _ htask =>
    rw [htask] at hactive
    cases hactive
  | calls htask =>
    rw [htask] at hactive
    obtain rfl := Option.some.inj hactive
    refine .goesOn rfl (by simp [Task.active]) ?_ ?_ ?_ (by rw [htask]; rfl) <;>
      simp [storedCallFailures, storedFailures, definiteFailures, htask, Task.endedDefinitely]
  | @ends _ result htask =>
    rw [htask] at hactive
    obtain rfl := Option.some.inj hactive
    refine .goesOn rfl (by simp [Task.active]) ?_ ?_ ?_ (by rw [htask]; rfl)
    · simp [storedCallFailures]
    · simp [storedCallFailures, storedFailures]
    · cases result with
      | ok acquisition => simp [definiteFailures, htask, Task.endedDefinitely, callVerdict]
      | error error =>
        by_cases hverdict : error.verdict = .definite <;>
          simp [definiteFailures, htask, Task.endedDefinitely, callVerdict, hverdict]
  | sinks htask =>
    rw [htask] at hactive
    obtain rfl := Option.some.inj hactive
    exact .goesOn rfl (by simp [Task.active]) rfl rfl (by simp [htask, Task.endedDefinitely])
      (by rw [htask]; rfl)
  | @sunk _ acquisition result htask =>
    rw [htask] at hactive
    obtain rfl := Option.some.inj hactive
    refine .goesOn rfl (by simp [Task.active]) ?_ ?_ ?_ (by rw [htask]; rfl) <;> cases result <;>
      simp [storedCallFailures, storedFailures, definiteFailures, htask, Task.endedDefinitely,
        sinkEvents]
  | @settles other next row events hother hrow hsettles =>
    obtain rfl := Option.some.inj (hactive.symm.trans hother)
    have hstatus : next.status ≠ .running := by
      rcases hsettles.status with h | h | h | h | h <;> simp [h]
    refine .settled hrow hsettles.continues.id rfl (by simp [Task.active]) hstatus ?_ ?_ ?_
    · rcases hsettles.effect with ⟨rfl, -⟩ | ⟨rfl, -⟩ <;> simp [definiteFailures]
    · rcases hsettles.effect with ⟨rfl, -, -, hended⟩ | ⟨rfl, -⟩
      · simp [storedCallFailures, hended]
      · cases hended : (s.tasks process).endedDefinitely <;> simp [storedCallFailures]
    · rcases hsettles.effect with ⟨rfl, hattempts, -, -⟩ | ⟨rfl, hfailed⟩
      · simp [hattempts]
      · rw [hfailed.attempts]
        cases hended : (s.tasks process).endedDefinitely <;>
          simp [storedFailures, storedCallFailures] <;> omega

/-- A row of the next store against the one it was: the attempts are kept, and where it is RUNNING or
    given up it was that before, or it is started now. -/
structure RowStays (s : WorkerState) (row : JobRow) (row' : JobRow) : Prop where
  stored : row ∈ s.store
  id : row.job.id = row'.job.id
  attempts : row'.job.attempts = row.job.attempts
  settled : row'.job.status ≠ .running → row'.job.status ≠ .blockedRecovery →
    row.job.status ≠ .running ∧ row.job.status ≠ .blockedRecovery
  running : row'.job.status = .running → row.job.status = .running ∨ row.job.status = .claimed

theorem RowStays.refl {row : JobRow} (hrow : row ∈ s.store) : RowStays s row row :=
  ⟨hrow, rfl, rfl, fun hr hb => ⟨hr, hb⟩, Or.inl⟩

/-- A fresh step of a process that is not active on a job keeps the attempts of its row; a new row
    has none. -/
theorem row_of_other (h : WorkerMove digest s process action s')
    (hfresh : fresh s (process, action) = true) {row' : JobRow} (hrow' : row' ∈ s'.store)
    (hid : ∀ job, (s.tasks process).active = some job → job.id ≠ row'.job.id) :
    (∃ row, RowStays s row row') ∨
      (row'.job.attempts = 0 ∧ ∀ row ∈ s.store, row.job.id ≠ row'.job.id) := by
  cases h with
  | rests | calls | ends | sinks | sunk => exact Or.inl ⟨row', .refl hrow'⟩
  | @inserts request rest now executionKey htask hkey hnone =>
    rcases List.mem_append.mp hrow' with hold | hnew
    · exact Or.inl ⟨row', .refl hold⟩
    · obtain rfl := List.mem_singleton.mp hnew
      refine Or.inr ⟨?_, hnone⟩
      cases request <;> rfl
  | @claims row job htask hrow hstatus hjob =>
    rcases mem_setJob hrow' with ⟨hold, -⟩ | ⟨hnew, -⟩
    · exact Or.inl ⟨row', .refl hold⟩
    · refine Or.inl ⟨row, hrow, ?_, ?_, ?_, ?_⟩
      · rw [hnew, hjob.continues.id]
      · rw [hnew, hjob.attempts]
      · simp [hstatus]
      · simp [hnew, hjob.status_eq]
  | @starts now job next row haction htask hrow hnext =>
    rcases mem_setJob hrow' with ⟨hold, -⟩ | ⟨hnew, -⟩
    · exact Or.inl ⟨row', .refl hold⟩
    · have hcopy : row.job = job := by
        simp only [haction, fresh, htask, List.all_eq_true, decide_eq_true_eq] at hfresh
        exact hfresh row hrow.stored (hrow.id.trans hnext.continues.id) hrow.status
      refine Or.inl ⟨row, hrow.stored, ?_, ?_, ?_, fun _ => Or.inr hrow.status⟩
      · rw [hnew, hrow.id]
      · rw [hnew, hnext.attempts, hcopy]
      · simp [hrow.status]
  | @blocks now job next row haction htask hrow hnext =>
    rcases mem_setJob hrow' with ⟨hold, -⟩ | ⟨hnew, -⟩
    · exact Or.inl ⟨row', .refl hold⟩
    · have hcopy : row.job = job := by
        simp only [haction, fresh, htask, List.all_eq_true, decide_eq_true_eq] at hfresh
        exact hfresh row hrow.stored (hrow.id.trans hnext.continues.id) hrow.status
      refine Or.inl ⟨row, hrow.stored, ?_, ?_, ?_, fun _ => Or.inr hrow.status⟩
      · rw [hnew, hrow.id]
      · rw [hnew, hnext.attempts, hcopy]
      · simp [hrow.status]
  | @settles job next row events hactive hrow hsettles =>
    rcases mem_setJob hrow' with ⟨hold, -⟩ | ⟨hnew, -⟩
    · exact Or.inl ⟨row', .refl hold⟩
    · exact absurd (hsettles.continues.id.symm.trans (congrArg _ hnew.symm)) (hid job hactive)
  | @recovers now input job next rest row haction htask hrow hnext =>
    rcases mem_setJob hrow' with ⟨hold, -⟩ | ⟨hnew, -⟩
    · exact Or.inl ⟨row', .refl hold⟩
    · have hcontinues : Continues job next ∧ next.attempts = job.attempts ∧
          next.status ≠ .running := by
        rcases hnext with ⟨-, h⟩ | ⟨-, h⟩
        · exact ⟨h.continues, h.attempts, by simp [h.status_eq]⟩
        · exact ⟨h.continues, h.attempts, by simp [h.status_eq]⟩
      have hcopy : row.job = job := by
        simp only [haction, fresh, htask, List.all_eq_true, decide_eq_true_eq] at hfresh
        exact hfresh row hrow.stored (hrow.id.trans hcontinues.1.id) hrow.status
      refine Or.inl ⟨row, hrow.stored, ?_, ?_, ?_, ?_⟩
      · rw [hnew, hrow.id]
      · rw [hnew, hcontinues.2.1, hcopy]
      · intro _ hblocked
        rw [hrow.status]
        rcases hnext with ⟨-, h⟩ | ⟨hstatus, -⟩
        · exact absurd (hnew ▸ h.status_eq) hblocked
        · rcases hstatus with hstatus | hstatus | hstatus <;> simp [hstatus]
      · intro hrunning
        exact absurd (hnew ▸ hrunning) hcontinues.2.2

/-- No row is lost. -/
theorem row_kept (h : WorkerMove digest s process action s') {row : JobRow} (hrow : row ∈ s.store) :
    ∃ row' ∈ s'.store, row'.job.id = row.job.id := by
  have hset : ∀ next : AiKnowledgeJob, ∃ row' ∈ setJob s.store next, row'.job.id = row.job.id := by
    intro next
    by_cases hid : row.job.id = next.id
    · exact ⟨_, setJob_self hrow hid, hid.symm⟩
    · exact ⟨row, setJob_of_ne hrow hid, rfl⟩
  cases h with
  | rests | calls | ends | sinks | sunk => exact ⟨row, hrow, rfl⟩
  | inserts => exact ⟨row, List.mem_append_left _ hrow, rfl⟩
  | claims | starts | blocks | settles | recovers => exact hset _

/-- An event is of a job that is stored. -/
theorem known_move (hc : QueueConsistent s) (h : WorkerMove digest s process action s')
    (hknown : ∀ event ∈ s.events, ∃ row ∈ s.store, row.job.id = event.jobId) :
    ∀ event ∈ s'.events, ∃ row ∈ s'.store, row.job.id = event.jobId := by
  have hkeep : ∀ id, (∃ row ∈ s.store, row.job.id = id) → ∃ row ∈ s'.store, row.job.id = id := by
    rintro id ⟨row, hrow, rfl⟩
    exact row_kept h hrow
  have hactive : ∀ job, (s.tasks process).active = some job → ∃ row ∈ s'.store, row.job.id = job.id := by
    intro job hjob
    obtain ⟨row, hrow, hid, -⟩ := (hc.active process job hjob).2.2
    exact hkeep _ ⟨row, hrow, hid⟩
  have hadd : ∀ added : List JobEvent, s'.events = s.events ++ added →
      (∀ event ∈ added, ∃ row ∈ s'.store, row.job.id = event.jobId) →
      ∀ event ∈ s'.events, ∃ row ∈ s'.store, row.job.id = event.jobId := by
    intro added hevents hadded event hevent
    rw [hevents, List.mem_append] at hevent
    rcases hevent with hevent | hevent
    · exact hkeep _ (hknown event hevent)
    · exact hadded event hevent
  cases h with
  | rests | inserts | claims | blocks | sinks => exact hadd [] (by simp [WorkerState.setTask]) (by simp)
  | @starts now job next row haction htask hrow hnext =>
    refine hadd _ rfl fun event hevent => ?_
    obtain rfl := List.mem_singleton.mp hevent
    exact hkeep _ ⟨row, hrow.stored, hrow.id.trans hnext.continues.id⟩
  | @calls job htask =>
    refine hadd _ rfl fun event hevent => ?_
    obtain rfl := List.mem_singleton.mp hevent
    exact hactive job (by rw [htask]; rfl)
  | @ends job result htask =>
    refine hadd _ rfl fun event hevent => ?_
    obtain rfl := List.mem_singleton.mp hevent
    exact hactive job (by rw [htask]; rfl)
  | @sunk job acquisition result htask =>
    refine hadd _ rfl fun event hevent => ?_
    cases result with
    | ok lineage => cases hevent
    | error message =>
      obtain rfl := List.mem_singleton.mp hevent
      exact hactive job (by rw [htask]; rfl)
  | @settles job next row events hjob hrow hsettles =>
    refine hadd _ rfl fun event hevent => ?_
    rcases hsettles.effect with ⟨rfl, -⟩ | ⟨rfl, -⟩
    · cases hevent
    · obtain rfl := List.mem_singleton.mp hevent
      exact hactive job hjob
  | @recovers now input job next rest row haction htask hrow hnext =>
    refine hadd _ rfl fun event hevent => ?_
    unfold staleEvents at hevent
    split at hevent
    · obtain rfl := List.mem_singleton.mp hevent
      have hid : next.id = job.id := by
        rcases hnext with ⟨-, h⟩ | ⟨-, h⟩ <;> exact h.continues.id
      exact hkeep _ ⟨row, hrow.stored, hrow.id.trans hid⟩
    · cases hevent

/-- A job without events has no failures. -/
theorem Counted.counts_of_new (hn : Counted s) {id : String} (hnone : ∀ row ∈ s.store, row.job.id ≠ id) :
    definiteFailures s.events id = 0 ∧ storedCallFailures s.events id = 0 ∧
      storedFailures s.events id = 0 := by
  refine counts_eq_zero fun event hevent hid => ?_
  obtain ⟨row, hrow, hsame⟩ := hn.known event hevent
  exact absurd (hsame.trans hid) (hnone row hrow)

theorem counted_move (hc : QueueConsistent s) (hn : Counted s)
    (h : WorkerMove digest s process action s') (hfresh : fresh s (process, action) = true) :
    Counted s' := by
  have hc' := consistent_move hc h
  -- the attempts and the balance of one row, by whether the process is active on its job
  have hrows : ∀ row' ∈ s'.store, row'.job.attempts = storedFailures s'.events row'.job.id ∧
      (row'.job.status ≠ .running → row'.job.status ≠ .blockedRecovery →
        definiteFailures s'.events row'.job.id = storedCallFailures s'.events row'.job.id) := by
    intro row' hrow'
    by_cases hactive : ∃ job, (s.tasks process).active = some job ∧ job.id = row'.job.id
    · obtain ⟨job, hactive, hid⟩ := hactive
      obtain ⟨-, -, hbusy⟩ := hc.active process job hactive
      have howed := hn.owed process job hactive
      have hstays : s'.store = s.store → (row' ∈ s.store ∧
          (row'.job.status = .running ∨ row'.job.status = .blockedRecovery)) := by
        intro hstore
        rw [hstore] at hrow'
        exact ⟨hrow', hbusy.status hc.store hrow' hid.symm⟩
      cases active_step h hactive with
      | @settled next row hrow hnext hstore _ _ hdefinite hcalls hattempts =>
        rw [hstore] at hrow'
        rcases mem_setJob hrow' with ⟨-, hne⟩ | ⟨hjob, -⟩
        · exact absurd (hid.symm.trans hnext.symm) hne
        · have hcopy := hn.copies process job hactive row hrow.stored (hrow.id.trans hnext) hrow.status
          have hrowAttempts := hn.attempts row hrow.stored
          rw [hrow.id, hnext] at hrowAttempts
          rw [← hid]
          constructor
          · rw [hjob]
            omega
          · intro _ _
            omega
      | goesOn hstore _ hcalls hfailures =>
        obtain ⟨hold, hstatus⟩ := hstays hstore
        refine ⟨?_, fun hrunning hblocked => ?_⟩
        · rw [hn.attempts row' hold, ← hid, hfailures]
        · rcases hstatus with hstatus | hstatus
          · exact absurd hstatus hrunning
          · exact absurd hstatus hblocked
      | ended hstore _ hevents =>
        obtain ⟨hold, -⟩ := hstays hstore
        rw [hevents]
        exact ⟨hn.attempts row' hold, hn.even row' hold⟩
    · have hother : ∀ job, (s.tasks process).active = some job → job.id ≠ row'.job.id :=
        fun job hjob hid => hactive ⟨job, hjob, hid⟩
      obtain ⟨hdefinite, hcalls, hfailures⟩ := counts_of_other h hother
      rw [hdefinite, hcalls, hfailures]
      rcases row_of_other h hfresh hrow' hother with ⟨row, hstays⟩ | ⟨hzero, hnone⟩
      · refine ⟨?_, fun hrunning hblocked => ?_⟩
        · rw [hstays.attempts, hn.attempts row hstays.stored, hstays.id]
        · obtain ⟨hrunning, hblocked⟩ := hstays.settled hrunning hblocked
          rw [← hstays.id]
          exact hn.even row hstays.stored hrunning hblocked
      · obtain ⟨hdefinite, hcalls, hfailures⟩ := hn.counts_of_new hnone
        refine ⟨?_, fun _ _ => ?_⟩
        · rw [hzero, hfailures]
        · rw [hdefinite, hcalls]
  -- another process that is active on a job is not disturbed
  have hothers : ∀ p job, p ≠ process → (s'.tasks p).active = some job →
      (s.tasks p).active = some job ∧
        ∀ other, (s.tasks process).active = some other → other.id ≠ job.id := by
    intro p job hp hjob
    rw [h.others hp] at hjob
    exact ⟨hjob, fun other hother hid => hp (hc.alone p process job other hjob hother hid.symm)⟩
  refine
    { known := known_move hc h hn.known
      attempts := fun row' hrow' => (hrows row' hrow').1
      copies := ?_
      balance := ?_
      even := fun row' hrow' => (hrows row' hrow').2
      owed := ?_ }
  · intro p job hjob row' hrow' hid hrunning
    by_cases hp : p = process
    · subst hp
      rcases active_move h hjob with hold | ⟨claimed, row, -, hrow, -, hstore⟩
      · cases active_step h hold with
        | settled _ _ _ hnone =>
          rw [hnone] at hjob
          cases hjob
        | goesOn hstore =>
          rw [hstore] at hrow'
          exact hn.copies p job hold row' hrow' hid hrunning
        | ended _ hnone =>
          rw [hnone] at hjob
          cases hjob
      · rw [hstore] at hrow'
        rcases mem_setJob hrow' with ⟨-, hne⟩ | ⟨hnew, -⟩
        · exact absurd hid hne
        · rw [hnew]
    · obtain ⟨hjob, hother⟩ := hothers p job hp hjob
      obtain ⟨-, -, hbusy⟩ := hc.active p job hjob
      rcases row_of_other h hfresh hrow' (fun other h => hid ▸ hother other h) with
        ⟨row, hstays⟩ | ⟨-, hnone⟩
      · have hrow : row.job.status = .running := by
          rcases hbusy.status hc.store hstays.stored (hstays.id.trans hid) with hstatus | hstatus
          · exact hstatus
          · rcases hstays.running hrunning with hbefore | hbefore <;> simp [hbefore] at hstatus
        rw [hstays.attempts]
        exact hn.copies p job hjob row hstays.stored (hstays.id.trans hid) hrow
      · obtain ⟨row, hrow, hsame, -⟩ := hbusy
        exact absurd (hsame.trans hid.symm) (hnone row hrow)
  · intro id
    by_cases hactive : ∃ job, (s.tasks process).active = some job ∧ job.id = id
    · obtain ⟨job, hactive, rfl⟩ := hactive
      have howed := hn.owed process job hactive
      cases active_step h hactive with
      | settled _ _ _ _ _ hdefinite hcalls => omega
      | goesOn _ _ hcalls _ hdefinite =>
        have hone := Bool.toNat_le (s'.tasks process).endedDefinitely
        omega
      | ended _ _ hevents =>
        rw [hevents]
        exact hn.balance job.id
    · obtain ⟨hdefinite, hcalls, -⟩ :=
        counts_of_other h fun job hjob hid => hactive ⟨job, hjob, hid⟩
      rw [hdefinite, hcalls]
      exact hn.balance id
  · intro p job hjob
    by_cases hp : p = process
    · subst hp
      rcases active_move h hjob with hold | ⟨claimed, row, htask, hrow, -, -⟩
      · have howed := hn.owed p job hold
        cases active_step h hold with
        | settled _ _ _ hnone =>
          rw [hnone] at hjob
          cases hjob
        | goesOn _ _ hcalls _ hdefinite hended =>
          rw [hended] at howed hdefinite
          simp only [Bool.toNat_false] at howed hdefinite
          omega
        | ended _ hnone =>
          rw [hnone] at hjob
          cases hjob
      · have hnone : ∀ other, (s.tasks p).active = some other → other.id ≠ job.id := by
          intro other hother
          rw [htask] at hother
          cases hother
        obtain ⟨hdefinite, hcalls, -⟩ := counts_of_other h hnone
        have heven := hn.even row hrow.stored (by simp [hrow.status]) (by simp [hrow.status])
        rw [hrow.id] at heven
        rw [hdefinite, hcalls, heven]
        -- what is left of its task has no call that failed
        cases h with
        | starts => simp [Task.endedDefinitely]
        | rests hpassive =>
          simp only [WorkerState.setTask, Function.update_self, hpassive.active, reduceCtorEq] at hjob
        | calls hother | ends _ hother | sinks hother | sunk _ hother | inserts hother
        | claims hother | recovers _ hother =>
          rw [htask] at hother
          cases hother
        | settles hother =>
          rw [htask] at hother
          cases hother
        | blocks =>
          simp only [Function.update_self] at hjob
          cases hjob
    · obtain ⟨hold, hother⟩ := hothers p job hp hjob
      obtain ⟨hdefinite, hcalls, -⟩ := counts_of_other h hother
      rw [hdefinite, hcalls, h.others hp]
      exact hn.owed p job hold

end Steps

end MarkorbitKnowledge.Adk
