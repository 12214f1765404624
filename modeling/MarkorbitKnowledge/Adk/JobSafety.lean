import MarkorbitKnowledge.Adk.JobTasks

/-!
# Uncertain provider calls are not repeated

A job whose call or sink ended without certainty is RUNNING or BLOCKED_RECOVERY from then on, so no
process marks it RUNNING again.
-/

namespace MarkorbitKnowledge.Adk

open Contracts Fallible Tables Transitions

/-! ### The log after an event -/

section Since

variable {α : Type} {p : α → Bool} {l r : List α} {a : α}

/-- A log from the first event of a kind on. -/
def since (p : α → Bool) (events : List α) : List α := events.dropWhile fun event => !p event

theorem since_append_of_any (h : l.any p = true) : since p (l ++ r) = since p l ++ r := by
  induction l with
  | nil => cases h
  | cons a l ih =>
    by_cases ha : p a = true
    · simp [since, ha]
    · simp only [List.any_cons, ha, Bool.false_or] at h
      have hrest := ih h
      simp only [since] at hrest ⊢
      simp [ha, hrest]

theorem since_append_of_not_any (h : l.any p = false) : since p (l ++ r) = since p r := by
  induction l with
  | nil => rfl
  | cons a l ih =>
    simp only [List.any_cons, Bool.or_eq_false_iff] at h
    have hrest := ih h.2
    simp only [since] at hrest ⊢
    simp [h.1, hrest]

end Since

def uncertainOf (jobId : String) : JobEvent → Bool
  | .ended other (some .uncertain) => decide (other = jobId)
  | .sinkFailed other => decide (other = jobId)
  | _ => false

def staleOf (jobId : String) : JobEvent → Bool
  | .stale other => decide (other = jobId)
  | _ => false

section Steps

variable {digest : String → String} {s s' : WorkerState} {process : Nat} {action : Action}

/-- What a step logs: a call by the process that has the job, a start over a claimed row, or none of
    them. -/
theorem WorkerMove.logged (h : WorkerMove digest s process action s') :
    ∃ added, s'.events = s.events ++ added ∧ added.length ≤ 1 ∧
      (∀ id, .called id ∈ added →
        added = [.called id] ∧ ∃ job, s.tasks process = .running job ∧ job.id = id) ∧
      (∀ id, .started id ∈ added → added = [.started id] ∧ ∃ job row, s.tasks process = .claimed job ∧
        job.id = id ∧ row ∈ s.store ∧ row.job.id = id ∧ row.job.status = .claimed) := by
  cases h with
  | rests | inserts | claims | blocks | sinks => exact ⟨[], by simp [WorkerState.setTask]⟩
  | @starts _ job next row _ htask hrow hnext =>
    refine ⟨[.started job.id], rfl, Nat.le_refl 1, by simp, fun id hid => ?_⟩
    obtain rfl : id = job.id := by simpa using hid
    exact ⟨rfl, job, row, htask, rfl, hrow.stored, hrow.id.trans hnext.continues.id, hrow.status⟩
  | @calls job htask =>
    refine ⟨[.called job.id], rfl, Nat.le_refl 1, fun id hid => ?_, by simp⟩
    obtain rfl : id = job.id := by simpa using hid
    exact ⟨rfl, job, htask, rfl⟩
  | @ends job result htask =>
    exact ⟨[.ended job.id (callVerdict result)], rfl, Nat.le_refl 1, by simp, by simp⟩
  | @sunk job acquisition result htask =>
    exact ⟨sinkEvents job result, rfl, by cases result <;> simp [sinkEvents],
      by cases result <;> simp [sinkEvents], by cases result <;> simp [sinkEvents]⟩
  | @settles job next row events hactive hrow hsettles =>
    rcases hsettles.effect with ⟨rfl, -⟩ | ⟨rfl, -⟩
    · exact ⟨[], rfl, by simp, by simp, by simp⟩
    · exact ⟨_, rfl, by simp, by simp, by simp⟩
  | @recovers _ input job next rest row _ htask hrow hnext =>
    refine ⟨staleEvents job, rfl, ?_, ?_, ?_⟩ <;> unfold staleEvents <;> split <;> simp

/-- The jobs whose calls were uncertain, and those declared stale, in the log. -/
structure LogConsistent (s : WorkerState) : Prop where
  uncertain : ∀ id, s.events.any (uncertainOf id) = true → Busy s.store id ∧
    ∀ p job, (s.tasks p).active = some job → job.id = id → (s.tasks p).doomed = true
  stale : ∀ id, s.events.any (staleOf id) = true → Halted s.store id
  noCall : ∀ id, .called id ∉ since (uncertainOf id) s.events
  noStart : ∀ id, .started id ∉ since (fun event => uncertainOf id event || staleOf id event) s.events
  oneCall : ∀ id, (since (staleOf id) s.events).count (.called id) ≤ 1
  uncalled : ∀ p job, s.tasks p = .running job → .called job.id ∉ since (staleOf job.id) s.events

theorem logConsistent_initial : LogConsistent .initial where
  uncertain _ h := by cases h
  stale _ h := by cases h
  noCall _ h := by cases h
  noStart _ h := by cases h
  oneCall _ := Nat.zero_le 1
  uncalled _ _ h := by cases h

/-- Only recovery declares a job stale, and it halts the job. -/
theorem stale_move (hc : QueueConsistent s) (hl : LogConsistent s)
    (h : WorkerMove digest s process action s') {id : String}
    (hstale : s'.events.any (staleOf id) = true) : Halted s'.store id := by
  by_cases hold : s.events.any (staleOf id) = true
  · exact halted_move hc h (hl.stale id hold)
  · rw [Bool.not_eq_true] at hold
    cases h with
    | rests | inserts | claims | blocks | sinks => exact absurd hstale (by simp [WorkerState.setTask, hold])
    | starts | calls | ends => exact absurd hstale (by simp [hold, staleOf])
    | sunk result htask =>
      cases result <;> exact absurd hstale (by simp [hold, staleOf, sinkEvents])
    | settles hactive hrow hsettles =>
      rcases hsettles.effect with ⟨rfl, -⟩ | ⟨rfl, -⟩ <;> exact absurd hstale (by simp [hold, staleOf])
    | @recovers _ input job next rest row _ htask hrow hnext =>
      simp only [List.any_append, hold, Bool.false_or, staleEvents] at hstale
      split at hstale
      · rename_i hrunning
        obtain rfl : job.id = id := by simpa [staleOf] using hstale
        rcases hnext with ⟨-, hnext⟩ | ⟨hstatus, -⟩
        · exact ⟨_, setJob_self hrow.stored hrow.id, hnext.continues.id, hnext.status_eq⟩
        · rw [hrunning] at hstatus
          simp at hstatus
      · cases hstale

/-- A call or a sink that ends without certainty leaves its process nothing but BLOCKED_RECOVERY. -/
theorem uncertain_move (hc : QueueConsistent s) (hl : LogConsistent s)
    (h : WorkerMove digest s process action s') {id : String}
    (huncertain : s'.events.any (uncertainOf id) = true) :
    Busy s'.store id ∧
      ∀ p job, (s'.tasks p).active = some job → job.id = id → (s'.tasks p).doomed = true := by
  have hc' := consistent_move hc h
  by_cases hold : s.events.any (uncertainOf id) = true
  · obtain ⟨hbusy, hdoomed⟩ := hl.uncertain id hold
    refine ⟨busy_move hc h hbusy fun job hactive hid => hdoomed process job hactive hid, ?_⟩
    intro p job hactive hid
    by_cases hp : p = process
    · subst hp
      rcases active_move h hactive with hbefore | ⟨claimed, row, -, hrow, -, -⟩
      · have hp := hdoomed p job hbefore hid
        cases h with
        | rests htask =>
          simp only [WorkerState.setTask, Function.update_self, htask.active, reduceCtorEq] at hactive
        | calls htask | ends _ htask | sinks htask | sunk _ htask =>
          rw [htask] at hp
          cases hp
        | starts _ htask =>
          rw [htask] at hp
          cases hp
        | inserts | claims | blocks | settles | recovers =>
          simp only [Function.update_self] at hactive
          cases hactive
      · rcases hbusy.status hc.store hrow.stored (hrow.id.trans hid) with hstatus | hstatus <;>
          simp [hrow.status] at hstatus
    · rw [h.others hp] at hactive ⊢
      exact hdoomed p job hactive hid
  · rw [Bool.not_eq_true] at hold
    -- the process whose call or sink has ended now is the only one on the job
    have hnow : ∀ job : AiKnowledgeJob, (s'.tasks process).active = some job → job.id = id →
        (s'.tasks process).doomed = true → Busy s'.store id ∧ ∀ p job,
          (s'.tasks p).active = some job → job.id = id → (s'.tasks p).doomed = true := by
      intro job hactive hid hdoomed
      refine ⟨hid ▸ (hc'.active process job hactive).2.2, fun p other hother hother' => ?_⟩
      obtain rfl := hc'.alone p process other job hother hactive (hother'.trans hid.symm)
      exact hdoomed
    cases h with
    | rests | inserts | claims | blocks | sinks =>
      exact absurd huncertain (by simp [WorkerState.setTask, hold])
    | starts | calls => exact absurd huncertain (by simp [hold, uncertainOf])
    | @ends job result htask =>
      simp only [List.any_append, hold, Bool.false_or, List.any_cons, List.any_nil, Bool.or_false]
        at huncertain
      cases result with
      | ok acquisition => cases huncertain
      | error error =>
        cases hverdict : error.verdict <;>
          simp only [callVerdict, hverdict, uncertainOf, decide_eq_true_eq, Bool.false_eq_true]
            at huncertain
        refine hnow job ?_ huncertain ?_
        · simp [Task.active]
        · simp [Task.doomed, hverdict]
    | @sunk job acquisition result htask =>
      cases result with
      | ok lineage => exact absurd huncertain (by simp [hold, sinkEvents])
      | error message =>
        simp only [List.any_append, hold, Bool.false_or, sinkEvents, List.any_cons, List.any_nil,
          Bool.or_false, uncertainOf, decide_eq_true_eq] at huncertain
        refine hnow job ?_ huncertain ?_
        · simp [Task.active]
        · simp [Task.doomed]
    | settles hactive hrow hsettles =>
      rcases hsettles.effect with ⟨rfl, -⟩ | ⟨rfl, -⟩ <;>
        exact absurd huncertain (by simp [hold, uncertainOf])
    | recovers =>
      refine absurd huncertain ?_
      simp only [List.any_append, hold, Bool.false_or, staleEvents]
      split <;> simp [uncertainOf]

/-- Where a call is logged, no call or sink of the job has ended without certainty. -/
theorem LogConsistent.certain (hl : LogConsistent s) {job : AiKnowledgeJob}
    (htask : s.tasks process = .running job) : s.events.any (uncertainOf job.id) = false := by
  by_contra huncertain
  rw [Bool.not_eq_false] at huncertain
  have hdoomed := (hl.uncertain job.id huncertain).2 process job (by rw [htask]; rfl) rfl
  rw [htask] at hdoomed
  cases hdoomed

/-- A row that is CLAIMED is of no job that was given up. -/
theorem LogConsistent.startable (hc : QueueConsistent s) (hl : LogConsistent s) {row : JobRow}
    (hrow : row ∈ s.store) (hstatus : row.job.status = .claimed) :
    s.events.any (fun event => uncertainOf row.job.id event || staleOf row.job.id event) = false := by
  have hnot : ¬ Busy s.store row.job.id := by
    intro hbusy
    rcases hbusy.status hc.store hrow rfl with h | h <;> simp [hstatus] at h
  rw [List.any_eq_false]
  intro event hevent hgiven
  simp only [Bool.or_eq_true] at hgiven
  rcases hgiven with huncertain | hstale
  · exact hnot (hl.uncertain _ (List.any_eq_true.mpr ⟨event, hevent, huncertain⟩)).1
  · exact hnot (hl.stale _ (List.any_eq_true.mpr ⟨event, hevent, hstale⟩)).busy

theorem notMem_since_append {p : JobEvent → Bool} {events added : List JobEvent} {event : JobEvent}
    (hold : event ∉ since p events)
    (hadded : event ∈ added → events.any p = false ∧ added = [event] ∧ p event = false) :
    event ∉ since p (events ++ added) := by
  intro hmem
  by_cases hany : events.any p = true
  · rw [since_append_of_any hany, List.mem_append] at hmem
    rcases hmem with hmem | hmem
    · exact hold hmem
    · rw [(hadded hmem).1] at hany
      cases hany
  · rw [since_append_of_not_any (by simpa using hany)] at hmem
    obtain ⟨-, rfl, hp⟩ := hadded ((List.dropWhile_suffix _).subset hmem)
    simp [since, hp] at hmem

theorem logConsistent_move (hc : QueueConsistent s) (hl : LogConsistent s)
    (h : WorkerMove digest s process action s') : LogConsistent s' := by
  obtain ⟨added, hevents, hlength, hcalled, hstarted⟩ := h.logged
  refine
    { uncertain := fun id huncertain => uncertain_move hc hl h huncertain
      stale := fun id hstale => stale_move hc hl h hstale
      noCall := ?_
      noStart := ?_
      oneCall := ?_
      uncalled := ?_ }
  · intro id
    rw [hevents]
    refine notMem_since_append (hl.noCall id) fun hmem => ?_
    obtain ⟨hadded, job, htask, rfl⟩ := hcalled id hmem
    exact ⟨hl.certain htask, hadded, rfl⟩
  · intro id
    rw [hevents]
    refine notMem_since_append (hl.noStart id) fun hmem => ?_
    obtain ⟨hadded, job, row, -, -, hrow, rfl, hstatus⟩ := hstarted id hmem
    exact ⟨hl.startable hc hrow hstatus, hadded, rfl⟩
  · intro id
    rw [hevents]
    by_cases hany : s.events.any (staleOf id) = true
    · rw [since_append_of_any hany, List.count_append]
      by_cases hmem : .called id ∈ added
      · obtain ⟨hadded, job, htask, rfl⟩ := hcalled id hmem
        rw [hadded, List.count_eq_zero.mpr (hl.uncalled process job htask)]
        simp
      · rw [List.count_eq_zero.mpr hmem]
        exact hl.oneCall id
    · rw [since_append_of_not_any (by simpa using hany)]
      calc (since (staleOf id) added).count (.called id)
          ≤ (since (staleOf id) added).length := List.count_le_length
        _ ≤ added.length := (List.dropWhile_suffix _).length_le
        _ ≤ 1 := hlength
  · intro p job htask
    rw [hevents]
    by_cases hp : p = process
    · subst hp
      -- the process has just started the job
      have hstart : s.events.any (staleOf job.id) = false ∧ .called job.id ∉ added := by
        cases h with
        | rests hpassive =>
          simp only [WorkerState.setTask, Function.update_self] at htask
          rw [htask] at hpassive
          exact absurd hpassive.active (by simp [Task.active])
        | @starts _ old next row _ hold hrow hnext =>
          simp only [Function.update_self, Task.running.injEq] at htask
          subst htask
          obtain rfl := List.append_cancel_left hevents
          have hnone := hl.startable hc hrow.stored hrow.status
          rw [hrow.id, List.any_eq_false] at hnone
          refine ⟨?_, by simp⟩
          rw [List.any_eq_false]
          intro event hevent hstale
          exact hnone event hevent (by simp [hstale])
        | inserts | claims | blocks | calls | ends | sinks | sunk | settles | recovers =>
          simp only [Function.update_self, reduceCtorEq] at htask
      rw [since_append_of_not_any hstart.1]
      exact fun hmem => hstart.2 ((List.dropWhile_suffix _).subset hmem)
    · rw [h.others hp] at htask
      refine notMem_since_append (hl.uncalled p job htask) fun hmem => absurd ?_ hp
      obtain ⟨-, other, hother, hid⟩ := hcalled job.id hmem
      exact hc.alone p process job other (by rw [htask]; rfl) (by rw [hother]; rfl) hid.symm

end Steps

end MarkorbitKnowledge.Adk
