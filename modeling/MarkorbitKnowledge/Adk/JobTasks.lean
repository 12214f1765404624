import MarkorbitKnowledge.Adk.JobMoves
import Mathlib.Data.List.Nodup

/-!
# The processes and the rows of the queue

A process that has marked a job RUNNING is the only one until it stores an outcome, and its job is
RUNNING or BLOCKED_RECOVERY in the store.
-/

namespace MarkorbitKnowledge.Adk

open Contracts Fallible Tables Transitions

/-! ### Rows -/

structure StoreOk (store : List JobRow) : Prop where
  ids : KeysUnique store
  keys : (store.map (·.executionKey)).Nodup
  keyOf : ∀ row ∈ store, executionKeyOf row.job = .ok row.executionKey
  bounded : ∀ row ∈ store, Bounded row.job

section Rows

variable {store : List JobRow} {next : AiKnowledgeJob} {row : JobRow}
  {expected : AiKnowledgeJobStatus} {id : String}

theorem mem_setJob {stored : JobRow} (h : stored ∈ setJob store next) :
    (stored ∈ store ∧ stored.job.id ≠ next.id) ∨
      (stored.job = next ∧ ∃ row ∈ store, row.job.id = next.id ∧
        stored = { row with job := next }) := by
  obtain ⟨row, hrow, rfl⟩ := List.mem_map.mp h
  by_cases hid : row.job.id = next.id
  · exact Or.inr ⟨by rw [if_pos hid], row, hrow, hid, by rw [if_pos hid]⟩
  · rw [if_neg hid]
    exact Or.inl ⟨hrow, hid⟩

theorem setJob_of_ne (hrow : row ∈ store) (hid : row.job.id ≠ next.id) : row ∈ setJob store next :=
  List.mem_map.mpr ⟨row, hrow, if_neg hid⟩

theorem setJob_self (hrow : row ∈ store) (hid : row.job.id = next.id) :
    { row with job := next } ∈ setJob store next :=
  List.mem_map.mpr ⟨row, hrow, if_pos hid⟩

theorem executionKeyOf_congr {job next : AiKnowledgeJob} (h : SameIdentity job next) :
    executionKeyOf next = executionKeyOf job := by
  rw [executionKeyOf, executionKeyOf, h.executionKey]

/-- An update keeps ids and keys, and a bounded document keeps the rows bounded. -/
theorem StoreOk.set (h : StoreOk store) (hstored : row ∈ store) (hid : row.job.id = next.id)
    (hidentity : SameIdentity row.job next) (hbounded : Bounded next) :
    StoreOk (setJob store next) := by
  have hids : ∀ stored : JobRow, (if stored.job.id = next.id then { stored with job := next }
      else stored).job.id = stored.job.id := by
    intro stored
    split
    · rename_i heq
      exact heq.symm
    · rfl
  constructor
  · exact keysUnique_map _ hids |>.mpr h.ids
  · have hkeys : (setJob store next).map (·.executionKey) = store.map (·.executionKey) := by
      rw [setJob, List.map_map]
      refine List.map_congr_left fun stored _ => ?_
      simp only [Function.comp_apply]
      split <;> rfl
    rw [hkeys]
    exact h.keys
  · intro stored hmem
    rcases mem_setJob hmem with ⟨hold, -⟩ | ⟨hjob, old, hold, hsame, heq⟩
    · exact h.keyOf stored hold
    · obtain rfl := h.ids.eq_of_key hold hstored (hsame.trans hid.symm)
      rw [hjob, heq, executionKeyOf_congr hidentity]
      exact h.keyOf old hold
  · intro stored hmem
    rcases mem_setJob hmem with ⟨hold, -⟩ | ⟨hjob, -⟩
    · exact h.bounded stored hold
    · rw [hjob]
      exact hbounded

theorem StoreOk.unique (h : StoreOk store) {stored : JobRow} (hrow : row ∈ store)
    (hstored : stored ∈ store) (hid : stored.job.id = row.job.id) : stored = row :=
  h.ids.eq_of_key hstored hrow hid

/-- The job is RUNNING, or was given up while it was. -/
def Busy (store : List JobRow) (id : String) : Prop :=
  ∃ row ∈ store, row.job.id = id ∧
    (row.job.status = .running ∨ row.job.status = .blockedRecovery)

def Halted (store : List JobRow) (id : String) : Prop :=
  ∃ row ∈ store, row.job.id = id ∧ row.job.status = .blockedRecovery

theorem Halted.busy (h : Halted store id) : Busy store id := by
  obtain ⟨row, hrow, hid, hstatus⟩ := h
  exact ⟨row, hrow, hid, Or.inr hstatus⟩

theorem Busy.set_of_ne (h : Busy store id) (hne : id ≠ next.id) : Busy (setJob store next) id := by
  obtain ⟨row, hrow, rfl, hstatus⟩ := h
  exact ⟨row, setJob_of_ne hrow hne, rfl, hstatus⟩

theorem Busy.append (h : Busy store id) (added : JobRow) : Busy (store ++ [added]) id := by
  obtain ⟨row, hrow, hid, hstatus⟩ := h
  exact ⟨row, List.mem_append_left _ hrow, hid, hstatus⟩

theorem Halted.append (h : Halted store id) (added : JobRow) : Halted (store ++ [added]) id := by
  obtain ⟨row, hrow, hid, hstatus⟩ := h
  exact ⟨row, List.mem_append_left _ hrow, hid, hstatus⟩

/-- A busy job has no other status. -/
theorem Busy.status (h : Busy store id) (hok : StoreOk store) (hrow : row ∈ store)
    (hid : row.job.id = id) : row.job.status = .running ∨ row.job.status = .blockedRecovery := by
  obtain ⟨stored, hstored, hsame, hstatus⟩ := h
  obtain rfl := hok.unique hrow hstored (hsame.trans hid.symm)
  exact hstatus

/-- An update over another status leaves a halted job. -/
theorem Halted.set (h : Halted store id) (hok : StoreOk store) (hstored : row ∈ store)
    (hid : row.job.id = next.id) (hstatus : row.job.status ≠ .blockedRecovery) :
    Halted (setJob store next) id := by
  obtain ⟨halted, hhalted, rfl, hblocked⟩ := h
  refine ⟨halted, setJob_of_ne hhalted fun hsame => hstatus ?_, rfl, hblocked⟩
  obtain rfl := hok.unique hstored hhalted (hsame.trans hid.symm)
  exact hblocked

/-- An update over a status that is not busy, or one that halts the job, leaves a busy job. -/
theorem Busy.set (h : Busy store id) (hok : StoreOk store) (hstored : row ∈ store)
    (hid : row.job.id = next.id)
    (hnext : (row.job.status ≠ .running ∧ row.job.status ≠ .blockedRecovery) ∨
      next.status = .blockedRecovery) : Busy (setJob store next) id := by
  by_cases hne : id = next.id
  · subst hne
    rcases hnext with ⟨hrunning, hblocked⟩ | hblocked
    · rcases h.status hok hstored hid with hstatus | hstatus
      · exact absurd hstatus hrunning
      · exact absurd hstatus hblocked
    · exact ⟨_, setJob_self hstored hid, rfl, Or.inr hblocked⟩
  · exact h.set_of_ne hne

end Rows

/-! ### Processes and rows -/

/-- What the processes hold agrees with the rows, and one process at most has marked a job RUNNING
    without an outcome. -/
structure QueueConsistent (s : WorkerState) : Prop where
  store : StoreOk s.store
  requests : ∀ p, ∀ request ∈ (s.tasks p).requests, request.Valid
  listed : ∀ p, ∀ job ∈ (s.tasks p).listed, Bounded job
  held : ∀ p job, (s.tasks p).held = some job → Bounded job ∧ job.status = .claimed
  active : ∀ p job, (s.tasks p).active = some job →
    Bounded job ∧ job.status = .running ∧ Busy s.store job.id
  alone : ∀ p q job job', (s.tasks p).active = some job → (s.tasks q).active = some job' →
    job.id = job'.id → p = q

theorem consistent_initial : QueueConsistent .initial where
  store := by constructor <;> simp [WorkerState.initial, KeysUnique]
  requests _ _ h := by cases h
  listed _ _ h := by cases h
  held _ _ h := by cases h
  active _ _ h := by cases h
  alone _ _ _ _ h := by cases h

section Steps

variable {digest : String → String} {s s' : WorkerState} {process : Nat} {action : Action}

/-- The tasks of the other processes stay. -/
theorem WorkerMove.others (h : WorkerMove digest s process action s') {p : Nat} (hp : p ≠ process) :
    s'.tasks p = s.tasks p := by
  cases h <;> exact Function.update_of_ne hp _ _

theorem bounded_new {request : QueueRequest} (h : request.Valid) (now : Timestamp) :
    Bounded (request.job digest now) := by
  cases request with
  | legacy assignmentId provider executionScope maxAttempts =>
    exact ⟨Nat.zero_le _, fun _ => h⟩
  | grounded evidence => exact ⟨Nat.zero_le _, fun _ => Nat.one_pos⟩

theorem Settles.bounded {task : Task} {job next : AiKnowledgeJob} {events : List JobEvent}
    (h : Settles task job next events) (hbounded : Bounded job) (hstatus : job.status = .running) :
    Bounded next := by
  have hne : job.status ≠ .failed := by simp [hstatus]
  rcases h.effect with ⟨-, hattempts, -, -⟩ | ⟨-, hfailed⟩
  · exact Restated.bounded ⟨h.continues, hattempts, rfl⟩ hbounded hne
  · exact hfailed.bounded hbounded hne

theorem bounded_recovered {job next : AiKnowledgeJob} (hbounded : Bounded job)
    (h : (job.status = .running ∧ Restated job next .blockedRecovery) ∨
      ((job.status = .retryPending ∨ job.status = .blockedCredential ∨ job.status = .claimed) ∧
        Restated job next .queued)) : Bounded next := by
  rcases h with ⟨hstatus, hnext⟩ | ⟨hstatus, hnext⟩
  · exact hnext.bounded hbounded (by simp [hstatus])
  · refine hnext.bounded hbounded ?_
    rcases hstatus with hstatus | hstatus | hstatus <;> simp [hstatus]

/-- The rows stay well formed. -/
theorem storeOk_move (hc : QueueConsistent s) (h : WorkerMove digest s process action s') :
    StoreOk s'.store := by
  have hok := hc.store
  cases h with
  | rests => exact hok
  | @inserts request rest now executionKey htask hkey hid hfresh =>
    have hvalid : request.Valid := hc.requests process request (by rw [htask]; simp [Task.requests])
    have hforall : ∀ {P : JobRow → Prop}, (∀ row ∈ s.store, P row) →
        P { executionKey := executionKey, job := request.job digest now } →
        ∀ row ∈ s.store ++ [{ executionKey := executionKey, job := request.job digest now }], P row := by
      intro P hall hlast row hrow
      rcases List.mem_append.mp hrow with hrow | hrow
      · exact hall row hrow
      · rwa [List.mem_singleton.mp hrow]
    constructor
    · exact hok.ids.append_singleton hid
    · rw [List.map_append, List.nodup_append]
      refine ⟨hok.keys, List.nodup_singleton _, ?_⟩
      intro key hmem key' hmem'
      obtain ⟨row, hrow, rfl⟩ := List.mem_map.mp hmem
      rw [List.map_singleton, List.mem_singleton] at hmem'
      rw [hmem']
      exact hfresh row hrow
    · exact hforall hok.keyOf hkey
    · exact hforall hok.bounded (bounded_new hvalid now)
  | @claims row job htask hrow hstatus hjob =>
    exact hok.set hrow hjob.continues.id.symm hjob.continues.identity
      (hjob.bounded (hok.bounded row hrow) (by simp [hstatus]))
  | @starts now job next row haction htask hrow hnext =>
    obtain ⟨hbounded, hstatus⟩ := hc.held process job (by rw [htask]; rfl)
    exact hok.set hrow.stored hrow.id hrow.identity (hnext.bounded hbounded (by simp [hstatus]))
  | @blocks now job next row haction htask hrow hnext =>
    obtain ⟨hbounded, hstatus⟩ := hc.held process job (by rw [htask]; rfl)
    exact hok.set hrow.stored hrow.id hrow.identity (hnext.bounded hbounded (by simp [hstatus]))
  | calls => exact hok
  | ends => exact hok
  | sinks => exact hok
  | sunk => exact hok
  | @settles job next row events hactive hrow hsettles =>
    obtain ⟨hbounded, hstatus, -⟩ := hc.active process job hactive
    exact hok.set hrow.stored hrow.id hrow.identity (hsettles.bounded hbounded hstatus)
  | @recovers now input job next rest row haction htask hrow hnext =>
    have hbounded := hc.listed process job (by rw [htask]; simp [Task.listed])
    exact hok.set hrow.stored hrow.id hrow.identity (bounded_recovered hbounded hnext)

/-- A job stays busy until the process that has started it stores an outcome, and then if only
    BLOCKED_RECOVERY is left. -/
theorem busy_move (hc : QueueConsistent s) (h : WorkerMove digest s process action s') {id : String}
    (hbusy : Busy s.store id)
    (hother : ∀ job, (s.tasks process).active = some job → job.id = id →
      (s.tasks process).doomed = true) : Busy s'.store id := by
  have hok := hc.store
  cases h with
  | rests | calls | ends | sinks | sunk => exact hbusy
  | inserts => exact hbusy.append _
  | claims _ hrow hstatus hjob =>
    exact hbusy.set hok hrow hjob.continues.id.symm (Or.inl (by simp [hstatus]))
  | starts _ htask hrow hnext =>
    exact hbusy.set hok hrow.stored hrow.id (Or.inl (by simp [hrow.status]))
  | blocks _ htask hrow hnext =>
    exact hbusy.set hok hrow.stored hrow.id (Or.inl (by simp [hrow.status]))
  | @settles job next row events hactive hrow hsettles =>
    by_cases hid : id = next.id
    · have hdoomed := hother job hactive (hsettles.continues.id.symm.trans hid.symm)
      exact hbusy.set hok hrow.stored hrow.id (Or.inr (hsettles.doomed hdoomed))
    · exact hbusy.set_of_ne hid
  | recovers _ htask hrow hnext =>
    refine hbusy.set hok hrow.stored hrow.id ?_
    rcases hnext with ⟨-, hnext⟩ | ⟨hstatus, -⟩
    · exact Or.inr hnext.status_eq
    · rw [hrow.status]
      rcases hstatus with hstatus | hstatus | hstatus <;> simp [hstatus]

/-- A halted job stays halted. -/
theorem halted_move (hc : QueueConsistent s) (h : WorkerMove digest s process action s') {id : String}
    (hhalted : Halted s.store id) : Halted s'.store id := by
  have hok := hc.store
  cases h with
  | rests | calls | ends | sinks | sunk => exact hhalted
  | inserts => exact hhalted.append _
  | claims _ hrow hstatus hjob =>
    exact hhalted.set hok hrow hjob.continues.id.symm (by simp [hstatus])
  | starts _ htask hrow hnext => exact hhalted.set hok hrow.stored hrow.id (by simp [hrow.status])
  | blocks _ htask hrow hnext => exact hhalted.set hok hrow.stored hrow.id (by simp [hrow.status])
  | settles hactive hrow hsettles =>
    exact hhalted.set hok hrow.stored hrow.id (by simp [hrow.status])
  | recovers _ htask hrow hnext =>
    refine hhalted.set hok hrow.stored hrow.id ?_
    rw [hrow.status]
    rcases hnext with ⟨hstatus, -⟩ | ⟨hstatus, -⟩
    · simp [hstatus]
    · rcases hstatus with hstatus | hstatus | hstatus <;> simp [hstatus]

/-- The job a process is active on was that of its task before, or is started now. -/
theorem active_move (h : WorkerMove digest s process action s') {job : AiKnowledgeJob}
    (hactive : (s'.tasks process).active = some job) :
    (s.tasks process).active = some job ∨
      ∃ claimed row, s.tasks process = .claimed claimed ∧ Replaces s.store job .claimed row ∧
        Restated claimed job .running ∧ s'.store = setJob s.store job := by
  cases h with
  | rests htask =>
    simp only [WorkerState.setTask, Function.update_self, htask.active, reduceCtorEq] at hactive
  | starts _ htask hrow hnext =>
    simp only [Function.update_self] at hactive
    obtain rfl := Option.some.inj hactive
    exact Or.inr ⟨_, _, htask, hrow, hnext, rfl⟩
  | calls htask =>
    simp only [Function.update_self] at hactive
    exact Or.inl (htask ▸ hactive)
  | ends result htask =>
    simp only [Function.update_self] at hactive
    exact Or.inl (htask ▸ hactive)
  | sinks htask =>
    simp only [Function.update_self] at hactive
    exact Or.inl (htask ▸ hactive)
  | sunk result htask =>
    simp only [Function.update_self] at hactive
    exact Or.inl (htask ▸ hactive)
  | inserts | claims | blocks | settles | recovers =>
    simp only [Function.update_self] at hactive
    cases hactive

theorem held_move (hc : QueueConsistent s) (h : WorkerMove digest s process action s')
    {job : AiKnowledgeJob} (hheld : (s'.tasks process).held = some job) :
    Bounded job ∧ job.status = .claimed := by
  cases h with
  | rests htask =>
    simp only [WorkerState.setTask, Function.update_self, htask.held, reduceCtorEq] at hheld
  | claims _ hrow hstatus hjob =>
    simp only [Function.update_self] at hheld
    obtain rfl := Option.some.inj hheld
    exact ⟨hjob.bounded (hc.store.bounded _ hrow) (by simp [hstatus]), hjob.status_eq⟩
  | inserts | starts | blocks | calls | ends | sinks | sunk | settles | recovers =>
    simp only [Function.update_self] at hheld
    cases hheld

theorem requests_move (h : WorkerMove digest s process action s') :
    ∀ request ∈ (s'.tasks process).requests,
      request.Valid ∨ request ∈ (s.tasks process).requests := by
  intro request hrequest
  cases h with
  | rests htask =>
    simp only [WorkerState.setTask, Function.update_self] at hrequest
    exact htask.requests request hrequest
  | inserts htask =>
    simp only [Function.update_self] at hrequest
    rw [htask]
    exact Or.inr (List.mem_cons_of_mem _ hrequest)
  | claims | starts | blocks | calls | ends | sinks | sunk | settles | recovers =>
    simp only [Function.update_self] at hrequest
    cases hrequest

theorem listed_move (hc : QueueConsistent s) (h : WorkerMove digest s process action s') :
    ∀ job ∈ (s'.tasks process).listed, Bounded job := by
  intro job hjob
  cases h with
  | rests htask =>
    simp only [WorkerState.setTask, Function.update_self] at hjob
    rcases htask.listed job hjob with hold | ⟨row, hrow, rfl⟩
    · exact hc.listed process job hold
    · exact hc.store.bounded row hrow
  | recovers _ htask =>
    simp only [Function.update_self] at hjob
    refine hc.listed process job ?_
    rw [htask]
    exact List.mem_cons_of_mem _ hjob
  | inserts | claims | starts | blocks | calls | ends | sinks | sunk | settles =>
    simp only [Function.update_self] at hjob
    cases hjob

theorem consistent_move (hc : QueueConsistent s) (h : WorkerMove digest s process action s') :
    QueueConsistent s' := by
  have hok := storeOk_move hc h
  have hothers := fun {p} (hp : p ≠ process) => h.others hp
  -- a job that is started is active nowhere
  have hfree : ∀ {job row q other}, Replaces s.store job .claimed row →
      (s.tasks q).active = some other → other.id ≠ job.id := by
    intro job row q other hrow hother hid
    obtain ⟨-, -, hbusy⟩ := hc.active q other hother
    rcases hbusy.status hc.store hrow.stored (hrow.id.trans hid.symm) with hstatus | hstatus <;>
      simp [hrow.status] at hstatus
  refine
    { store := hok
      requests := ?_
      listed := ?_
      held := ?_
      active := ?_
      alone := ?_ }
  · intro p request hrequest
    by_cases hp : p = process
    · subst hp
      rcases requests_move h request hrequest with hvalid | hold
      · exact hvalid
      · exact hc.requests p request hold
    · rw [hothers hp] at hrequest
      exact hc.requests p request hrequest
  · intro p job hjob
    by_cases hp : p = process
    · subst hp
      exact listed_move hc h job hjob
    · rw [hothers hp] at hjob
      exact hc.listed p job hjob
  · intro p job hheld
    by_cases hp : p = process
    · subst hp
      exact held_move hc h hheld
    · rw [hothers hp] at hheld
      exact hc.held p job hheld
  · intro p job hactive
    by_cases hp : p = process
    · subst hp
      rcases active_move h hactive with hold | ⟨claimed, row, htask, hrow, hnext, hstore⟩
      · obtain ⟨hbounded, hstatus, hbusy⟩ := hc.active p job hold
        refine ⟨hbounded, hstatus, ?_⟩
        -- the process stays on its job, so it stores nothing
        cases h with
        | calls | ends | sinks | sunk => exact hbusy
        | rests htask =>
          simp only [WorkerState.setTask, Function.update_self, htask.active, reduceCtorEq] at hactive
        | starts _ htask _ _ =>
          rw [htask] at hold
          cases hold
        | inserts | claims | blocks | settles | recovers =>
          simp only [Function.update_self] at hactive
          cases hactive
      · obtain ⟨hbounded, hstatus⟩ := hc.held p claimed (by rw [htask]; rfl)
        refine ⟨hnext.bounded hbounded (by simp [hstatus]), hnext.status_eq, ?_⟩
        rw [hstore]
        exact ⟨_, setJob_self hrow.stored hrow.id, rfl, Or.inl hnext.status_eq⟩
    · rw [hothers hp] at hactive
      obtain ⟨hbounded, hstatus, hbusy⟩ := hc.active p job hactive
      refine ⟨hbounded, hstatus, busy_move hc h hbusy fun other hother hid => absurd ?_ hp⟩
      exact hc.alone p process job other hactive hother hid.symm
  · intro p q job job' hactive hactive' hid
    by_cases hp : p = process
    · subst hp
      by_cases hq : q = p
      · exact hq.symm
      · rw [hothers hq] at hactive'
        rcases active_move h hactive with hold | ⟨claimed, row, -, hrow, -, -⟩
        · exact hc.alone p q job job' hold hactive' hid
        · exact absurd hid.symm (hfree hrow hactive')
    · rw [hothers hp] at hactive
      by_cases hq : q = process
      · subst hq
        rcases active_move h hactive' with hold | ⟨claimed, row, -, hrow, -, -⟩
        · exact hc.alone p q job job' hactive hold hid
        · exact absurd hid (hfree hrow hactive)
      · rw [hothers hq] at hactive'
        exact hc.alone p q job job' hactive hactive' hid

end Steps

end MarkorbitKnowledge.Adk
