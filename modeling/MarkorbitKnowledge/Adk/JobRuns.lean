import MarkorbitKnowledge.Adk.JobAttempts

/-!
# Runs of the AI-knowledge queue

What holds in every state any number of processes reach: a job keeps its identity, one process at most
works on it, and a provider call whose outcome is uncertain is the last one.  The status that guards an
update is all it compares, so two things need more: that nothing is called after a job was declared
stale needs the process to have asked before it calls, and that the stored attempts count the calls that
failed needs every update to be made from the stored document.
-/

namespace MarkorbitKnowledge.Adk

open Contracts Fallible Tables Transitions

/-- The states of a job that are its last. -/
def AiKnowledgeJobStatus.isLast : AiKnowledgeJobStatus → Bool
  | .succeeded | .failed | .blockedRecovery | .blockedExecution => true
  | .queued | .claimed | .running | .retryPending | .blockedCredential => false

/-- The stored job is the same job as before. -/
structure SameJob (row row' : JobRow) : Prop where
  executionKey : row'.executionKey = row.executionKey
  id : row'.job.id = row.job.id
  identity : SameIdentity row.job row'.job

theorem SameJob.refl (row : JobRow) : SameJob row row := ⟨rfl, rfl, .refl row.job⟩

theorem SameJob.trans {a b c : JobRow} (h : SameJob a b) (h' : SameJob b c) : SameJob a c :=
  ⟨h'.1.trans h.1, h'.2.trans h.2, h.3.trans h'.3⟩

section Steps

variable {digest : String → String} {s s' : WorkerState} {process : Nat} {action : Action}

theorem sameJob_move (hc : QueueConsistent s) (h : WorkerMove digest s process action s')
    {row : JobRow} (hrow : row ∈ s.store) : ∃ row' ∈ s'.store, SameJob row row' := by
  have hset : ∀ {stored : JobRow} {next : AiKnowledgeJob}, stored ∈ s.store → stored.job.id = next.id →
      SameIdentity stored.job next → ∃ row' ∈ setJob s.store next, SameJob row row' := by
    intro stored next hstored hid hidentity
    by_cases hsame : row.job.id = next.id
    · obtain rfl := hc.store.unique hstored hrow (hsame.trans hid.symm)
      exact ⟨_, setJob_self hrow hid, rfl, hid.symm, hidentity⟩
    · exact ⟨row, setJob_of_ne hrow hsame, .refl row⟩
  cases h with
  | rests | calls | ends | sinks | sunk => exact ⟨row, hrow, .refl row⟩
  | inserts => exact ⟨row, List.mem_append_left _ hrow, .refl row⟩
  | claims _ hstored hstatus hjob => exact hset hstored hjob.continues.id.symm hjob.continues.identity
  | starts _ _ hstored | blocks _ _ hstored | settles _ hstored | recovers _ _ hstored =>
    exact hset hstored.stored hstored.id hstored.identity

/-- No update is over a job in one of its last states. -/
theorem last_move (hc : QueueConsistent s) (h : WorkerMove digest s process action s')
    {row : JobRow} (hrow : row ∈ s.store) (hlast : row.job.status.isLast = true) : row ∈ s'.store := by
  have hset : ∀ {stored : JobRow} {next : AiKnowledgeJob}, stored ∈ s.store → stored.job.id = next.id →
      stored.job.status.isLast = false → row ∈ setJob s.store next := by
    intro stored next hstored hid hstatus
    refine setJob_of_ne hrow fun hsame => ?_
    obtain rfl := hc.store.unique hstored hrow (hsame.trans hid.symm)
    rw [hlast] at hstatus
    cases hstatus
  cases h with
  | rests | calls | ends | sinks | sunk => exact hrow
  | inserts => exact List.mem_append_left _ hrow
  | claims _ hstored hstatus hjob => exact hset hstored hjob.continues.id.symm (by rw [hstatus]; rfl)
  | starts _ _ hstored | blocks _ _ hstored | settles _ hstored =>
    exact hset hstored.stored hstored.id (by rw [hstored.status]; rfl)
  | recovers _ _ hstored hnext =>
    refine hset hstored.stored hstored.id ?_
    rw [hstored.status]
    rcases hnext with ⟨hstatus, -⟩ | ⟨hstatus | hstatus | hstatus, -⟩ <;> rw [hstatus] <;> rfl

end Steps

/-! ### Runs -/

structure Consistent (s : WorkerState) : Prop where
  queue : QueueConsistent s
  log : LogConsistent s

section Runs

variable {digest : String → String} {s : WorkerState}

/-- A step is a move of its process, or nothing happens. -/
theorem step_cases (digest : String → String) (s : WorkerState) (label : Nat × Action) :
    (workers digest).step s label = s ∨
      WorkerMove digest s label.1 label.2 ((workers digest).step s label) :=
  move_of_step label.1 label.2

theorem consistent_step (h : Consistent s) (label : Nat × Action) :
    Consistent ((workers digest).step s label) := by
  rcases step_cases digest s label with hsame | hmove
  · rw [hsame]
    exact h
  · exact ⟨consistent_move h.queue hmove, logConsistent_move h.queue h.log hmove⟩

theorem consistent_run (ls : List (Nat × Action)) : Consistent ((workers digest).run ls) :=
  Machine.run_invariant (P := Consistent) ⟨consistent_initial, logConsistent_initial⟩
    (fun _ label h => consistent_step h label) ls

theorem sameJob_run (h : Consistent s) {row : JobRow} (hrow : row ∈ s.store)
    (ks : List (Nat × Action)) : ∃ row' ∈ ((workers digest).runFrom s ks).store, SameJob row row' := by
  have hstep : ∀ s label, (Consistent s ∧ ∃ row' ∈ s.store, SameJob row row') →
      Consistent ((workers digest).step s label) ∧
        ∃ row' ∈ ((workers digest).step s label).store, SameJob row row' := by
    rintro s label ⟨hconsistent, stored, hstored, hsame⟩
    refine ⟨consistent_step hconsistent label, ?_⟩
    rcases step_cases digest s label with hrest | hmove
    · rw [hrest]
      exact ⟨stored, hstored, hsame⟩
    · obtain ⟨row', hrow', hsame'⟩ := sameJob_move hconsistent.queue hmove hstored
      exact ⟨row', hrow', hsame.trans hsame'⟩
  exact (Machine.runFrom_invariant hstep ⟨h, row, hrow, .refl row⟩ ks).2

theorem last_run (h : Consistent s) {row : JobRow} (hrow : row ∈ s.store)
    (hlast : row.job.status.isLast = true) (ks : List (Nat × Action)) :
    row ∈ ((workers digest).runFrom s ks).store := by
  have hstep : ∀ s label, (Consistent s ∧ row ∈ s.store) →
      Consistent ((workers digest).step s label) ∧ row ∈ ((workers digest).step s label).store := by
    rintro s label ⟨hconsistent, hstored⟩
    refine ⟨consistent_step hconsistent label, ?_⟩
    rcases step_cases digest s label with hrest | hmove
    · rw [hrest]
      exact hstored
    · exact last_move hconsistent.queue hmove hstored hlast
  exact (Machine.runFrom_invariant hstep ⟨h, hrow⟩ ks).2

/-- In a run of fresh updates the attempts are counted. -/
theorem counted_run {ls : List (Nat × Action)}
    (hfresh : (workers digest).Throughout (fun s label => fresh s label = true) .initial ls) :
    Counted ((workers digest).run ls) := by
  have hstep : ∀ s label, (Consistent s ∧ Counted s) → fresh s label = true →
      Consistent ((workers digest).step s label) ∧ Counted ((workers digest).step s label) := by
    rintro s label ⟨hconsistent, hcounted⟩ hfresh
    refine ⟨consistent_step hconsistent label, ?_⟩
    rcases step_cases digest s label with hrest | hmove
    · rw [hrest]
      exact hcounted
    · exact counted_move hconsistent.queue hcounted hmove hfresh
  have hinitial : Consistent .initial := ⟨consistent_initial, logConsistent_initial⟩
  exact (Machine.runFrom_invariant_of hstep ⟨hinitial, counted_initial⟩ hfresh).2

/-- The provider calls that failed are at most the attempts and one that is not stored. -/
theorem Counted.definite_le (hn : Counted s) (hc : QueueConsistent s) {row : JobRow}
    (hrow : row ∈ s.store) : definiteFailures s.events row.job.id ≤ row.job.attemptLimit := by
  have hattempts := hn.attempts row hrow
  have hle : storedCallFailures s.events row.job.id ≤ storedFailures s.events row.job.id :=
    Nat.le_add_right _ _
  have hbounded := hc.store.bounded row hrow
  by_cases hbusy : row.job.status = .running ∨ row.job.status = .blockedRecovery
  · have hlt := hbounded.lt (by rcases hbusy with h | h <;> simp [h])
    have hbalance := (hn.balance row.job.id).2
    omega
  · rw [not_or] at hbusy
    have heven := hn.even row hrow hbusy.1 hbusy.2
    have hmax := hbounded.le
    omega

end Runs

/-! ### The queue -/

/-- Where every update is made from the stored document, a job counts its failures: the attempts are
    the failures that were stored, at most the limit, and so are the provider calls that failed, all of
    them stored unless the job is RUNNING or was given up. -/
structure CountsFailures (s : WorkerState) (row : JobRow) : Prop where
  attempts : row.job.attempts = storedFailures s.events row.job.id
  stored : row.job.status ≠ .running → row.job.status ≠ .blockedRecovery →
    definiteFailures s.events row.job.id = storedCallFailures s.events row.job.id
  limit : definiteFailures s.events row.job.id ≤ row.job.attemptLimit

theorem uncertain_call_not_repeated (digest : String → String) (ls : List (Nat × Action)) :
    let s := (workers digest).run ls
    (KeysUnique s.store ∧ (s.store.map (·.executionKey)).Nodup ∧
      ∀ row ∈ s.store, ∀ ks, ∃ row' ∈ ((workers digest).runFrom s ks).store, SameJob row row') ∧
    (∀ p job, (s.tasks p).active = some job → Busy s.store job.id ∧
      ∀ q other, (s.tasks q).active = some other → other.id = job.id → q = p) ∧
    (∀ id, .called id ∉ since (uncertainOf id) s.events ∧
      .started id ∉ since (fun event => uncertainOf id event || staleOf id event) s.events ∧
      (since (staleOf id) s.events).count (.called id) ≤ 1) ∧
    (∀ row ∈ s.store, row.job.attempts ≤ row.job.attemptLimit ∧
      ((workers digest).Throughout (fun s label => fresh s label = true) .initial ls →
        CountsFailures s row)) ∧
    ∀ row ∈ s.store, row.job.status.isLast = true →
      ∀ ks, row ∈ ((workers digest).runFrom s ks).store := by
  intro s
  have h : Consistent s := consistent_run ls
  refine ⟨⟨h.queue.store.ids, h.queue.store.keys, fun row hrow ks => sameJob_run h hrow ks⟩, ?_, ?_, ?_,
    fun row hrow hlast ks => last_run h hrow hlast ks⟩
  · intro p job hactive
    refine ⟨(h.queue.active p job hactive).2.2, fun q other hother hid => ?_⟩
    exact h.queue.alone q p other job hother hactive hid
  · intro id
    exact ⟨h.log.noCall id, h.log.noStart id, h.log.oneCall id⟩
  · intro row hrow
    refine ⟨(h.queue.store.bounded row hrow).le, fun hfresh => ?_⟩
    have hn : Counted s := counted_run hfresh
    exact ⟨hn.attempts row hrow, hn.even row hrow, hn.definite_le h.queue hrow⟩

/-! ### What the status does not guard -/

def oneJob : EnqueueAdkKnowledgeJobsInput :=
  { assignmentIds := ["lao"], providers := ["OPENAI"], executionScope := none
    executionRevision := none, maxAttempts := some 2 }

def enqueued : List (Nat × Action) :=
  [(0, .enqueue oneJob), (0, .lookUp), (0, .insert 0), (0, .lookUp)]

def registered : WorkerRegistries :=
  { assignments := ["lao"], adapters := [("OPENAI", "OPENAI")] }

def rejected : Except AcquireError AiKnowledgeAcquisition :=
  .error (.acquisition "AI_PROVIDER_HTTP_ERROR" "status 500" true)

def failing (process : Nat) : List (Nat × Action) :=
  [(process, .start 2), (process, .check registered 2), (process, .endCall rejected),
    (process, .handle 3)]

/-- Recovery by a process for which everything is stale. -/
def recovered : List (Nat × Action) :=
  [(0, .list { staleBefore := 9, requeueRetryPending := true, requeueCredentialBlocked := false }),
    (0, .recoverNext 5), (0, .recoverNext 5)]

/-- Both processes fail, and each update is made from the document as it is stored. -/
def freshCopies : List (Nat × Action) :=
  enqueued ++ [(1, .claim 1)] ++ failing 1 ++ recovered ++ [(2, .claim 1)] ++ failing 2

theorem uncertain_call_not_repeated_fresh :
    let s := (workers fun _ => "0").run freshCopies
    s.store.map (fun row => (row.job.attempts, row.job.attemptLimit, row.job.status)) =
        [(2, 2, .failed)] ∧
      definiteFailures s.events "akj_0" = 2 ∧ ∀ row ∈ s.store, CountsFailures s row := by
  intro s
  refine ⟨by decide +kernel, by decide +kernel, fun row hrow => ?_⟩
  obtain ⟨-, -, -, hcounts, -⟩ := uncertain_call_not_repeated (fun _ => "0") freshCopies
  exact (hcounts row hrow).2 (by decide +kernel)

/-- Process 1 claims the job and starts it only after recovery has requeued it, process 2 has failed
    once, and process 3 has claimed it again. -/
def staleCopies : List (Nat × Action) :=
  enqueued ++ [(1, .claim 1)] ++ recovered ++ [(2, .claim 1)] ++ failing 2 ++ recovered ++
    [(3, .claim 1)] ++ failing 1 ++ recovered ++ [(2, .claim 1)] ++ failing 2

/-- An execution without its assignment fails with an attempt and no call; a job declared stale before
    its process calls is called afterwards; and an old copy takes the attempts back. -/
theorem attempts_and_calls_differ :
    (let s := (workers fun _ => "0").run
      (enqueued ++ [(1, .claim 1), (1, .start 2), (1, .check { registered with assignments := [] } 3)])
     s.store.map (·.job.attempts) = [1] ∧ definiteFailures s.events "akj_0" = 0) ∧
    (let s := (workers fun _ => "0").run
      (enqueued ++ [(1, .claim 1), (1, .start 2)] ++ recovered ++ [(1, .check registered 6)])
     s.events = [.started "akj_0", .stale "akj_0", .called "akj_0"]) ∧
    (let s := (workers fun _ => "0").run staleCopies
     s.store.map (fun row => (row.job.attempts, row.job.attemptLimit)) = [(2, 2)] ∧
      definiteFailures s.events "akj_0" = 3) := by
  decide +kernel

end MarkorbitKnowledge.Adk
