import MarkorbitKnowledge.Execution.Retention
import MarkorbitKnowledge.Lib.EventLog

/-!
# The event logs of the execution attempts

Only the transitions of a worker and the reconciliation write execution attempts, each with one event
(`LogStep`); every other call leaves attempts and events alone.  From this, one lemma for each call,
`logged_run` carries to every state that the events of each attempt replay to its stored status.
-/

namespace MarkorbitKnowledge.Execution

open Contracts Fallible Transitions EventLog
open Protocol (Coherent)
open Tables (KeysUnique)

/-! ### Steps of the log -/

def executionView : EventLog.View ExecutionEvent ExecutionAttemptStatus where
  sequence := ExecutionEvent.sequence
  previous := ExecutionEvent.fromStatus
  resulting := ExecutionEvent.toStatus

/-- A step of the lifecycle of an execution attempt: RUNNING, UPLOADING, VERIFYING and COMPLETED
    follow each other, and an active attempt may fail. -/
def ExecutionStep : Option ExecutionAttemptStatus → ExecutionAttemptStatus → Prop
  | none, target => target = .running
  | some .running, target => target = .uploading ∨ target = .failed
  | some .uploading, target => target = .verifying ∨ target = .failed
  | some .verifying, target => target = .completed ∨ target = .failed
  | some .completed, _ | some .failed, _ => False

theorem executionStep_failed {status : ExecutionAttemptStatus} (h : status.isActive = true) :
    ExecutionStep (some status) .failed := by
  cases status <;> simp_all [ExecutionStep, ExecutionAttemptStatus.isActive]

theorem executionStep_uploading : ExecutionStep (some uploadingStage.expected) uploadingStage.target :=
  Or.inl rfl

theorem executionStep_verifying : ExecutionStep (some verifyingStage.expected) verifyingStage.target :=
  Or.inl rfl

def eventsOfAttempt (events : List ExecutionEvent) (attemptId : Id) : List ExecutionEvent :=
  events.filter fun event => decide (event.attemptId = attemptId)

/-- The attempts and the events of a database. -/
structure LogState where
  attempts : List ExecutionAttempt
  events : List ExecutionEvent

def logState (db : Database) : LogState := ⟨db.attempts, db.events⟩

/-- The event of a step, numbered after the events of its attempt. -/
structure EventOf (s : LogState) (attemptId : Id) (source : Option ExecutionAttemptStatus)
    (target : ExecutionAttemptStatus) (event : ExecutionEvent) : Prop where
  attempt : event.attemptId = attemptId
  sequence : event.sequence = (eventsOfAttempt s.events attemptId).length + 1
  fromStatus : event.fromStatus = source
  toStatus : event.toStatus = target

inductive LogStep (s : LogState) : LogState → Prop
  | started {attempt : ExecutionAttempt} {event : ExecutionEvent}
      (hfresh : ∀ stored ∈ s.attempts, stored.id ≠ attempt.id) (hstatus : attempt.status = .running)
      (hevent : EventOf s attempt.id none .running event) :
      LogStep s ⟨s.attempts ++ [attempt], s.events ++ [event]⟩
  | moved {attempt next : ExecutionAttempt} {event : ExecutionEvent} (hattempt : attempt ∈ s.attempts)
      (hid : next.id = attempt.id) (hstep : ExecutionStep (some attempt.status) next.status)
      (hevent : EventOf s attempt.id (some attempt.status) next.status event) :
      LogStep s ⟨Tables.update s.attempts next, s.events ++ [event]⟩

/-- Every attempt has the log its status tells, and every event belongs to an attempt. -/
structure Logged (s : LogState) : Prop where
  keys : KeysUnique s.attempts
  log : ∀ attempt ∈ s.attempts, Replays executionView ExecutionStep
    (eventsOfAttempt s.events attempt.id) (some attempt.status)
  owned : ∀ event ∈ s.events, ∃ attempt ∈ s.attempts, attempt.id = event.attemptId

theorem eventsOfAttempt_append (events : List ExecutionEvent) {event : ExecutionEvent}
    {attemptId : Id} (h : event.attemptId = attemptId) :
    eventsOfAttempt (events ++ [event]) attemptId = eventsOfAttempt events attemptId ++ [event] := by
  simp [eventsOfAttempt, h]

theorem eventsOfAttempt_append_of_ne (events : List ExecutionEvent) {event : ExecutionEvent}
    {attemptId : Id} (h : event.attemptId ≠ attemptId) :
    eventsOfAttempt (events ++ [event]) attemptId = eventsOfAttempt events attemptId := by
  simp [eventsOfAttempt, h]

/-- The log of an attempt after one more event. -/
theorem EventOf.replays {s : LogState} {attemptId : Id} {source : Option ExecutionAttemptStatus}
    {target : ExecutionAttemptStatus} {event : ExecutionEvent}
    (h : EventOf s attemptId source target event)
    (hlog : Replays executionView ExecutionStep (eventsOfAttempt s.events attemptId) source)
    (hstep : ExecutionStep source target) :
    Replays executionView ExecutionStep (eventsOfAttempt (s.events ++ [event]) attemptId)
      (some target) := by
  obtain ⟨hattempt, hsequence, hsource, rfl⟩ := h
  rw [eventsOfAttempt_append s.events hattempt]
  exact hlog.snoc hsequence hsource hstep

theorem LogStep.logged {s s' : LogState} (h : LogStep s s') (hlogged : Logged s) : Logged s' := by
  cases h with
  | @started attempt event hfresh hstatus hevent =>
    have hnone : eventsOfAttempt s.events attempt.id = [] := by
      refine List.filter_eq_nil_iff.mpr fun e he => ?_
      obtain ⟨stored, hstored, hid⟩ := hlogged.owned e he
      simpa using fun hof => hfresh stored hstored (hid.trans hof)
    refine ⟨hlogged.keys.append_singleton hfresh, ?_, ?_⟩
    · intro stored hstored
      rcases List.mem_append.mp hstored with hstored | hstored
      · have hne : event.attemptId ≠ stored.id := by
          rw [hevent.attempt]
          exact (hfresh stored hstored).symm
        rw [eventsOfAttempt_append_of_ne s.events hne]
        exact hlogged.log stored hstored
      · obtain rfl := List.mem_singleton.mp hstored
        rw [hstatus]
        exact hevent.replays (hnone ▸ .nil) rfl
    · intro e he
      rcases List.mem_append.mp he with he | he
      · obtain ⟨stored, hstored, hid⟩ := hlogged.owned e he
        exact ⟨stored, List.mem_append_left _ hstored, hid⟩
      · obtain rfl := List.mem_singleton.mp he
        exact ⟨attempt, by simp, hevent.attempt.symm⟩
  | @moved attempt next event hattempt hid hstep hevent =>
    refine ⟨hlogged.keys.update next, ?_, ?_⟩
    · intro stored hstored
      rcases Tables.mem_update.mp hstored with ⟨hstored, hne⟩ | ⟨rfl, -⟩
      · have hne : event.attemptId ≠ stored.id := by
          rw [hevent.attempt, ← hid]
          exact Ne.symm hne
        rw [eventsOfAttempt_append_of_ne s.events hne]
        exact hlogged.log stored hstored
      · rw [hid]
        exact hevent.replays (hlogged.log attempt hattempt) hstep
    · intro e he
      have howned : ∃ stored ∈ s.attempts, stored.id = e.attemptId := by
        rcases List.mem_append.mp he with he | he
        · exact hlogged.owned e he
        · obtain rfl := List.mem_singleton.mp he
          exact ⟨attempt, hattempt, hevent.attempt.symm⟩
      refine Tables.exists_mem_update (fun stored _ hk hstored => ?_) howned
      exact hk.symm.trans hstored

/-- The attempts and events of `db'` come from those of `db` by steps of the log. -/
def Logs (db db' : Database) : Prop := Steps LogStep (logState db) (logState db')

namespace Logs

variable {db db' db'' : Database}

theorem refl (db : Database) : Logs db db := Relation.ReflTransGen.refl

theorem trans (h : Logs db db') (h' : Logs db' db'') : Logs db db'' :=
  Relation.ReflTransGen.trans h h'

/-- A call that writes neither attempts nor events. -/
theorem of_same (hattempts : db'.attempts = db.attempts) (hevents : db'.events = db.events) :
    Logs db db' := by
  have hsame : logState db' = logState db := by rw [logState, hattempts, hevents, logState]
  rw [Logs, hsame]

theorem of_step {s' : LogState} (h : LogStep (logState db) s') (hsame : logState db' = s') :
    Logs db db' := by
  rw [Logs, hsame]
  exact .single h

theorem commit {α : Type} {body : Database → Except RegistryError (α × Database)}
    (h : ∀ a db', body db = .ok (a, db') → Logs db db') : Logs db (commit body db).2 :=
  commit_rel (R := Logs) (.refl db) h

end Logs

/-! ### Dispatches, cancellations and leases -/

section Quiet

variable {db db' : Database}

theorem insertDispatch_logs {run : CollectionRun} {job : Job}
    (h : insertDispatch db run job = .ok db') : Logs db db' := by
  simp only [insertDispatch, insertRun, insertJob, bind_eq_ok, require_eq_ok, pure_eq_ok] at h
  obtain ⟨_, ⟨_, -, _, -, rfl⟩, _, -, _, -, rfl⟩ := h
  exact .of_same rfl rfl

theorem dispatchManual_logs {input : ManualDispatchInput} {now : Timestamp} {runId jobId : Id}
    {result : ManualDispatchResult} (h : dispatchManual input now runId jobId db = .ok (result, db')) :
    Logs db db' := by
  rcases dispatchManual_spec h with rfl | ⟨_, _, _, _, _, -, -, hinsert⟩
  · exact .refl _
  · exact insertDispatch_logs hinsert

theorem logs_of_onlyState {planId : Id} (h : Scheduler.OnlyState planId db db') : Logs db db' := by
  rw [h.rest]
  exact .of_same rfl rfl

theorem tick_logs (platform : Platform) (input : Scheduler.TickInput) (ids : Nat → Id × Id)
    (crash : Option (Nat × Scheduler.CommitPoint)) (db : Database) :
    Logs db (Scheduler.tick platform input ids crash db).2 := by
  refine Scheduler.tick_preserves (P := Logs db) (.refl db) fun plan _ current next hlogs hexamined =>
    hlogs.trans ?_
  obtain ⟨mid, mid', hbefore, hmid, hafter⟩ := hexamined.commits
  refine (logs_of_onlyState hbefore).trans (Logs.trans ?_ (logs_of_onlyState hafter))
  rcases hmid with rfl | ⟨slot, -, -, hdispatched⟩
  · exact .refl _
  · obtain ⟨_, _, _, _, _, _, -, hinsert⟩ := hdispatched.inserted
    exact insertDispatch_logs hinsert

theorem cancel_logs {id : Id} {input : CancelRunInput} {now : Timestamp} {record : ExecutionRunRecord}
    (hc : Coherent (view db)) (h : cancel id input now db = .ok (record, db')) : Logs db db' := by
  obtain ⟨run, -, -, -, rfl⟩ := cancel_spec (jobKeys_of_coherent hc) h
  exact .of_same rfl rfl

theorem endLease_logs {row : LeaseRow} {status : JobLeaseStatus} {timestamp : Timestamp}
    {reason : String} (h : endLease db row status timestamp reason = .ok db') : Logs db db' := by
  simp only [endLease, closeLease, returnJobToPending, updateLeaseDocument, bind_eq_ok, require_eq_ok,
    pure_eq_ok] at h
  obtain ⟨_, ⟨_, -, rfl⟩, h⟩ := h
  split at h
  · rw [pure_eq_ok] at h
    exact h ▸ .of_same rfl rfl
  · simp only [bind_eq_ok, parseJob_eq_ok] at h
    obtain ⟨_, ⟨-, rfl⟩, h⟩ := h
    split at h
    · simp only [jobWithStatus, bind_eq_ok, require_eq_ok, pure_eq_ok] at h
      obtain ⟨_, ⟨_, -, rfl⟩, rfl⟩ := h
      exact .of_same rfl rfl
    · rw [pure_eq_ok] at h
      exact h ▸ .of_same rfl rfl

theorem reapExpired_logs {now : Timestamp} {count : Nat} (hc : Coherent (view db))
    (h : reapExpired now db = .ok (count, db')) : Logs db db' :=
  reapExpired_rule (P := Logs db)
    (fun _ _ _ _ _ _ hlogs hend => hlogs.trans (endLease_logs hend)) hc (.refl db) h

theorem releaseLease_logs {platform : Platform} {workerId : Id} {credential : String} {leaseId : Id}
    {leaseToken : String} {reason : Option String} {now : Timestamp} {u : Unit}
    (h : releaseLease platform workerId credential leaseId leaseToken reason now db = .ok (u, db')) :
    Logs db db' := by
  simp only [releaseLease, bind_eq_ok, pure_eq_ok, Prod.mk.injEq] at h
  obtain ⟨_, -, _, -, _, hend, -, rfl⟩ := h
  exact endLease_logs hend

theorem renewLeaseInner_logs {platform : Platform} {options : WorkerProtocolOptions}
    {workerId : Id} {credential : String} {leaseId : Id} {leaseToken : String} {now : Timestamp}
    {lease : JobLease}
    (h : renewLeaseInner platform options workerId credential leaseId leaseToken now db =
      .ok (lease, db')) : Logs db db' := by
  simp only [renewLeaseInner, bind_eq_ok] at h
  obtain ⟨_, -, _, -, h⟩ := h
  split at h
  · simp only [bind_eq_ok, throwExpired_ne_ok, false_and, exists_false] at h
  · split at h
    · simp only [bind_eq_ok, throwExpired_ne_ok, false_and, exists_false] at h
    · simp only [pure_eq_ok, Prod.mk.injEq] at h
      obtain ⟨-, rfl⟩ := h
      exact .of_same rfl rfl

theorem renewLease_logs (platform : Platform) (options : WorkerProtocolOptions) (workerId : Id)
    (credential : String) (leaseId : Id) (leaseToken : String) (now reapNow : Timestamp)
    (hc : Coherent (view db)) :
    Logs db (renewLease platform options workerId credential leaseId leaseToken now reapNow db).2 := by
  unfold renewLease
  split
  · rename_i hrenew
    exact renewLeaseInner_logs hrenew
  · split
    · split
      · rename_i hreap
        exact reapExpired_logs hc hreap
      · exact .refl db
    · exact .refl db

theorem update_logs {id : Id} {input : UpdateWorkerInput} {expectedUpdatedAt now : Timestamp}
    {worker : WorkerDefinition} (hc : Coherent (view db))
    (h : update id input expectedUpdatedAt now db = .ok (worker, db')) : Logs db db' := by
  simp only [update, bind_eq_ok] at h
  obtain ⟨_, -, _, -, _, -, next, -, _, -, h⟩ := h
  have hworkers : Logs db { db with workers := Tables.update db.workers next } := .of_same rfl rfl
  split at h
  · simp only [bind_eq_ok, pure_eq_ok, Prod.mk.injEq] at h
    obtain ⟨_, hrevoke, -, rfl⟩ := h
    have hview : Coherent (view { db with workers := Tables.update db.workers next }) := hc
    exact revokeActiveLeasesForWorker_rule (P := Logs db)
      (fun _ _ _ _ _ _ hlogs hend => hlogs.trans (endLease_logs hend)) hview hworkers hrevoke
  · simp only [bind_eq_ok, pure_eq_ok, Prod.mk.injEq] at h
    obtain ⟨_, rfl, -, rfl⟩ := h
    exact hworkers

theorem claimJobInTransaction_logs {platform : Platform} {options : WorkerProtocolOptions}
    {inputs : ClaimInputs} {worker : WorkerDefinition} {job : Job} {result : ClaimResult}
    (h : claimJobInTransaction platform options db worker job inputs = .ok (result, db')) :
    Logs db db' := by
  simp only [claimJobInTransaction, jobWithStatus, insertLease, bind_eq_ok, require_eq_ok,
    pure_eq_ok, Prod.mk.injEq] at h
  obtain ⟨_, -, _, ⟨_, -, rfl⟩, _, -, _, ⟨_, -, _, -, rfl⟩, -, rfl⟩ := h
  exact .of_same rfl rfl

theorem beginClaim_logs {platform : Platform} {options : WorkerProtocolOptions} {workerId : Id}
    {credential : String} {inputs : ClaimInputs} {worker : WorkerDefinition} (hc : Coherent (view db))
    (h : beginClaim platform options workerId credential inputs db = .ok (worker, db')) :
    Logs db db' := by
  simp only [beginClaim, bind_eq_ok, pure_eq_ok, Prod.mk.injEq] at h
  obtain ⟨_, -, ⟨count, reaped⟩, hreap, _, -, _, -, _, -, ⟨_, _⟩, -, _, -, _, -, _, -, -, rfl⟩ := h
  exact reapExpired_logs hc hreap

theorem claim_logs {platform : Platform} {options : WorkerProtocolOptions} {workerId : Id}
    {credential : String} {inputs : ClaimInputs} {result : ClaimResult} (hc : Coherent (view db))
    (h : claim platform options workerId credential inputs db = .ok (result, db')) : Logs db db' := by
  simp only [claim, bind_eq_ok] at h
  obtain ⟨⟨worker, reaped⟩, hbegin, candidates, -, state, -, h⟩ := h
  have hlogs := beginClaim_logs hc hbegin
  split at h
  · simp only [pure_eq_ok, Prod.mk.injEq] at h
    exact h.2 ▸ hlogs
  · exact hlogs.trans (claimJobInTransaction_logs h)

theorem claimSpecific_logs {platform : Platform} {options : WorkerProtocolOptions}
    {workerId jobId : Id} {credential : String} {inputs : ClaimInputs} {result : ClaimResult}
    (hc : Coherent (view db))
    (h : claimSpecific platform options workerId credential jobId inputs db = .ok (result, db')) :
    Logs db db' := by
  simp only [claimSpecific, bind_eq_ok] at h
  obtain ⟨⟨worker, reaped⟩, hbegin, job, -, _, -, _, -, _, -, state, -, _, -, h⟩ := h
  exact (beginClaim_logs hc hbegin).trans (claimJobInTransaction_logs h)

end Quiet

/-! ### Transitions -/

section Transitions

variable {db db' : Database}

theorem buildEvent_eventOf {attemptId : Id} {source : Option ExecutionAttemptStatus}
    {target : ExecutionAttemptStatus} {eventType : ExecutionEventType} {idempotencyKey : String}
    {payloadHash : Digest} {recordedAt : Timestamp} {eventId : Id} {event : ExecutionEvent}
    (h : buildEvent db attemptId source target eventType idempotencyKey payloadHash recordedAt eventId =
      .ok event) : EventOf (logState db) attemptId source target event := by
  simp only [buildEvent, bind_eq_ok, require_eq_ok, pure_eq_ok] at h
  obtain ⟨_, -, rfl⟩ := h
  exact ⟨rfl, congrArg (· + 1) List.countP_eq_length_filter, rfl, rfl⟩

theorem startInTransaction_logs {platform : Platform} {request : WorkerRequest}
    {executor : ExecutionExecutor} {key : TransitionKey} {now : Timestamp} {attemptId eventId : Id}
    {result : ExecutionTransitionResult}
    (h : startInTransaction platform request executor key now attemptId eventId db =
      .ok (result, db')) : Logs db db' := by
  simp only [startInTransaction, bind_eq_ok, require_eq_ok, pure_eq_ok, Prod.mk.injEq] at h
  obtain ⟨context, -, _, -, existing, -, _, -, _, -, event, hevent, db₁, hattempt, db₂, hinsert, db₃,
    hjob, db₄, hrun, db₅, hreplay, rfl, rfl⟩ := h
  obtain ⟨hfresh, rfl⟩ := insertAttempt_spec hattempt
  obtain rfl := insertEvent_spec hinsert
  obtain rfl := updateJob_spec hjob
  obtain rfl := updateRun_spec hrun
  obtain ⟨-, rfl⟩ := storeReplay_spec hreplay
  exact .of_step (.started hfresh rfl (buildEvent_eventOf hevent)) rfl

theorem stageInTransaction_logs {platform : Platform} {request : WorkerRequest}
    {stage : ExecutionStage} {key : TransitionKey} {now : Timestamp} {eventId : Id}
    {result : ExecutionTransitionResult} (hstage : ExecutionStep (some stage.expected) stage.target)
    (h : stageInTransaction platform request stage key now eventId db = .ok (result, db')) :
    Logs db db' := by
  simp only [stageInTransaction, bind_eq_ok, require_eq_ok, pure_eq_ok, Prod.mk.injEq] at h
  obtain ⟨context, -, attempt, hattempt, _, ⟨hexpected, -⟩, event, hevent, db₁, hupdate, db₂, hinsert,
    db₃, hjob, db₄, hreplay, rfl, rfl⟩ := h
  obtain ⟨hmem, -⟩ := requireAttemptByLease_spec hattempt
  obtain ⟨-, rfl⟩ := updateAttempt_spec hupdate
  obtain rfl := insertEvent_spec hinsert
  obtain rfl := updateJob_spec hjob
  obtain ⟨-, rfl⟩ := storeReplay_spec hreplay
  rw [← hexpected] at hstage
  have hof := buildEvent_eventOf hevent
  rw [← hexpected] at hof
  have hmoved : LogStep (logState db) ⟨Tables.update db.attempts
      { attempt with status := stage.target, updatedAt := now }, db.events ++ [event]⟩ :=
    .moved hmem rfl hstage hof
  exact .of_step hmoved rfl

theorem terminalAttempt_fields (attempt : ExecutionAttempt) (terminal : Terminal) (now : Timestamp) :
    (terminalAttempt attempt terminal now).id = attempt.id ∧
      (terminalAttempt attempt terminal now).status = terminal.target := by
  cases terminal <;> exact ⟨rfl, rfl⟩

theorem executionStep_terminal {attempt : ExecutionAttempt} {job : Job} {terminal : Terminal} {u : Unit}
    (h : assertTerminal db attempt job terminal = .ok u) :
    ExecutionStep (some attempt.status) terminal.target := by
  cases terminal with
  | receipt receipt =>
    simp only [assertTerminal, bind_eq_ok, require_eq_ok] at h
    obtain ⟨_, ⟨hstatus, -⟩, -⟩ := h
    rw [hstatus]
    exact Or.inl rfl
  | failure failure =>
    simp only [assertTerminal, require_eq_ok] at h
    exact executionStep_failed h

theorem settleJob_log {platform : Platform} {job : Job} {run : CollectionRun} {terminal : Terminal}
    {now : Timestamp} {retryJobId : Id} {reason : String}
    (h : settleJob platform db job run terminal now retryJobId = .ok (reason, db')) :
    logState db' = logState db := by
  rcases settleJob_spec h with ⟨status, -, rfl⟩ | ⟨-, -, -, _, rfl⟩ <;> rfl

theorem terminalInTransaction_logs {platform : Platform} {request : WorkerRequest}
    {terminal : Terminal} {key : TransitionKey} {now : Timestamp} {ids : TerminalIds}
    {result : ExecutionTransitionResult}
    (h : terminalInTransaction platform request terminal key now ids db = .ok (result, db')) :
    Logs db db' := by
  simp only [terminalInTransaction, bind_eq_ok, require_eq_ok, pure_eq_ok, Prod.mk.injEq] at h
  obtain ⟨context, -, attempt, hattempt, _, hterminal, _, -, event, hevent, db₁, hupdate, db₂, hinsert,
    ⟨reason, db₃⟩, hsettle, db₄, hclose, db₅, hreplay, rfl, rfl⟩ := h
  obtain ⟨hmem, -⟩ := requireAttemptByLease_spec hattempt
  obtain ⟨-, rfl⟩ := updateAttempt_spec hupdate
  obtain rfl := insertEvent_spec hinsert
  have hsettled := settleJob_log hsettle
  simp only [closeExecutionLease, updateLeaseDocument, bind_eq_ok, require_eq_ok,
    pure_eq_ok] at hclose
  obtain ⟨_, -, rfl⟩ := hclose
  obtain ⟨-, rfl⟩ := storeReplay_spec hreplay
  obtain ⟨hid, hstatus⟩ := terminalAttempt_fields attempt terminal now
  have hof := buildEvent_eventOf hevent
  rw [hid, ← hstatus] at hof
  have hstep := executionStep_terminal hterminal
  rw [← hstatus] at hstep
  exact .of_step (.moved hmem hid hstep hof) hsettled

theorem replayOr_logs {platform : Platform} {request : WorkerRequest} {key : TransitionKey}
    {body : Database → Except RegistryError (ExecutionTransitionResult × Database)}
    {result : ExecutionTransitionResult} (hbody : body db = .ok (result, db') → Logs db db')
    (h : replayOr platform request key body db = .ok (result, db')) : Logs db db' := by
  simp only [replayOr, bind_eq_ok] at h
  obtain ⟨_, -, replay, -, h⟩ := h
  split at h
  · simp only [pure_eq_ok, Prod.mk.injEq] at h
    exact h.2 ▸ .refl db
  · exact hbody h

theorem abandon_logs {platform : Platform} {now : Timestamp} {row : AbandonedRow} {eventId : Id}
    (hstored : row.Stored db) (h : abandon platform now db (row, eventId) = .ok db') : Logs db db' := by
  simp only [abandon, bind_eq_ok, parseAttempt_eq_ok, parseLease_eq_ok, parseJob_eq_ok,
    parseRun_eq_ok] at h
  obtain ⟨_, ⟨-, rfl⟩, _, ⟨-, rfl⟩, _, ⟨-, rfl⟩, _, ⟨-, rfl⟩, event, hevent, _, hattempt, _, hinsert, _,
    hjob, _, hrun, h⟩ := h
  obtain ⟨-, rfl⟩ := updateAttempt_spec hattempt
  obtain rfl := insertEvent_spec hinsert
  obtain rfl := updateJob_spec hjob
  obtain rfl := updateRun_spec hrun
  have hstep := executionStep_failed hstored.active
  have hof := buildEvent_eventOf hevent
  have hmoved : LogStep (logState db) ⟨Tables.update db.attempts
      (terminalAttempt row.attempt (.failure (abandonedFailure now)) now), db.events ++ [event]⟩ :=
    .moved hstored.attempt rfl hstep hof
  refine .of_step hmoved ?_
  split at h
  · simp only [closeExecutionLease, updateLeaseDocument, bind_eq_ok, require_eq_ok,
      pure_eq_ok] at h
    obtain ⟨_, -, rfl⟩ := h
    rfl
  · rw [pure_eq_ok] at h
    exact h ▸ rfl

end Transitions

/-! ### Every call -/

variable (platform : Platform) (options : WorkerProtocolOptions)

theorem logs_step {db : Database} (hc : Coherent (view db)) (op : Op) :
    Logs db (step platform options db op) := by
  cases op with
  | savePlan plan =>
    refine .commit fun _ db' h => ?_
    obtain ⟨-, ⟨-, rfl⟩ | ⟨_, -, -, -, rfl⟩⟩ := savePlan_spec h
    · exact .of_same rfl rfl
    · exact .of_same rfl rfl
  | saveCatalogue => exact .of_same rfl rfl
  | dispatchManual => exact .commit fun _ _ h => dispatchManual_logs h
  | tick input ids crash => exact tick_logs platform input ids crash db
  | getScheduleState planId now => exact logs_of_onlyState (getState_onlyState platform planId now db)
  | cancel => exact .commit fun _ _ h => cancel_logs hc h
  | createWorker =>
    refine .commit fun _ db' h => ?_
    simp only [create, bind_eq_ok, pure_eq_ok, Prod.mk.injEq] at h
    obtain ⟨_, -, _, -, _, -, -, rfl⟩ := h
    exact .of_same rfl rfl
  | updateWorker => exact .commit fun _ _ h => update_logs hc h
  | rotateCredential =>
    refine .commit fun _ db' h => ?_
    simp only [rotateCredential, bind_eq_ok, pure_eq_ok, Prod.mk.injEq] at h
    obtain ⟨_, -, -, rfl⟩ := h
    exact .of_same rfl rfl
  | heartbeat =>
    refine .commit fun _ db' h => ?_
    simp only [heartbeat, bind_eq_ok, pure_eq_ok, Prod.mk.injEq] at h
    obtain ⟨_, -, _, -, _, -, _, -, _, -, -, rfl⟩ := h
    exact .of_same rfl rfl
  | claim => exact .commit fun _ _ h => claim_logs hc h
  | claimSpecific => exact .commit fun _ _ h => claimSpecific_logs hc h
  | renewLease => exact renewLease_logs platform options _ _ _ _ _ _ hc
  | releaseLease => exact .commit fun _ _ h => releaseLease_logs h
  | reapExpired => exact .commit fun _ _ h => reapExpired_logs hc h
  | start =>
    refine .commit fun _ db' h => ?_
    simp only [start, bind_eq_ok] at h
    obtain ⟨_, -, _, -, h⟩ := h
    exact replayOr_logs startInTransaction_logs h
  | markUploading =>
    refine .commit fun _ db' h => ?_
    simp only [markUploading, transition, bind_eq_ok] at h
    obtain ⟨_, -, h⟩ := h
    exact replayOr_logs (stageInTransaction_logs executionStep_uploading) h
  | markVerifying =>
    refine .commit fun _ db' h => ?_
    simp only [markVerifying, transition, bind_eq_ok] at h
    obtain ⟨_, -, h⟩ := h
    exact replayOr_logs (stageInTransaction_logs executionStep_verifying) h
  | complete =>
    refine .commit fun _ db' h => ?_
    simp only [complete, bind_eq_ok] at h
    obtain ⟨_, -, _, -, h⟩ := h
    exact replayOr_logs terminalInTransaction_logs h
  | fail =>
    refine .commit fun _ db' h => ?_
    simp only [fail, bind_eq_ok] at h
    obtain ⟨_, -, h⟩ := h
    refine replayOr_logs (fun h => ?_) h
    simp only [bind_eq_ok] at h
    obtain ⟨_, -, h⟩ := h
    exact terminalInTransaction_logs h
  | reconcileExpired now eventId =>
    exact .commit fun _ _ h => reconcileExpired_rule (P := Logs db)
      (fun _ _ _ _ _ _ hstored hlogs habandon => hlogs.trans (abandon_logs hstored habandon)) hc
      (.refl db) h

theorem logged_run (ops : List Op) : Logged (logState ((machine platform options).run ops)) := by
  have hrun : Coherent (view ((machine platform options).run ops)) ∧
      Logged (logState ((machine platform options).run ops)) := by
    refine Machine.run_invariant (P := fun db => Coherent (view db) ∧ Logged (logState db)) ?_ ?_ ops
    · exact ⟨Protocol.coherent_empty, by constructor <;> simp [machine, Database.empty, logState,
        KeysUnique]⟩
    · rintro db op ⟨hc, hlogged⟩
      exact ⟨Protocol.coherent_of_steps hc (steps_of_step platform options hc op),
        Steps.invariant (fun _ _ hstep => hstep.logged) (logs_step platform options hc op) hlogged⟩
  exact hrun.2

/-- The events of every attempt replay to its stored status. -/
theorem attempt_log_consistent (ops : List Op) :
    let db := (machine platform options).run ops
    ∀ attempt ∈ db.attempts, Consistent executionView ExecutionStep (fun status => ¬ status.isActive)
      (eventsOfAttempt db.events attempt.id) attempt.status := by
  intro db attempt hattempt
  refine ((logged_run platform options ops).log attempt hattempt).consistent ?_
  intro status next hterminal hstep
  cases status <;> simp_all [ExecutionStep, ExecutionAttemptStatus.isActive]

end MarkorbitKnowledge.Execution
