import MarkorbitKnowledge.Execution.Retention

/-!
# Replaying the transitions of an execution

The five transitions of a worker have one shape: check the payload, authenticate, look the request up
under its key, and run the transaction only when nothing is stored there.  A success leaves a row
under the key, whether it ran or was itself a replay (`stored_of_ok`), the row stays for good
(`Stored.mono`), and a later request under the key is decided by it: answered when it asks for the
same, refused when it asks for something else.
-/

namespace MarkorbitKnowledge.Execution

open Contracts Fallible Transitions
open Protocol (Coherent)

/-! ### The five transitions -/

/-- A call of one of the five transitions, without the credentials of the request. -/
inductive TransitionCall where
  | start (executor : ExecutionExecutor) (now : Timestamp) (attemptId eventId : Id)
  | markUploading (now : Timestamp) (eventId : Id)
  | markVerifying (now : Timestamp) (eventId : Id)
  | complete (receipt : ExecutionReceipt) (now : Timestamp) (ids : TerminalIds)
  | fail (input : FailExecutionInput) (occurredAt now : Timestamp) (ids : TerminalIds)

namespace TransitionCall

def operation : TransitionCall → TransitionOperation
  | start .. => .start
  | markUploading .. => .uploading
  | markVerifying .. => .verifying
  | complete .. => .complete
  | fail .. => .fail

/-- What the request hashes; the clock readings and generated ids are no part of it. -/
def payload : TransitionCall → ExecutionPayload
  | start executor .. => .start executor
  | markUploading .. => .stage .uploading
  | markVerifying .. => .stage .verifying
  | complete receipt .. => .complete receipt
  | fail input .. => .fail (trim input.code) (trim input.message) input.retryable

def op (request : WorkerRequest) : TransitionCall → Op
  | start executor now attemptId eventId => .start request executor now attemptId eventId
  | markUploading now eventId => .markUploading request now eventId
  | markVerifying now eventId => .markVerifying request now eventId
  | complete receipt now ids => .complete request receipt now ids
  | fail input occurredAt now ids => .fail request input occurredAt now ids

def run (platform : Platform) (request : WorkerRequest) :
    TransitionCall → Database → Except RegistryError (ExecutionTransitionResult × Database)
  | start executor now attemptId eventId =>
    Execution.start platform request executor now attemptId eventId
  | markUploading now eventId => Execution.markUploading platform request now eventId
  | markVerifying now eventId => Execution.markVerifying platform request now eventId
  | complete receipt now ids => Execution.complete platform request receipt now ids
  | fail input occurredAt now ids => Execution.fail platform request input occurredAt now ids

/-- The checks of the payload before the worker is authenticated. -/
def check : ExecutionPayload → Except RegistryError Unit
  | .start executor =>
    require (isExecutionExecutor executor = true) (.validation "Invalid execution executor")
  | .complete receipt =>
    require (isExecutionReceipt receipt = true) (.validation "Invalid execution receipt")
  | _ => pure ()

variable (platform : Platform) (request : WorkerRequest)

def key (call : TransitionCall) (idempotencyKey : String) : TransitionKey :=
  request.key idempotencyKey call.operation (platform.hashPayload call.payload)

/-- The transaction of the call. -/
def body (call : TransitionCall) (idempotencyKey : String) :
    Database → Except RegistryError (ExecutionTransitionResult × Database) :=
  let key := call.key platform request idempotencyKey
  match call with
  | start executor now attemptId eventId =>
    startInTransaction platform request executor key now attemptId eventId
  | markUploading now eventId => stageInTransaction platform request uploadingStage key now eventId
  | markVerifying now eventId => stageInTransaction platform request verifyingStage key now eventId
  | complete receipt now ids => terminalInTransaction platform request (.receipt receipt) key now ids
  | fail input occurredAt now ids => fun db => do
    let failure : ExecutionFailure :=
      { code := trim input.code, message := trim input.message, retryable := input.retryable
        occurredAt }
    require (isExecutionFailure failure = true) (.validation "Invalid execution failure")
    terminalInTransaction platform request (.failure failure) key now ids db

/-- The shape the five transitions share. -/
theorem run_eq (call : TransitionCall) (db : Database) :
    call.run platform request db = (do
      check call.payload
      let idempotencyKey ← normalizeIdempotencyKey request.idempotencyKey
      replayOr platform request (call.key platform request idempotencyKey)
        (call.body platform request idempotencyKey) db) := by
  cases call with
  | start | complete => rfl
  | markUploading | markVerifying | fail =>
    -- These check nothing before the worker is authenticated.
    simp only [payload, check, pure_bind]
    rfl

variable {platform request}

theorem body_records {call : TransitionCall} {idempotencyKey : String} {db db' : Database}
    {result : ExecutionTransitionResult} (hc : Coherent (view db))
    (h : call.body platform request idempotencyKey db = .ok (result, db')) :
    Recorded (call.key platform request idempotencyKey) result db db' := by
  cases call with
  | start => exact startInTransaction_records hc h
  | markUploading => exact stageInTransaction_records hc h
  | markVerifying => exact stageInTransaction_records hc h
  | complete => exact terminalInTransaction_records hc h
  | fail =>
    simp only [body, bind_eq_ok] at h
    obtain ⟨_, -, h⟩ := h
    exact terminalInTransaction_records hc h

end TransitionCall

/-! ### What is stored under a key -/

/-- The request stored under the worker, the lease and the idempotency key of `key`. -/
def requestUnder (requests : List TransitionRequest) (key : TransitionKey) :
    Option TransitionRequest :=
  requests.find? fun row => decide (row.workerId = key.workerId) &&
    decide (row.leaseId = key.leaseId) && decide (row.idempotencyKey = key.idempotencyKey)

/-- A valid answer to `key` is stored, with the attempt and the event of `result`. -/
def Stored (key : TransitionKey) (result : ExecutionTransitionResult) (db : Database) : Prop :=
  ∃ row, requestUnder db.transitionRequests key = some row ∧
    (row.operation = key.operation ∧ row.payloadHash = key.payloadHash) ∧
    (row.result.attempt = result.attempt ∧ row.result.event = result.event) ∧
    isExecutionAttempt row.result.attempt = true ∧ isExecutionEvent row.result.event = true

section Stored

variable {platform : Platform} {request : WorkerRequest} {key : TransitionKey}
  {result : ExecutionTransitionResult} {db db' : Database}
  {body : Database → Except RegistryError (ExecutionTransitionResult × Database)}

theorem Stored.mono (h : Stored key result db)
    (hrequests : db.transitionRequests <+: db'.transitionRequests) : Stored key result db' := by
  obtain ⟨row, hfind, hrow⟩ := h
  exact ⟨row, hrequests.find?_eq_some hfind, hrow⟩

theorem Recorded.toStored (h : Recorded key result db db') : Stored key result db' := by
  obtain ⟨createdAt, hstored⟩ := h.stored
  have hnone : requestUnder db.transitionRequests key = none := by
    refine List.find?_eq_none.mpr fun row hrow => ?_
    have hfresh := h.fresh row hrow
    simp only [Bool.and_eq_true, decide_eq_true_eq]
    rintro ⟨⟨hworker, hlease⟩, hkey⟩
    exact hfresh hworker hlease hkey
  refine ⟨{ workerId := key.workerId, leaseId := key.leaseId, idempotencyKey := key.idempotencyKey
            operation := key.operation, payloadHash := key.payloadHash, result, createdAt },
    ?_, ⟨rfl, rfl⟩, ⟨rfl, rfl⟩, h.attempt, h.event⟩
  rw [requestUnder] at hnone ⊢
  rw [hstored, List.find?_append, hnone]
  simp

theorem findReplay_eq_some {replay : ExecutionTransitionResult}
    (h : findReplay db key = .ok (some replay)) :
    replay.replayed = true ∧ Stored key replay db := by
  unfold findReplay at h
  split at h
  · simp only [pure_eq_ok, reduceCtorEq] at h
  · rename_i row hfind
    simp only [bind_eq_ok, require_eq_ok, pure_eq_ok, Option.some.injEq] at h
    obtain ⟨_, hsame, _, hvalid, rfl⟩ := h
    exact ⟨rfl, row, hfind, hsame, ⟨rfl, rfl⟩, hvalid⟩

theorem findReplay_of_stored (h : Stored key result db) :
    findReplay db key = .ok (some { result with replayed := true }) := by
  obtain ⟨row, hfind, hsame, ⟨hattempt, hevent⟩, hvalid⟩ := h
  rw [requestUnder] at hfind
  simp only [findReplay, hfind, require, if_pos hsame, if_pos hvalid, ok_bind]
  rw [← hattempt, ← hevent]
  rfl

/-- A request under the key that asks for something else is refused. -/
theorem findReplay_of_other {other : TransitionKey} (h : Stored key result db)
    (hworker : other.workerId = key.workerId) (hlease : other.leaseId = key.leaseId)
    (hkey : other.idempotencyKey = key.idempotencyKey)
    (hother : ¬(other.operation = key.operation ∧ other.payloadHash = key.payloadHash)) :
    ∃ error, findReplay db other = .error error := by
  obtain ⟨row, hfind, ⟨hoperation, hhash⟩, -⟩ := h
  have hdiffers : ¬(row.operation = other.operation ∧ row.payloadHash = other.payloadHash) := by
    rw [hoperation, hhash]
    exact fun hsame => hother ⟨hsame.1.symm, hsame.2.symm⟩
  rw [requestUnder, ← hworker, ← hlease, ← hkey] at hfind
  simp only [findReplay, hfind, require, if_neg hdiffers]
  exact ⟨_, rfl⟩

/-- However the call succeeded, its answer is stored afterwards. -/
theorem stored_of_ok (hbody : body db = .ok (result, db') → Recorded key result db db')
    (h : replayOr platform request key body db = .ok (result, db')) : Stored key result db' := by
  simp only [replayOr, bind_eq_ok] at h
  obtain ⟨_, -, replay, hfind, h⟩ := h
  split at h
  · rename_i replay
    simp only [pure_eq_ok, Prod.mk.injEq] at h
    obtain ⟨rfl, rfl⟩ := h
    exact (findReplay_eq_some hfind).2
  · exact (hbody h).toStored

theorem replayOr_of_stored (h : Stored key result db)
    (hauthentic : ∃ context, authenticate platform db request.workerId request.credential
      request.leaseId request.leaseToken = .ok context) :
    replayOr platform request key body db = .ok ({ result with replayed := true }, db) := by
  obtain ⟨context, hcontext⟩ := hauthentic
  simp only [replayOr, hcontext, findReplay_of_stored h, ok_bind]
  rfl

theorem replayOr_of_other {other : TransitionKey} (h : Stored key result db)
    (hworker : other.workerId = key.workerId) (hlease : other.leaseId = key.leaseId)
    (hkey : other.idempotencyKey = key.idempotencyKey)
    (hother : ¬(other.operation = key.operation ∧ other.payloadHash = key.payloadHash)) :
    ∃ error, replayOr platform request other body db = .error error := by
  obtain ⟨error, hfind⟩ := findReplay_of_other h hworker hlease hkey hother
  unfold replayOr
  cases hcontext : authenticate platform db request.workerId request.credential request.leaseId
      request.leaseToken with
  | error refused => exact ⟨refused, rfl⟩
  | ok context => exact ⟨error, by rw [ok_bind, hfind]; rfl⟩

end Stored

/-! ### Every run -/

namespace TransitionCall

variable {platform : Platform} {options : WorkerProtocolOptions} {request : WorkerRequest}
  {call : TransitionCall} {db db' : Database} {result : ExecutionTransitionResult}

theorem step_op : step platform options db (call.op request) =
    (commit (call.run platform request) db).2 := by
  cases call <;> rfl

/-- A successful call passed its checks and left its answer under its key. -/
theorem stored_of_run (hc : Coherent (view db))
    (h : call.run platform request db = .ok (result, db')) :
    ∃ idempotencyKey, check call.payload = .ok () ∧
      normalizeIdempotencyKey request.idempotencyKey = .ok idempotencyKey ∧
      Stored (call.key platform request idempotencyKey) result db' := by
  rw [run_eq] at h
  simp only [bind_eq_ok] at h
  obtain ⟨_, hcheck, idempotencyKey, hkey, h⟩ := h
  exact ⟨idempotencyKey, hcheck, hkey, stored_of_ok (body_records hc) h⟩

variable {request' : WorkerRequest} {call' : TransitionCall} {idempotencyKey : String}

/-- A later call for the same is answered by what is stored. -/
theorem run_of_stored (hstored : Stored (call.key platform request idempotencyKey) result db)
    (hworker : request'.workerId = request.workerId) (hlease : request'.leaseId = request.leaseId)
    (hkey : normalizeIdempotencyKey request'.idempotencyKey = .ok idempotencyKey)
    (hcheck : check call.payload = .ok ()) (hoperation : call'.operation = call.operation)
    (hpayload : call'.payload = call.payload)
    (hauthentic : ∃ context, authenticate platform db request'.workerId request'.credential
      request'.leaseId request'.leaseToken = .ok context) :
    call'.run platform request' db = .ok ({ result with replayed := true }, db) := by
  have hsame : call'.key platform request' idempotencyKey =
      call.key platform request idempotencyKey := by
    simp only [key, WorkerRequest.key, hworker, hlease, hoperation, hpayload]
  rw [run_eq, hpayload, hcheck, hkey, ok_bind, ok_bind, hsame]
  exact replayOr_of_stored hstored hauthentic

/-- A later call for something else is refused. -/
theorem run_of_other (hstored : Stored (call.key platform request idempotencyKey) result db)
    (hworker : request'.workerId = request.workerId) (hlease : request'.leaseId = request.leaseId)
    (hkey : normalizeIdempotencyKey request'.idempotencyKey = .ok idempotencyKey)
    (hother : call'.operation ≠ call.operation ∨
      platform.hashPayload call'.payload ≠ platform.hashPayload call.payload) :
    ∃ error, call'.run platform request' db = .error error := by
  rw [run_eq, hkey, ok_bind]
  cases check call'.payload with
  | error error => exact ⟨error, rfl⟩
  | ok u =>
    refine replayOr_of_other hstored hworker hlease rfl ?_
    rintro ⟨hoperation, hhash⟩
    rcases hother with hne | hne
    · exact hne hoperation
    · exact hne hhash

end TransitionCall

section

variable {platform : Platform} {options : WorkerProtocolOptions}

/-- Once a transition succeeded for a worker, a lease and an idempotency key, every later
    authenticated call of the operation with the key and the payload returns its attempt and event as
    a replay, a call with the key and another operation or payload fails, provided the digests of the
    two payloads differ, and neither changes the database; nor does any call that fails. -/
theorem transitions_replay_exactly (ops later : List Op) (request : WorkerRequest)
    (call : TransitionCall) :
    let M := machine platform options
    let db := M.run ops
    let db' := M.runFrom (step platform options db (call.op request)) later
    (∀ result, (commit (call.run platform request) db).1 = .ok result →
      ∀ (request' : WorkerRequest) (call' : TransitionCall),
        request'.workerId = request.workerId → request'.leaseId = request.leaseId →
        normalizeIdempotencyKey request'.idempotencyKey =
          normalizeIdempotencyKey request.idempotencyKey →
        (call'.operation = call.operation → call'.payload = call.payload →
          (∃ context, authenticate platform db' request'.workerId request'.credential
            request'.leaseId request'.leaseToken = .ok context) →
          commit (call'.run platform request') db' = (.ok { result with replayed := true }, db')) ∧
        (call'.operation ≠ call.operation ∨ call'.payload ≠ call.payload →
          (platform.hashPayload call'.payload = platform.hashPayload call.payload →
            call'.payload = call.payload) →
          ∃ error, commit (call'.run platform request') db' = (.error error, db'))) ∧
    ∀ error, (commit (call.run platform request) db).1 = .error error →
      step platform options db (call.op request) = db := by
  intro M db db'
  have hc : Coherent (view db) := coherent_run platform options ops
  constructor
  · intro result hok request' call' hworker hlease hkeys
    obtain ⟨next, hrun⟩ := commit_fst_ok hok
    obtain ⟨idempotencyKey, hcheck, hkey, hstored⟩ := TransitionCall.stored_of_run hc hrun
    rw [hkey] at hkeys
    have hnext : step platform options db (call.op request) = next := by
      rw [TransitionCall.step_op, commit_of_ok hrun]
    rw [← hnext] at hstored
    have hcoherent :=
      Protocol.coherent_of_steps hc (steps_of_step platform options hc (call.op request))
    have hlater := hstored.mono (requests_runFrom platform options hcoherent later)
    constructor
    · intro hoperation hpayload hauthentic
      exact commit_of_ok (TransitionCall.run_of_stored hlater hworker hlease hkeys hcheck hoperation
        hpayload hauthentic)
    · intro hother hcollision
      obtain ⟨error, hrefused⟩ := TransitionCall.run_of_other hlater hworker hlease hkeys
        (hother.imp id fun hne hhash => hne (hcollision hhash))
      exact ⟨error, commit_of_error hrefused⟩
  · intro error herror
    rw [TransitionCall.step_op]
    exact commit_fst_error herror

end

/-! ### A started execution -/

def startRequest : WorkerRequest where
  workerId := 1
  credential := "credential"
  leaseId := 1
  leaseToken := "token"
  idempotencyKey := "first"

def startCall (now : Timestamp) (id : Id) : TransitionCall :=
  .start { executorId := "fetch", version := "1.0.0", mode := .fixture } now id id

def leasedJob : List Op := twoJobs "https://a.test/" ++ [claimAt 1 1]

/-- What happens after the start: the lease expires and the attempt is given up. -/
def givenUp : List Op := [.reapExpired 1000000, .reconcileExpired 1000000 fun i => i + 2]

def leasedDatabase : Database := (machine (samplePlatform fun _ => none) .default).run leasedJob

def givenUpDatabase : Database :=
  (machine (samplePlatform fun _ => none) .default).runFrom
    (step (samplePlatform fun _ => none) .default leasedDatabase ((startCall 2 1).op startRequest))
    givenUp

theorem startCall_ok :
    (commit ((startCall 2 1).run (samplePlatform fun _ => none) startRequest)
      leasedDatabase).1.isOk = true := by
  decide

theorem startRequest_authentic :
    (authenticate (samplePlatform fun _ => none) givenUpDatabase 1 "credential" 1
      "token").isOk = true := by
  decide +kernel

/-- The start of an execution that was given up since is answered again, and its key is good for
    nothing else. -/
theorem start_replayed :
    (∃ result, commit ((startCall 3000000 9).run (samplePlatform fun _ => none) startRequest)
      givenUpDatabase = (.ok result, givenUpDatabase)) ∧
    ∃ error, commit
      ((TransitionCall.markUploading 3 9).run (samplePlatform fun _ => none) startRequest)
      givenUpDatabase = (.error error, givenUpDatabase) := by
  obtain ⟨result, hok⟩ := isOk_iff.mp startCall_ok
  have hlater := (transitions_replay_exactly leasedJob givenUp startRequest (startCall 2 1)).1
    result hok startRequest
  constructor
  · obtain ⟨hreplay, -⟩ := hlater (startCall 3000000 9) rfl rfl rfl
    exact ⟨_, hreplay rfl rfl (isOk_iff.mp startRequest_authentic)⟩
  · obtain ⟨-, hrefuse⟩ := hlater (.markUploading 3 9) rfl rfl rfl
    exact hrefuse (Or.inl (by decide)) fun hcollision => absurd hcollision (by decide)

end MarkorbitKnowledge.Execution
