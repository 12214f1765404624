import Mathlib.Tactic.MkIffOfInductiveProp
import MarkorbitKnowledge.Delivery.History
import MarkorbitKnowledge.Delivery.Service

/-!
# What the repository of deliveries writes

A repository call either leaves the database as it was or makes one `Write`: it inserts a prepared
submission with its first event, or it makes one `Change` of one stored submission and appends one
event.  There is one lemma for each call; the machine's steps are then sequences of writes
(`writes_of_step`), and whatever each write keeps holds in every state of every run.
-/

namespace MarkorbitKnowledge.Delivery

open Contracts Fallible Transitions
open Tables (Keyed KeysUnique key)

variable {platform : Platform}

/-! ### Rows that parse -/

/-- What `parseSubmission` checks of the frozen columns of a row. -/
@[mk_iff]
structure FrozenValid (platform : Platform) (s : Submission) : Prop where
  metadata : isUuid s.coreWorkspaceId = true ∧
    s.idempotencyKey = "ready-package-v2-delivery:" ++ idText "rvd" s.submissionId ∧
    trim s.requestJson ≠ "" ∧ platform.sha256 s.requestJson = s.requestSha256
  request : ∃ request, platform.parseRequest s.requestJson = some request ∧
    isReadyPackageV2DeliveryRequestV1 request = true ∧ requestMatches request s = true

/-- The rows `parseSubmission` accepts. -/
@[mk_iff]
structure Valid (platform : Platform) (s : Submission) : Prop extends FrozenValid platform s where
  transport : ∀ evidence, s.transportResult = some evidence →
    isReadyPackageV2DeliveryResultV1 evidence.toDeliveryResult = true ∧
      evidence.deliveryId = s.submissionId ∧ evidence.readyPackageId = s.readyPackageId ∧
      evidence.requestSha256 = s.requestSha256
  pending : s.state = .pending → s.result = none
  recorded : s.state = .resultRecorded → ∃ result, s.result = some result ∧
    isReadyPackageV2DeliveryResultV1 result.toDeliveryResult = true ∧
    sameResult s.transportResult result.toDeliveryResult = true

theorem validateResultEvidence_eq_ok {value : Option ResultEvidence} {u : Unit} :
    validateResultEvidence value = .ok u ↔
      ∃ evidence, value = some evidence ∧
        isReadyPackageV2DeliveryResultV1 evidence.toDeliveryResult = true := by
  simp [validateResultEvidence]

/-- A row is parsed exactly when it is valid, and parsing gives the row. -/
theorem parseSubmission_eq_ok {s s' : Submission} :
    parseSubmission platform s = .ok s' ↔ s = s' ∧ Valid platform s := by
  unfold parseSubmission
  cases ht : s.transportResult <;> cases hs : s.state <;>
    simp only [ht, hs, frozenValid_iff, valid_iff, bind_eq_ok, require_eq_ok, orThrow_eq_ok,
      pure_eq_ok, validateResultEvidence_eq_ok]
  all_goals grind

/-- A valid row that no result was recorded for is still pending. -/
theorem Valid.pending_of_open {s : Submission} (h : Valid platform s)
    (hopen : s.transportResult = none) : s.state = .pending := by
  cases hs : s.state with
  | pending => rfl
  | resultRecorded =>
    obtain ⟨result, -, -, hsame⟩ := h.recorded hs
    simp [hopen, sameResult] at hsame

theorem requireSubmission_eq_ok {db : Database} {workspaceId submissionId : Id} {s : Submission} :
    requireSubmission platform db workspaceId submissionId = .ok s ↔
      Tables.find? db.submissions (workspaceId, submissionId) = some s ∧ Valid platform s := by
  simp only [requireSubmission, bind_eq_ok, orThrow_eq_ok, parseSubmission_eq_ok]
  constructor
  · rintro ⟨row, hrow, rfl, hvalid⟩
    exact ⟨hrow, hvalid⟩
  · rintro ⟨hrow, hvalid⟩
    exact ⟨s, hrow, rfl, hvalid⟩

theorem persistInsideTransaction_eq_ok {db db' : Database} {s : Submission} :
    persistInsideTransaction platform db s = .ok db' ↔
      Valid platform s ∧ { db with submissions := Tables.update db.submissions s } = db' := by
  simp only [persistInsideTransaction, bind_eq_ok, parseSubmission_eq_ok, pure_eq_ok]
  constructor
  · rintro ⟨_, ⟨-, hvalid⟩, heq⟩
    exact ⟨hvalid, heq⟩
  · rintro ⟨hvalid, heq⟩
    exact ⟨s, ⟨rfl, hvalid⟩, heq⟩

/-- A row found for a package is a stored row that parses. -/
theorem getByReadyPackage_some {db : Database} {workspaceId readyPackageId : Id} {s : Submission}
    (h : getByReadyPackage platform db workspaceId readyPackageId = .ok (some s)) :
    s ∈ db.submissions ∧ s.workspaceId = workspaceId ∧ s.readyPackageId = readyPackageId ∧
      Valid platform s := by
  rw [getByReadyPackage, mapM_eq_ok_some] at h
  obtain ⟨row, hfind, hparse⟩ := h
  obtain ⟨rfl, hvalid⟩ := parseSubmission_eq_ok.mp hparse
  have hmatch := List.find?_some hfind
  simp only [Bool.and_eq_true, decide_eq_true_eq] at hmatch
  exact ⟨List.mem_of_find?_eq_some hfind, hmatch.1, hmatch.2, hvalid⟩

/-! ### Events -/

/-- An appended event gets the next sequence number of its submission. -/
def numbered (es : List AuditEvent) (event : AuditEvent) : AuditEvent :=
  { event with sequence := nextSequence es }

theorem appendAuditEvent_eq_ok {db db' : Database} {input : AuditEvent} :
    appendAuditEvent db input = .ok db' ↔
      let stored := eventsOf db input.workspaceId input.submissionId
      isAuditEvent (numbered stored input) = true ∧
        (∀ other ∈ stored, other.sequence ≠ nextSequence stored) ∧
        (∀ other ∈ stored, input.attemptNumber.isSome = true → other.type = input.type →
          other.attemptNumber ≠ input.attemptNumber) ∧
        { db with auditEvents := db.auditEvents ++ [numbered stored input] } = db' := by
  simp only [appendAuditEvent, bind_eq_ok, require_eq_ok, pure_eq_ok, numbered]
  constructor
  · rintro ⟨_, hevent, _, hsequence, _, hattempt, heq⟩
    exact ⟨hevent, hsequence, hattempt, heq⟩
  · rintro ⟨hevent, hsequence, hattempt, heq⟩
    exact ⟨(), hevent, (), hsequence, (), hattempt, heq⟩

/-- The event belongs to the submission. -/
def Owns (s : Submission) (event : AuditEvent) : Prop :=
  event.workspaceId = s.workspaceId ∧ event.submissionId = s.submissionId

/-- The events of a stored submission. -/
def Database.eventsFor (db : Database) (s : Submission) : List AuditEvent :=
  eventsOf db s.workspaceId s.submissionId

theorem mem_eventsFor {db : Database} {s : Submission} {event : AuditEvent} :
    event ∈ db.eventsFor s ↔ event ∈ db.auditEvents ∧ Owns s event := by
  simp [Database.eventsFor, eventsOf, Owns]

/-- An appended event is read by its own submission only. -/
theorem eventsFor_append {db db' : Database} {event : AuditEvent} {s : Submission}
    (h : db'.auditEvents = db.auditEvents ++ [event]) :
    (Owns s event → db'.eventsFor s = db.eventsFor s ++ [event]) ∧
      (¬ Owns s event → db'.eventsFor s = db.eventsFor s) := by
  constructor
  · rintro ⟨hworkspace, hsubmission⟩
    simp [Database.eventsFor, eventsOf, h, hworkspace, hsubmission]
  · intro hnot
    rw [Owns, not_and_or] at hnot
    rcases hnot with hnot | hnot <;> simp [Database.eventsFor, eventsOf, h, hnot]

/-! ### Changes and writes -/

/-- The changes the recording calls make of a submission with events `es`, each with its event. -/
inductive Change (es : List AuditEvent) (s : Submission) : Submission → AuditEvent → Prop
  | attempt (now : TimestampText) (hpending : s.state = .pending) (hopen : s.transportResult = none) :
    Change es s
      { s with
        transportAttempts := s.transportAttempts + 1
        lastTransportAttemptedAt := some now
        updatedAt := now }
      (numbered es (auditEvent s .transportAttemptStarted now (some (s.transportAttempts + 1))))
  | uncertainty (now : TimestampText) (issueCode : String) (httpStatus : Nat)
      (hpending : s.state = .pending) (hopen : s.transportResult = none)
      (hattempts : 0 < s.transportAttempts)
      (hnew : ∀ other ∈ es, other.type = .transportOutcomeUnknown →
        other.attemptNumber ≠ some s.transportAttempts) :
    Change es s s
      (numbered es { auditEvent s .transportOutcomeUnknown now (some s.transportAttempts) with
        issueCode := some issueCode
        httpStatus := some httpStatus })
  | result (now : TimestampText) (result : DeliveryResult) (hpending : s.state = .pending)
      (hopen : s.transportResult = none) (hattempts : 0 < s.transportAttempts)
      (hids : result.deliveryId = s.submissionId ∧ result.readyPackageId = s.readyPackageId ∧
        result.requestSha256 = s.requestSha256) :
    Change es s
      { s with transportResult := some { result with recordedAt := now }, updatedAt := now }
      (numbered es { auditEvent s .transportResultRecorded now (some s.transportAttempts) with
        resultStatus := some result.status })
  | finalize (now : TimestampText) (result : DeliveryResult) (hpending : s.state = .pending)
      (hsame : sameResult s.transportResult result = true) (hattempts : 0 < s.transportAttempts) :
    Change es s
      { s with
        state := .resultRecorded
        result := some { result with recordedAt := now }
        updatedAt := now }
      (numbered es { auditEvent s .finalized now (some s.transportAttempts) with
        resultStatus := some result.status })

/-- One write of the repository, with the event it appends. -/
inductive Write (platform : Platform) (db : Database) : AuditEvent → Database → Prop
  | prepared (s : Submission) (hkey : ∀ other ∈ db.submissions, key other ≠ key s)
      (hpackage : ∀ other ∈ db.submissions,
        (other.workspaceId, other.readyPackageId) ≠ (s.workspaceId, s.readyPackageId))
      (hstate : s.state = .pending) (hattempts : s.transportAttempts = 0)
      (hlast : s.lastTransportAttemptedAt = none) (hopen : s.transportResult = none)
      (hresult : s.result = none) :
    Write platform db (numbered (db.eventsFor s) (auditEvent s .prepared s.createdAt none))
      { db with
        submissions := db.submissions ++ [s]
        auditEvents := db.auditEvents ++
          [numbered (db.eventsFor s) (auditEvent s .prepared s.createdAt none)] }
  | recorded (s s' : Submission) (event : AuditEvent) (hs : s ∈ db.submissions)
      (hvalid : Valid platform s) (hvalid' : Valid platform s')
      (hchange : Change (db.eventsFor s) s s' event) :
    Write platform db event
      { db with
        submissions := Tables.update db.submissions s'
        auditEvents := db.auditEvents ++ [event] }

/-- The key of the delivery an event is recorded for. -/
def AuditEvent.delivery (event : AuditEvent) : Id × Id := (event.workspaceId, event.submissionId)

theorem owns_iff_delivery {s : Submission} {event : AuditEvent} :
    Owns s event ↔ event.delivery = key s := by
  rw [Owns, AuditEvent.delivery, key_submission, Prod.mk.injEq]

/-- A successful call left the database as it was, or made one write of an event of the type, the time
    and the delivery given. -/
def Wrote (platform : Platform) (type : AuditEventType) (now : Timestamp) (delivery : Id × Id)
    (db db' : Database) : Prop :=
  db' = db ∨ ∃ event, Write platform db event db' ∧ event.type = type ∧
    event.recordedAt = isoText now ∧ event.delivery = delivery

/-- After its preparation a delivery is written to only while it is pending. -/
theorem Write.pending {db db' : Database} {event : AuditEvent} (h : Write platform db event db')
    (htype : event.type ≠ .prepared) :
    ∃ s ∈ db.submissions, key s = event.delivery ∧ s.state = .pending := by
  cases h with
  | prepared s => exact absurd rfl htype
  | recorded s s' _ hs hvalid hvalid' hchange =>
    refine ⟨s, hs, ?_, ?_⟩
    · cases hchange <;> rfl
    · cases hchange <;> assumption

/-! ### The calls -/

theorem prepare_wrote {input : PrepareInput} {now : Timestamp} {id : Id} {db db' : Database}
    {recorded : Recorded} (h : prepare platform input now id db = .ok (recorded, db')) :
    Wrote platform .prepared now (input.workspaceId, id) db db' := by
  simp only [prepare, bind_eq_ok, require_eq_ok] at h
  obtain ⟨target, -, _, -, _, -, existing, -, exportJson, -, h⟩ := h
  cases existing with
  | some existing =>
    simp only [bind_eq_ok, require_eq_ok, pure_eq_ok, Prod.mk.injEq] at h
    obtain ⟨_, -, -, rfl⟩ := h
    exact Or.inl rfl
  | none =>
    simp only [bind_eq_ok, require_eq_ok, orThrow_eq_ok, insertSubmission, pure_eq_ok,
      Prod.mk.injEq] at h
    obtain ⟨_, -, canonicalExport, -, _, -, _, ⟨_, hkey, _, hpackage, rfl⟩, _, happend, -, rfl⟩ := h
    obtain ⟨-, -, -, rfl⟩ := appendAuditEvent_eq_ok.mp happend
    refine Or.inr ⟨_, Write.prepared (preparedSubmission platform input.workspaceId target
      input.readyPackage (platform.sha256 exportJson) _ id (isoText now)) ?_ ?_ rfl rfl rfl rfl rfl,
      rfl, rfl, rfl⟩
    · intro other hother
      exact hkey other hother
    · intro other hother
      exact hpackage other hother

theorem servicePrepare_wrote {input : PrepareInput} {now : Timestamp} {id : Id} {db db' : Database}
    {recorded : Recorded} (h : servicePrepare platform input now id db = .ok (recorded, db')) :
    Wrote platform .prepared now (input.workspaceId, id) db db' := by
  simp only [servicePrepare, bind_eq_ok] at h
  obtain ⟨existing, -, h⟩ := h
  cases existing with
  | some existing =>
    simp only [bind_eq_ok, require_eq_ok, pure_eq_ok, Prod.mk.injEq] at h
    obtain ⟨_, -, -, rfl⟩ := h
    exact Or.inl rfl
  | none => exact prepare_wrote h

/-- The columns of a submission that are fixed when it is prepared. -/
def Submission.frozen (s : Submission) : Id × Id × Id × String × String × Digest :=
  (s.workspaceId, s.submissionId, s.readyPackageId, s.idempotencyKey, s.requestJson,
    s.requestSha256)

/-- An attempt is started only while no result is recorded; the submission returned is the one
    stored, with the frozen columns it had. -/
theorem markTransportAttempt_wrote {workspaceId submissionId : Id} {now : Timestamp}
    {db db' : Database} {s' : Submission}
    (h : markTransportAttempt platform workspaceId submissionId now db = .ok (s', db')) :
    Wrote platform .transportAttemptStarted now (workspaceId, submissionId) db db' ∧
      ∃ s, Tables.find? db.submissions (workspaceId, submissionId) = some s ∧
        s'.frozen = s.frozen := by
  simp only [markTransportAttempt, bind_eq_ok, requireSubmission_eq_ok] at h
  obtain ⟨s, ⟨hfind, hvalid⟩, h⟩ := h
  split at h
  case isTrue =>
    simp only [pure_eq_ok, Prod.mk.injEq] at h
    obtain ⟨rfl, rfl⟩ := h
    exact ⟨Or.inl rfl, s, hfind, rfl⟩
  case isFalse hopen =>
    rw [not_or, Bool.not_eq_true, Option.isSome_eq_false_iff, Option.isNone_iff_eq_none] at hopen
    simp only [bind_eq_ok, persistInsideTransaction_eq_ok, pure_eq_ok, Prod.mk.injEq] at h
    obtain ⟨_, ⟨hvalid', rfl⟩, _, happend, rfl, rfl⟩ := h
    obtain ⟨-, -, -, rfl⟩ := appendAuditEvent_eq_ok.mp happend
    refine ⟨Or.inr ⟨_, Write.recorded s _ _ (Tables.mem_of_find? hfind) hvalid hvalid' ?_, rfl, rfl,
      Tables.key_of_find? hfind⟩, s, hfind, rfl⟩
    exact Change.attempt (isoText now) (hvalid.pending_of_open hopen.2) hopen.2

theorem recordTransportUncertainty_wrote {workspaceId submissionId : Id} {issueCode : String}
    {httpStatus : Nat} {now : Timestamp} {db db' : Database} {u : Unit}
    (hu : KeysUnique db.submissions)
    (h : recordTransportUncertainty platform workspaceId submissionId issueCode httpStatus now db =
      .ok (u, db')) :
    Wrote platform .transportOutcomeUnknown now (workspaceId, submissionId) db db' := by
  simp only [recordTransportUncertainty, bind_eq_ok, requireSubmission_eq_ok, require_eq_ok] at h
  obtain ⟨s, ⟨hfind, hvalid⟩, _, ⟨hpending, hopen⟩, _, hattempts, h⟩ := h
  have hs := Tables.mem_of_find? hfind
  split at h
  case h_1 =>
    simp only [bind_eq_ok, require_eq_ok, pure_eq_ok, Prod.mk.injEq] at h
    obtain ⟨_, -, -, rfl⟩ := h
    exact Or.inl rfl
  case h_2 =>
    simp only [bind_eq_ok, pure_eq_ok, Prod.mk.injEq] at h
    obtain ⟨_, happend, -, rfl⟩ := h
    obtain ⟨-, -, hnew, rfl⟩ := appendAuditEvent_eq_ok.mp happend
    have hchange : Change (db.eventsFor s) s s _ :=
      Change.uncertainty (isoText now) issueCode httpStatus hpending hopen hattempts
        fun other hother htype => hnew other hother rfl htype
    have hwrite : Write platform db _ _ := Write.recorded s s _ hs hvalid hvalid hchange
    rw [hu.update_self hs] at hwrite
    exact Or.inr ⟨_, hwrite, rfl, rfl, Tables.key_of_find? hfind⟩

/-- The repository takes the result for the submission. -/
def Accepted (result : DeliveryResult) (s : Submission) : Prop :=
  isReadyPackageV2DeliveryResultV1 result = true ∧ result.deliveryId = s.submissionId ∧
    result.readyPackageId = s.readyPackageId ∧ result.requestSha256 = s.requestSha256

theorem recordTransportResult_wrote {workspaceId submissionId : Id} {result : DeliveryResult}
    {now : Timestamp} {db db' : Database} {s' : Submission}
    (h : recordTransportResult platform workspaceId submissionId result now db = .ok (s', db')) :
    db' = db ∨ ∃ event s, Write platform db event db' ∧ event.type = .transportResultRecorded ∧
      event.recordedAt = isoText now ∧
      Tables.find? db.submissions (workspaceId, submissionId) = some s ∧ Owns s event ∧
      Accepted result s := by
  simp only [recordTransportResult, bind_eq_ok, require_eq_ok, requireSubmission_eq_ok,
    assertResultMatchesSubmission] at h
  obtain ⟨_, hcontract, s, ⟨hfind, hvalid⟩, _, hids, h⟩ := h
  split at h
  case isTrue =>
    simp only [bind_eq_ok, require_eq_ok, pure_eq_ok, Prod.mk.injEq] at h
    obtain ⟨_, -, -, rfl⟩ := h
    exact Or.inl rfl
  case isFalse hopen =>
    rw [Bool.not_eq_true, Option.isSome_eq_false_iff, Option.isNone_iff_eq_none] at hopen
    simp only [bind_eq_ok, require_eq_ok, persistInsideTransaction_eq_ok, pure_eq_ok,
      Prod.mk.injEq] at h
    obtain ⟨_, hattempts, _, ⟨hvalid', rfl⟩, _, happend, -, rfl⟩ := h
    obtain ⟨-, -, -, rfl⟩ := appendAuditEvent_eq_ok.mp happend
    refine Or.inr ⟨_, s, Write.recorded s _ _ (Tables.mem_of_find? hfind) hvalid hvalid' ?_, rfl,
      rfl, hfind, ⟨rfl, rfl⟩, hcontract, hids⟩
    exact Change.result (isoText now) result (hvalid.pending_of_open hopen) hopen hattempts hids

theorem recordResult_wrote {workspaceId submissionId : Id} {result : DeliveryResult}
    {now : Timestamp} {db db' : Database} {s' : Submission}
    (h : recordResult platform workspaceId submissionId result now db = .ok (s', db')) :
    Wrote platform .finalized now (workspaceId, submissionId) db db' := by
  simp only [recordResult, bind_eq_ok, require_eq_ok, requireSubmission_eq_ok,
    assertResultMatchesSubmission] at h
  obtain ⟨_, -, s, ⟨hfind, hvalid⟩, _, hids, h⟩ := h
  split at h
  case isTrue =>
    simp only [bind_eq_ok, require_eq_ok, pure_eq_ok, Prod.mk.injEq] at h
    obtain ⟨_, -, -, rfl⟩ := h
    exact Or.inl rfl
  case isFalse hstate =>
    have hpending : s.state = .pending := by
      cases hs : s.state with
      | pending => rfl
      | resultRecorded => exact absurd hs hstate
    simp only [bind_eq_ok, require_eq_ok, persistInsideTransaction_eq_ok, pure_eq_ok,
      Prod.mk.injEq] at h
    obtain ⟨_, hsame, _, hattempts, _, ⟨hvalid', rfl⟩, _, happend, -, rfl⟩ := h
    obtain ⟨-, -, -, rfl⟩ := appendAuditEvent_eq_ok.mp happend
    refine Or.inr ⟨_, Write.recorded s _ _ (Tables.mem_of_find? hfind) hvalid hvalid' ?_, rfl, rfl,
      Tables.key_of_find? hfind⟩
    exact Change.finalize (isoText now) result hpending hsame hattempts

/-! ### Steps of the service -/

/-- What a write keeps of the keys. -/
theorem Write.keysUnique {db db' : Database} {event : AuditEvent} (h : Write platform db event db')
    (hu : KeysUnique db.submissions) : KeysUnique db'.submissions := by
  cases h with
  | prepared s hkey => exact hu.append_singleton hkey
  | recorded s s' => exact hu.update s'

theorem Write.auditEvents {db db' : Database} {event : AuditEvent}
    (h : Write platform db event db') : db'.auditEvents = db.auditEvents ++ [event] := by
  cases h <;> rfl

/-- The clock readings of a step, in their order. -/
def Op.readings : Op → List Timestamp
  | .prepare _ now _ => [now]
  | .submit _ _ _ now _ => [now]
  | .settle _ _ now finalNow _ => [now, finalNow]
  | .crash => []

/-- The delivery is stored and pending. -/
def Pending (db : Database) (delivery : Id × Id) : Prop :=
  ∃ s ∈ db.submissions, key s = delivery ∧ s.state = .pending

instance (db : Database) (delivery : Id × Id) : Decidable (Pending db delivery) :=
  inferInstanceAs (Decidable (∃ s ∈ db.submissions, _ ∧ _))

/-- The step is one for the delivery, which may still be written to. -/
def Concerns (delivery : Id × Id) (sys : System) : Op → Prop
  | .prepare input _ id => (input.workspaceId, id) = delivery
  | .submit workspaceId readyPackageId _ _ fault =>
    fault ≠ some (.database 0) ∧ Pending sys.database delivery ∧
      ∃ s ∈ sys.database.submissions, key s = delivery ∧ s.workspaceId = workspaceId ∧
        s.readyPackageId = readyPackageId
  | .settle index _ _ _ fault =>
    fault ≠ some (.database 0) ∧ Pending sys.database delivery ∧
      ∃ waiting ∈ sys.inFlight[index]?, (waiting.workspaceId, waiting.submissionId) = delivery
  | .crash => False

instance (delivery : Id × Id) (sys : System) (op : Op) : Decidable (Concerns delivery sys op) :=
  match op with
  | .prepare .. => inferInstanceAs (Decidable (_ = _))
  | .submit .. => inferInstanceAs (Decidable (_ ∧ _ ∧ _))
  | .settle .. => inferInstanceAs (Decidable (_ ∧ _ ∧ _))
  | .crash => inferInstanceAs (Decidable False)

/-- The clock readings a step can date events of a delivery with. -/
def Op.dates (delivery : Id × Id) (sys : System) (op : Op) : List Timestamp :=
  if Concerns delivery sys op then op.readings else []

/-- The answer a step records, and the submit it answers. -/
def Op.answer (sys : System) : Op → Option (Waiting × DeliveryResult)
  | .settle index (.answered result) _ _ fault =>
    if fault = some (.database 0) then none
    else sys.inFlight[index]?.map fun waiting => (waiting, result)
  | _ => none

/-- The outcome of the attempt that `s` is at was recorded as unknown. -/
def OutcomeUnknown (events : List AuditEvent) (s : Submission) : Prop :=
  ∃ event ∈ events, event.type = .transportOutcomeUnknown ∧
    event.attemptNumber = some s.transportAttempts

/-- The step does not record an answer of the delivery while its current attempt is recorded as
    outcome-unknown. -/
def AnswersKnown (delivery : Id × Id) (sys : System) (op : Op) : Prop :=
  ∀ waiting result, op.answer sys = some (waiting, result) →
    (waiting.workspaceId, waiting.submissionId) = delivery →
    ∀ s ∈ sys.database.submissions, key s = delivery → s.transportResult = none →
      Accepted result s → ¬ OutcomeUnknown (sys.database.eventsFor s) s

/-- The clock of a step has not gone back behind a stored event of the delivery, nor during the
    step. -/
def ClockForward (delivery : Id × Id) (sys : System) (op : Op) : Prop :=
  (op.dates delivery sys).Pairwise (· ≤ ·) ∧
    ∀ reading ∈ op.dates delivery sys, ∀ event ∈ sys.database.auditEvents,
      event.delivery = delivery → event.recordedAt.instant ≤ reading

/-- A step that keeps the evidence of the delivery consistent. -/
def Orderly (delivery : Id × Id) (sys : System) (op : Op) : Prop :=
  ClockForward delivery sys op ∧ AnswersKnown delivery sys op

/-- What an event has to be for the evidence of its delivery to stay consistent: dated after those
    before it, and a result only for an attempt whose outcome is not recorded as unknown. -/
structure Fitting (db : Database) (event : AuditEvent) : Prop where
  time : ∀ prior ∈ db.auditEvents, prior.delivery = event.delivery →
    prior.recordedAt.instant ≤ event.recordedAt.instant
  known : event.type = .transportResultRecorded → ∀ s ∈ db.submissions, Owns s event →
    s.transportResult = none → ¬ OutcomeUnknown (db.eventsFor s) s

/-- One write of a step.  An event of the delivery is dated by one of the step's readings, and it fits
    when the step is orderly. -/
def WriteIn (platform : Platform) (delivery : Id × Id) (sys : System) (op : Op)
    (db db' : Database) : Prop :=
  ∃ event, Write platform db event db' ∧ (event.delivery = delivery →
    event.recordedAt.instant ∈ op.dates delivery sys ∧ (Orderly delivery sys op → Fitting db event))

/-- A call that records no result is at most one write, which fits when its clock has not gone
    back. -/
theorem Wrote.writes {type : AuditEventType} {now : Timestamp} {delivery written : Id × Id}
    {sys : System} {op : Op} {db db' : Database} (h : Wrote platform type now written db db')
    (htype : type ≠ .transportResultRecorded)
    (hreading : written = delivery → (type ≠ .prepared → Pending db delivery) →
      now ∈ op.dates delivery sys)
    (htime : Orderly delivery sys op → now ∈ op.dates delivery sys → ∀ prior ∈ db.auditEvents,
      prior.delivery = delivery → prior.recordedAt.instant ≤ now) :
    Steps (WriteIn platform delivery sys op) db db' := by
  rcases h with rfl | ⟨event, hwrite, hevent, hnow, hwritten⟩
  · exact Relation.ReflTransGen.refl
  · refine Relation.ReflTransGen.single ⟨event, hwrite, fun hdelivery => ?_⟩
    have hmem : now ∈ op.dates delivery sys := by
      refine hreading (hwritten.symm.trans hdelivery) fun hother => ?_
      rw [← hdelivery]
      exact hwrite.pending (hevent ▸ hother)
    refine ⟨by rw [hnow]; exact hmem, fun horderly => ⟨fun prior hprior hsame => ?_, fun hresult => ?_⟩⟩
    · rw [hnow]
      exact htime horderly hmem prior hprior (hsame.trans hdelivery)
    · exact absurd (hevent.symm.trans hresult) htype

/-- A transaction makes the writes its body makes, or none. -/
theorem writes_of_commit {α : Type} {delivery : Id × Id} {sys : System} {op : Op}
    {fault : Option Fault} {call : Nat} {body : Database → Except DeliveryError (α × Database)}
    {db : Database}
    (h : ∀ a db', fault ≠ some (.database call) → body db = .ok (a, db') →
      Steps (WriteIn platform delivery sys op) db db') :
    Steps (WriteIn platform delivery sys op) db (commit (attempt fault call body) db).2 := by
  refine commit_rel Relation.ReflTransGen.refl fun a db' hok => ?_
  unfold attempt at hok
  split at hok
  · cases hok
  · next hfault => exact h a db' hfault hok

theorem writes_of_settle {delivery : Id × Id} {sys : System} {waiting : Waiting} {index : Nat}
    {outcome : TransportOutcome} {now finalNow : Timestamp} {fault : Option Fault}
    (hu : KeysUnique sys.database.submissions) (hwaiting : sys.inFlight[index]? = some waiting) :
    Steps (WriteIn platform delivery sys (.settle index outcome now finalNow fault)) sys.database
      (settleDatabase platform waiting outcome now finalNow fault sys.database) := by
  have hdates : ∀ {outcome : TransportOutcome}, fault ≠ some (.database 0) →
      (waiting.workspaceId, waiting.submissionId) = delivery → Pending sys.database delivery →
      Op.dates delivery sys (.settle index outcome now finalNow fault) = [now, finalNow] :=
    fun hfault hkey hpending => if_pos ⟨hfault, hpending, waiting, hwaiting, hkey⟩
  cases outcome with
  | failed issueCode httpStatus =>
    refine writes_of_commit fun a db' hfault hok => ?_
    refine (recordTransportUncertainty_wrote hu hok).writes (by decide) (fun hkey hpending => ?_)
      fun horderly hmem => horderly.1.2 now hmem
    rw [hdates hfault hkey (hpending (by decide))]
    exact List.mem_cons_self
  | answered result =>
    have hfirst : ∀ a db', fault ≠ some (.database 0) →
        recordTransportResult platform waiting.workspaceId waiting.submissionId result now
          sys.database = .ok (a, db') →
        Steps (WriteIn platform delivery sys (.settle index (.answered result) now finalNow fault))
          sys.database db' ∧
        (Pending db' delivery → (waiting.workspaceId, waiting.submissionId) = delivery →
          Pending sys.database delivery) ∧
        ∀ event ∈ db'.auditEvents, event ∈ sys.database.auditEvents ∨
          event.recordedAt = isoText now := by
      intro a db' hfault hok
      rcases recordTransportResult_wrote hok with
        rfl | ⟨event, s, hwrite, htype, hnow, hfind, howns, hacc⟩
      · exact ⟨Relation.ReflTransGen.refl, fun h _ => h, fun event hevent => Or.inl hevent⟩
      · have hkeys : event.delivery = (waiting.workspaceId, waiting.submissionId) :=
          (owns_iff_delivery.mp howns).trans (Tables.key_of_find? hfind)
        have hpending : Pending sys.database event.delivery := hwrite.pending (by rw [htype]; decide)
        refine ⟨Relation.ReflTransGen.single ⟨event, hwrite, fun hdelivery => ?_⟩,
          fun _ hkey => hkeys.trans hkey ▸ hpending, fun other hother => ?_⟩
        · have hmem : now ∈ Op.dates delivery sys
              (.settle index (.answered result) now finalNow fault) := by
            rw [hdates hfault (hkeys.symm.trans hdelivery) (hdelivery ▸ hpending)]
            exact List.mem_cons_self
          refine ⟨by rw [hnow]; exact hmem, fun horderly => ⟨fun prior hprior hsame => ?_, ?_⟩⟩
          · rw [hnow]
            exact horderly.1.2 now hmem prior hprior (hsame.trans hdelivery)
          · intro _ t ht htowns htopen
            have hkey : key t = delivery := (owns_iff_delivery.mp htowns).symm.trans hdelivery
            have hts : t = s := hu.eq_of_key ht (Tables.mem_of_find? hfind)
              ((owns_iff_delivery.mp htowns).symm.trans (owns_iff_delivery.mp howns))
            exact horderly.2 waiting result (by simp [Op.answer, hfault, hwaiting])
              (hkeys.symm.trans hdelivery) t ht hkey htopen (hts ▸ hacc)
        · rw [hwrite.auditEvents, List.mem_append, List.mem_singleton] at hother
          rcases hother with hother | rfl
          · exact Or.inl hother
          · exact Or.inr hnow
    unfold settleDatabase
    dsimp only
    cases hok : attempt fault 0 (recordTransportResult platform waiting.workspaceId
      waiting.submissionId result now) sys.database with
    | error e =>
      rw [commit_of_error hok]
    | ok r =>
      obtain ⟨a, db'⟩ := r
      rw [commit_of_ok hok]
      have hfault : fault ≠ some (.database 0) := by
        rintro rfl
        simp [attempt] at hok
      rw [attempt, if_neg hfault] at hok
      obtain ⟨hsteps, hpending, hevents⟩ := hfirst a db' hfault hok
      dsimp only
      split
      · exact hsteps
      · refine hsteps.trans (writes_of_commit fun b db'' _ hfinal => ?_)
        refine (recordResult_wrote hfinal).writes (by decide) (fun hkey hstored => ?_)
          fun horderly hmem prior hprior hsame => ?_
        · rw [hdates hfault hkey (hpending (hstored (by decide)) hkey)]
          exact List.mem_cons_of_mem _ List.mem_cons_self
        · rcases hevents prior hprior with hold | hnow
          · exact horderly.1.2 finalNow hmem prior hold hsame
          · -- The two readings of the step are in order, if they are readings for this delivery.
            have hconcerns : Concerns delivery sys
                (.settle index (.answered result) now finalNow fault) := by
              by_contra hnot
              rw [Op.dates, if_neg hnot] at hmem
              cases hmem
            have hordered := horderly.1.1
            rw [Op.dates, if_pos hconcerns] at hordered
            rw [hnow]
            exact List.rel_of_pairwise_cons hordered (by simp)

/-- A submit starts at most one attempt of the delivery it finds, or makes its stored result final; an
    attempt is started only for a stored submission without a result. -/
theorem startSubmit_wrote {workspaceId readyPackageId : Id} {configured : Bool} {now : Timestamp}
    {fault : Option Fault} {db db' : Database} {started : SubmitStart}
    (hu : KeysUnique db.submissions)
    (h : startSubmit platform workspaceId readyPackageId configured now fault db =
      .ok (started, db')) :
    ∃ s ∈ db.submissions, s.workspaceId = workspaceId ∧ s.readyPackageId = readyPackageId ∧
      (db' = db ∨ fault ≠ some (.database 0) ∧
        (Wrote platform .transportAttemptStarted now (key s) db db' ∨
          Wrote platform .finalized now (key s) db db')) ∧
      ∀ t, started = .attempt t →
        ∃ s ∈ db.submissions, s.transportResult = none ∧ t.frozen = s.frozen := by
  simp only [startSubmit, bind_eq_ok, orThrow_eq_ok] at h
  obtain ⟨_, hstored, s, rfl, h⟩ := h
  obtain ⟨hs, hworkspace, hpackage, -⟩ := getByReadyPackage_some hstored
  refine ⟨s, hs, hworkspace, hpackage, ?_⟩
  have hkeyed : (workspaceId, s.submissionId) = key s := by rw [key_submission, hworkspace]
  have hattempt : ∀ {state : DiagnosisState} {t : Submission}, (diagnose db s).state = state →
      state = .safeToSubmit ∨ state = .outcomeUnknownRetryExactRequest →
      attempt fault 0 (markTransportAttempt platform workspaceId s.submissionId now) db =
        .ok (t, db') →
      fault ≠ some (.database 0) ∧ Wrote platform .transportAttemptStarted now (key s) db db' ∧
        ∃ s ∈ db.submissions, s.transportResult = none ∧ t.frozen = s.frozen := by
    intro state t hdiagnosis hstate hmark
    unfold attempt at hmark
    split at hmark
    · cases hmark
    · next hfault =>
      obtain ⟨hwrote, s', hfind, hfrozen⟩ := markTransportAttempt_wrote hmark
      have hsame : s' = s := by
        have hkey : key s' = key s := by
          rw [Tables.key_of_find? hfind, key_submission, hworkspace]
        exact hu.eq_of_key (Tables.mem_of_find? hfind) hs hkey
      rw [hsame] at hfrozen
      exact ⟨hfault, hkeyed ▸ hwrote, s, hs, open_of_diagnosis hdiagnosis hstate, hfrozen⟩
  split at h
  case h_1 => cases h
  case h_2 =>
    simp only [pure_eq_ok, Prod.mk.injEq] at h
    obtain ⟨rfl, rfl⟩ := h
    exact ⟨Or.inl rfl, by rintro _ ⟨⟩⟩
  case h_3 => cases h
  case h_4 =>
    simp only [bind_eq_ok, orThrow_eq_ok, pure_eq_ok, Prod.mk.injEq] at h
    obtain ⟨evidence, -, ⟨t, _⟩, hrecord, rfl, rfl⟩ := h
    unfold attempt at hrecord
    split at hrecord
    · cases hrecord
    · next hfault =>
      exact ⟨Or.inr ⟨hfault, Or.inr (hkeyed ▸ recordResult_wrote hrecord)⟩, by rintro _ ⟨⟩⟩
  case h_5 hstate =>
    simp only [bind_eq_ok, require_eq_ok, pure_eq_ok, Prod.mk.injEq] at h
    obtain ⟨_, -, ⟨t, _⟩, hmark, rfl, rfl⟩ := h
    obtain ⟨hfault, hwrote, hopen⟩ := hattempt hstate (Or.inl rfl) hmark
    exact ⟨Or.inr ⟨hfault, Or.inl hwrote⟩, by rintro _ ⟨⟩; exact hopen⟩
  case h_6 hstate =>
    simp only [bind_eq_ok, require_eq_ok, pure_eq_ok, Prod.mk.injEq] at h
    obtain ⟨_, -, ⟨t, _⟩, hmark, rfl, rfl⟩ := h
    obtain ⟨hfault, hwrote, hopen⟩ := hattempt hstate (Or.inr rfl) hmark
    exact ⟨Or.inr ⟨hfault, Or.inl hwrote⟩, by rintro _ ⟨⟩; exact hopen⟩

theorem submit_database {workspaceId readyPackageId : Id} {configured : Bool} {now : Timestamp}
    {fault : Option Fault} {sys : System} :
    (submit platform workspaceId readyPackageId configured now fault sys).database =
      (commit (startSubmit platform workspaceId readyPackageId configured now fault)
        sys.database).2 := by
  unfold submit
  split
  next hcommit =>
    rw [hcommit]
    split
    · rfl
    · split <;> rfl

/-- The transport call that hands out the frozen request of a submission. -/
def transportCallOf (s : Submission) : TransportCall where
  workspaceId := s.workspaceId
  submissionId := s.submissionId
  requestJson := s.requestJson
  idempotencyKey := s.idempotencyKey

/-- A step calls the transport at most once, for a stored submission without a result, with the
    request and the key frozen there. -/
theorem step_calls {sys : System} (hu : KeysUnique sys.database.submissions) (op : Op) :
    (step platform sys op).calls = sys.calls ∨
      ∃ s ∈ sys.database.submissions, s.transportResult = none ∧
        (step platform sys op).calls = sys.calls ++ [transportCallOf s] := by
  cases op with
  | prepare input now id => exact Or.inl rfl
  | settle index outcome now finalNow fault =>
    left
    unfold step
    dsimp only
    split <;> rfl
  | crash => exact Or.inl rfl
  | submit workspaceId readyPackageId configured now fault =>
    change (submit platform workspaceId readyPackageId configured now fault sys).calls = _ ∨ ∃ s ∈ _,
      _ ∧ (submit platform workspaceId readyPackageId configured now fault sys).calls = _
    unfold submit
    cases hok : startSubmit platform workspaceId readyPackageId configured now fault sys.database with
    | error e =>
      rw [commit_of_error hok]
      left
      dsimp only
      split <;> rfl
    | ok r =>
      obtain ⟨started, db'⟩ := r
      rw [commit_of_ok hok]
      dsimp only
      split
      · exact Or.inl rfl
      · cases started with
        | done t => exact Or.inl rfl
        | attempt t =>
          obtain ⟨-, -, -, -, -, hattempt⟩ := startSubmit_wrote hu hok
          obtain ⟨s, hs, hopen, hfrozen⟩ := hattempt t rfl
          refine Or.inr ⟨s, hs, hopen, ?_⟩
          simp only [Submission.frozen, Prod.mk.injEq] at hfrozen
          simp [transportCallOf, hfrozen]

/-- A step of the service is a sequence of writes. -/
theorem writes_of_step {sys : System} (hu : KeysUnique sys.database.submissions)
    (delivery : Id × Id) (op : Op) :
    Steps (WriteIn platform delivery sys op) sys.database (step platform sys op).database := by
  cases op with
  | prepare input now id =>
    refine commit_rel Relation.ReflTransGen.refl fun a db' hok => ?_
    refine (servicePrepare_wrote hok).writes (by decide) (fun hkey _ => ?_)
      fun horderly hmem => horderly.1.2 now hmem
    have hconcerns : Concerns delivery sys (.prepare input now id) := hkey
    rw [Op.dates, if_pos hconcerns]
    exact List.mem_cons_self
  | submit workspaceId readyPackageId configured now fault =>
    change Steps _ _ (submit platform workspaceId readyPackageId configured now fault sys).database
    rw [submit_database]
    refine commit_rel Relation.ReflTransGen.refl fun started db' hok => ?_
    obtain ⟨s, hs, hworkspace, hpackage, hwrote, -⟩ := startSubmit_wrote hu hok
    rcases hwrote with rfl | ⟨hfault, hwrote⟩
    · exact Relation.ReflTransGen.refl
    · have hreading : key s = delivery → Pending sys.database delivery →
          now ∈ Op.dates delivery sys (.submit workspaceId readyPackageId configured now fault) := by
        intro hkey hpending
        rw [Op.dates, if_pos ⟨hfault, hpending, s, hs, hkey, hworkspace, hpackage⟩]
        exact List.mem_cons_self
      rcases hwrote with hwrote | hwrote
      · exact hwrote.writes (by decide) (fun hkey hpending => hreading hkey (hpending (by decide)))
          fun horderly hmem => horderly.1.2 now hmem
      · exact hwrote.writes (by decide) (fun hkey hpending => hreading hkey (hpending (by decide)))
          fun horderly hmem => horderly.1.2 now hmem
  | settle index outcome now finalNow fault =>
    cases hwaiting : sys.inFlight[index]? with
    | none =>
      simp only [step, hwaiting]
      exact Relation.ReflTransGen.refl
    | some waiting =>
      simp only [step, hwaiting]
      exact writes_of_settle hu hwaiting
  | crash => exact Relation.ReflTransGen.refl

end MarkorbitKnowledge.Delivery
