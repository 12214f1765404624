import Mathlib.Data.List.Chain
import Mathlib.Data.List.Induction
import Mathlib.Tactic.MkIffOfInductiveProp
import MarkorbitKnowledge.Delivery.Diagnosis

/-!
# The histories a diagnosis accepts

The diagnosis reads the events of a delivery in one pass and collects issues.  Here is what it
recognises: a `Timeline` is a history laid out by its grammar (the preparation, the attempts, the
result, the end), `Timeline.Formed` says that its events carry the numbers, the identities and the
times such a history has, and `Timeline.Agrees` that the document tells the same story.

The two sides meet in one step: a reader that has read a formed timeline takes an event without an
issue exactly when the event continues the timeline to a formed one (`takes_iff`).
-/

namespace MarkorbitKnowledge.Delivery

open Contracts

/-! ### Issues -/

section Issues

variable (r : Reader) (c : Prop) [Decidable c] (code message : String) (sequence : Option Nat)

@[simp] theorem issueIf_issues_eq_nil :
    (r.issueIf c code message sequence).issues = [] ↔ r.issues = [] ∧ ¬ c := by
  unfold Reader.issueIf
  split <;> simp_all

@[simp] theorem issueIf_transportAttemptCount :
    (r.issueIf c code message sequence).transportAttemptCount = r.transportAttemptCount := by
  unfold Reader.issueIf
  split <;> rfl

@[simp] theorem issueIf_lastAttemptNumber :
    (r.issueIf c code message sequence).lastAttemptNumber = r.lastAttemptNumber := by
  unfold Reader.issueIf
  split <;> rfl

@[simp] theorem issueIf_lastAttemptRecordedAt :
    (r.issueIf c code message sequence).lastAttemptRecordedAt = r.lastAttemptRecordedAt := by
  unfold Reader.issueIf
  split <;> rfl

@[simp] theorem issueIf_consumerResult :
    (r.issueIf c code message sequence).consumerResult = r.consumerResult := by
  unfold Reader.issueIf
  split <;> rfl

@[simp] theorem issueIf_finalized :
    (r.issueIf c code message sequence).finalized = r.finalized := by
  unfold Reader.issueIf
  split <;> rfl

@[simp] theorem issueIf_unknownAttempts :
    (r.issueIf c code message sequence).unknownAttempts = r.unknownAttempts := by
  unfold Reader.issueIf
  split <;> rfl

@[simp] theorem issueIf_priorRecordedAt :
    (r.issueIf c code message sequence).priorRecordedAt = r.priorRecordedAt := by
  unfold Reader.issueIf
  split <;> rfl

@[simp] theorem issueIf_atAttempt (event : AuditEvent) :
    (r.issueIf c code message sequence).atAttempt event ↔ r.atAttempt event := by
  simp [Reader.atAttempt]

end Issues

/-! ### One event -/

attribute [ext] Reader

/-- What an event changes of the reader, issues apart. -/
def Reader.advance (r : Reader) (event : AuditEvent) : Reader :=
  let r := { r with priorRecordedAt := some event.recordedAt }
  match event.type with
  | .prepared => r
  | .transportAttemptStarted =>
    { r with
      transportAttemptCount := r.transportAttemptCount + 1
      lastAttemptNumber := event.attemptNumber
      lastAttemptRecordedAt := some event.recordedAt }
  | .transportOutcomeUnknown =>
    { r with unknownAttempts := r.unknownAttempts ++ event.attemptNumber.toList }
  | .transportResultRecorded => { r with consumerResult := some event }
  | .finalized => { r with finalized := some event }

/-- The event belongs to the submission and its frozen request. -/
def Belongs (s : Submission) (event : AuditEvent) : Prop :=
  event.workspaceId = s.workspaceId ∧ event.submissionId = s.submissionId ∧
    event.readyPackageId = s.readyPackageId ∧ event.requestSha256 = s.requestSha256

/-- What the reader asks of an event for its type, past the first event of a history. -/
def Reader.Continues (r : Reader) (event : AuditEvent) : Prop :=
  r.finalized = none ∧
    match event.type with
    | .prepared => False
    | .transportAttemptStarted =>
      r.consumerResult = none ∧ event.attemptNumber = some (r.transportAttemptCount + 1)
    | .transportOutcomeUnknown =>
      r.atAttempt event ∧ r.transportAttemptCount ∉ r.unknownAttempts ∧ r.consumerResult = none
    | .transportResultRecorded =>
      r.consumerResult = none ∧ r.atAttempt event ∧ r.transportAttemptCount ∉ r.unknownAttempts
    | .finalized => ∃ result, r.consumerResult = some result ∧
        event.attemptNumber = result.attemptNumber ∧ event.resultStatus = result.resultStatus

/-- What the reader asks of every event. -/
def Reader.TakesCommon (r : Reader) (s : Submission) (event : AuditEvent) (index : Nat) : Prop :=
  event.sequence = index + 1 ∧ Belongs s event ∧
    ∀ prior, r.priorRecordedAt = some prior → prior.instant ≤ event.recordedAt.instant

theorem readCommon_issues {s : Submission} {r : Reader} {event : AuditEvent} {index : Nat} :
    (readCommon s r event index).issues = [] ↔ r.issues = [] ∧ r.TakesCommon s event index := by
  cases hprior : r.priorRecordedAt <;>
    simp [readCommon, Reader.TakesCommon, Belongs, hprior, and_assoc, not_or]

theorem readCommon_eq {s : Submission} {r : Reader} {event : AuditEvent} {index : Nat} :
    readCommon s r event index =
      { r with
        priorRecordedAt := some event.recordedAt
        issues := (readCommon s r event index).issues } := by
  ext1 <;> simp [readCommon]

/-- The number of an event at the attempt the reader is at has no unknown outcome yet. -/
theorem Reader.atAttempt.unknown {r : Reader} {event : AuditEvent} (h : r.atAttempt event) :
    (event.attemptNumber.any fun n => decide (n ∈ r.unknownAttempts)) = false ↔
      r.transportAttemptCount ∉ r.unknownAttempts := by
  simp [h.2.2]

/-- The first event of a history is taken when it is a preparation of the submission. -/
theorem readEvent_first {s : Submission} {event : AuditEvent} :
    (readEvent s (some event.type) Reader.start event 0).issues = [] ↔
      event.type = .prepared ∧ Reader.start.TakesCommon s event 0 ∧
        event.recordedAt = s.createdAt := by
  unfold readEvent
  split
  · next h => simp [readCommon_issues, Reader.start, h]
  · next h => cases ht : event.type <;> simp_all

/-- A later event is taken when it continues what was read. -/
theorem readEvent_issues {s : Submission} {r : Reader} {event : AuditEvent} {index : Nat} :
    (readEvent s (some .prepared) r event (index + 1)).issues = [] ↔
      r.issues = [] ∧ r.TakesCommon s event (index + 1) ∧ r.Continues event := by
  have hcommon : (readCommon s r event (index + 1)).issues = [] ↔
      r.issues = [] ∧ r.TakesCommon s event (index + 1) := readCommon_issues
  have hat : ∀ issues, Reader.atAttempt { r with priorRecordedAt := some event.recordedAt, issues }
      event ↔ r.atAttempt event := fun _ => Iff.rfl
  have hunknown : r.atAttempt event → _ := Reader.atAttempt.unknown
  unfold readEvent Reader.Continues
  rw [readCommon_eq]
  generalize (readCommon s r event (index + 1)).issues = issues at hcommon
  cases ht : event.type with
  | prepared => simp [hcommon]
  | transportAttemptStarted =>
    simp [hcommon]
    tauto
  | transportOutcomeUnknown =>
    simp [hcommon, hat]
    tauto
  | transportResultRecorded =>
    simp [hcommon, hat]
    tauto
  | finalized =>
    cases hresult : r.consumerResult <;> simp [hcommon]
    tauto

theorem readEvent_eq {s : Submission} {r : Reader} {first : Option AuditEventType}
    {event : AuditEvent} {index : Nat} :
    readEvent s first r event index =
      { r.advance event with issues := (readEvent s first r event index).issues } := by
  unfold Reader.advance
  cases ht : event.type <;> ext1 <;> simp [readEvent, readCommon, ht]

/-! ### The loop -/

theorem readEvents_singleton {s : Submission} {event : AuditEvent} :
    readEvents s [event] = readEvent s (some event.type) Reader.start event 0 := by
  simp [readEvents, Reader.issueIf]

/-- Reading one more event. -/
theorem readEvents_append {s : Submission} {events : List AuditEvent} (hne : events ≠ [])
    (event : AuditEvent) :
    readEvents s (events ++ [event]) =
      readEvent s (events.head?.map (·.type)) (readEvents s events) event events.length := by
  obtain ⟨first, rest, rfl⟩ := List.exists_cons_of_ne_nil hne
  simp [readEvents, List.zipIdx_append, List.foldl_append, Nat.add_comm 1]

/-- An issue once found stays. -/
theorem readEvent_issues_of {s : Submission} {first : Option AuditEventType} {r : Reader}
    {event : AuditEvent} {index : Nat} (h : (readEvent s first r event index).issues = []) :
    r.issues = [] := by
  cases ht : event.type <;> simp [readEvent, readCommon, ht] at h <;> tauto

/-! ### Timelines -/

/-- One attempt: its start, and that its outcome stayed unknown. -/
structure Attempt where
  started : AuditEvent
  unknown : Option AuditEvent

def Attempt.events (a : Attempt) : List AuditEvent := a.started :: a.unknown.toList

/-- A history by its grammar. -/
structure Timeline where
  prepared : AuditEvent
  attempts : List Attempt
  result : Option AuditEvent
  finalized : Option AuditEvent

def Timeline.events (t : Timeline) : List AuditEvent :=
  t.prepared :: t.attempts.flatMap Attempt.events ++ t.result.toList ++ t.finalized.toList

/-- The `n`-th attempt, with the types and the numbers its events have. -/
structure Attempt.Numbered (a : Attempt) (n : Nat) : Prop where
  started : a.started.type = .transportAttemptStarted ∧ a.started.attemptNumber = some n
  unknown : ∀ event, a.unknown = some event →
    event.type = .transportOutcomeUnknown ∧ event.attemptNumber = some n

/-- Attempts are numbered from 1 on. -/
def AttemptsNumbered (attempts : List Attempt) : Prop :=
  ∀ (i : Nat) (a : Attempt), attempts[i]? = some a → a.Numbered (i + 1)

/-- The types and attempt numbers of a history: a result belongs to the last attempt, and the end
    belongs to the result. -/
structure Timeline.Laid (t : Timeline) : Prop where
  prepared : t.prepared.type = .prepared
  attempts : AttemptsNumbered t.attempts
  result : ∀ event, t.result = some event →
    event.type = .transportResultRecorded ∧ event.attemptNumber = some t.attempts.length ∧
      t.attempts ≠ []
  finalized : ∀ event, t.finalized = some event →
    event.type = .finalized ∧ ∃ result, t.result = some result ∧
      event.attemptNumber = result.attemptNumber ∧ event.resultStatus = result.resultStatus

/-- In a legal history the attempt that got the result is not one whose outcome was recorded as
    unknown. -/
structure Timeline.Shaped (t : Timeline) : Prop extends Timeline.Laid t where
  known : ∀ event, t.result = some event → ∀ a, t.attempts.getLast? = some a → a.unknown = none

/-- Events numbered from 1 on, of the submission and its frozen request, in the order of their
    times, the first of them with the timestamp of the submission. -/
structure Evidence (s : Submission) (events : List AuditEvent) : Prop where
  sequence : events.map (·.sequence) = List.range' 1 events.length
  belongs : ∀ event ∈ events, Belongs s event
  times : (events.map (·.recordedAt.instant)).IsChain (· ≤ ·)
  createdAt : events.head?.map (·.recordedAt) = some s.createdAt

/-- The counters and results of the document are those of the history. -/
@[mk_iff]
structure Timeline.Agrees (s : Submission) (t : Timeline) : Prop where
  attempts : s.transportAttempts = t.attempts.length
  lastAttempt : s.lastTransportAttemptedAt = t.attempts.getLast?.map (·.started.recordedAt)
  result : ∀ event, t.result = some event → sameResultEvidence event s.transportResult = true
  noResult : t.result = none → s.transportResult = none
  finalized : ∀ event, t.finalized = some event →
    s.state = .resultRecorded ∧ sameResultEvidence event s.result = true
  notFinalized : t.finalized = none → s.state = .pending ∧ s.result = none

/-- A legal history of a submission. -/
def LegalHistory (s : Submission) (events : List AuditEvent) : Prop :=
  ∃ t : Timeline, events = t.events ∧ t.Shaped ∧ Evidence s events ∧ t.Agrees s

/-- Where the reader is after a timeline. -/
def Timeline.reader (t : Timeline) : Reader where
  transportAttemptCount := t.attempts.length
  lastAttemptNumber := t.attempts.getLast?.bind (·.started.attemptNumber)
  lastAttemptRecordedAt := t.attempts.getLast?.map (·.started.recordedAt)
  consumerResult := t.result
  finalized := t.finalized
  unknownAttempts := t.attempts.flatMap fun a => a.unknown.toList.flatMap (·.attemptNumber.toList)
  priorRecordedAt := t.events.getLast?.map (·.recordedAt)
  issues := []

/-- A timeline continued by one event. -/
inductive Timeline.Extends (t : Timeline) (event : AuditEvent) : Timeline → Prop
  | attempt (hresult : t.result = none) (hfinalized : t.finalized = none)
      (htype : event.type = .transportAttemptStarted)
      (hnumber : event.attemptNumber = some (t.attempts.length + 1)) :
    Extends t event { t with attempts := t.attempts ++ [{ started := event, unknown := none }] }
  | unknown (rest : List Attempt) (a : Attempt) (hattempts : t.attempts = rest ++ [a])
      (hknown : a.unknown = none) (hresult : t.result = none) (hfinalized : t.finalized = none)
      (htype : event.type = .transportOutcomeUnknown)
      (hnumber : event.attemptNumber = some (rest.length + 1)) :
    Extends t event { t with attempts := rest ++ [{ a with unknown := some event }] }
  | result (rest : List Attempt) (a : Attempt) (hattempts : t.attempts = rest ++ [a])
      (hknown : a.unknown = none) (hresult : t.result = none) (hfinalized : t.finalized = none)
      (htype : event.type = .transportResultRecorded)
      (hnumber : event.attemptNumber = some (rest.length + 1)) :
    Extends t event { t with result := some event }
  | finalized (result : AuditEvent) (hresult : t.result = some result)
      (hfinalized : t.finalized = none) (htype : event.type = .finalized)
      (hmatch : event.attemptNumber = result.attemptNumber ∧
        event.resultStatus = result.resultStatus) :
    Extends t event { t with finalized := some event }

theorem attemptsNumbered_append {attempts : List Attempt} {a : Attempt} :
    AttemptsNumbered (attempts ++ [a]) ↔
      AttemptsNumbered attempts ∧ a.Numbered (attempts.length + 1) := by
  constructor
  · intro h
    refine ⟨fun i b hi => h i b ?_, h attempts.length a (by simp)⟩
    rw [List.getElem?_append_left (List.getElem?_eq_some_iff.mp hi).1]
    exact hi
  · rintro ⟨h, ha⟩ i b hi
    rcases Nat.lt_trichotomy i attempts.length with hlt | rfl | hgt
    · rw [List.getElem?_append_left hlt] at hi
      exact h i b hi
    · simp only [List.getElem?_concat_length, Option.some.injEq] at hi
      exact hi ▸ ha
    · rw [List.getElem?_eq_none (by simp; omega)] at hi
      cases hi

theorem Timeline.Extends.events {t t' : Timeline} {event : AuditEvent} (h : t.Extends event t') :
    t'.events = t.events ++ [event] := by
  cases h with
  | attempt hresult hfinalized => simp [Timeline.events, Attempt.events, hresult, hfinalized]
  | unknown rest a hattempts hknown hresult hfinalized =>
    simp [Timeline.events, Attempt.events, hattempts, hknown, hresult, hfinalized]
  | result rest a hattempts hknown hresult hfinalized =>
    simp [Timeline.events, hresult, hfinalized]
  | finalized result hresult hfinalized => simp [Timeline.events, hfinalized]

theorem Timeline.Extends.reader {t t' : Timeline} {event : AuditEvent} (h : t.Extends event t') :
    t'.reader = t.reader.advance event := by
  have hprior : t'.reader.priorRecordedAt = some event.recordedAt := by
    simp [Timeline.reader, h.events]
  cases h with
  | attempt hresult hfinalized htype =>
    refine Reader.ext ?_ ?_ ?_ ?_ ?_ ?_ (hprior.trans ?_) ?_ <;>
      simp [Timeline.reader, Reader.advance, htype]
  | unknown rest a hattempts hknown hresult hfinalized htype hnumber =>
    refine Reader.ext ?_ ?_ ?_ ?_ ?_ ?_ (hprior.trans ?_) ?_ <;>
      simp [Timeline.reader, Reader.advance, htype, hattempts, hknown, hnumber]
  | result rest a hattempts hknown hresult hfinalized htype =>
    refine Reader.ext ?_ ?_ ?_ ?_ ?_ ?_ (hprior.trans ?_) ?_ <;>
      simp [Timeline.reader, Reader.advance, htype]
  | finalized result hresult hfinalized htype =>
    refine Reader.ext ?_ ?_ ?_ ?_ ?_ ?_ (hprior.trans ?_) ?_ <;>
      simp [Timeline.reader, Reader.advance, htype]

theorem Timeline.Extends.shaped {t t' : Timeline} {event : AuditEvent} (h : t.Extends event t')
    (ht : t.Shaped) : t'.Shaped := by
  cases h with
  | attempt hresult hfinalized htype hnumber =>
    refine ⟨⟨ht.prepared, attemptsNumbered_append.mpr ⟨ht.attempts, ⟨htype, hnumber⟩, ?_⟩, ?_, ?_⟩,
      ?_⟩
    · simp
    · simp [hresult]
    · simp [hfinalized]
    · simp [hresult]
  | unknown rest a hattempts hknown hresult hfinalized htype hnumber =>
    have hnumbered := ht.attempts
    rw [hattempts, attemptsNumbered_append] at hnumbered
    refine ⟨⟨ht.prepared, attemptsNumbered_append.mpr ⟨hnumbered.1, hnumbered.2.started, ?_⟩, ?_,
      ?_⟩, ?_⟩
    · rintro _ ⟨⟩
      exact ⟨htype, hnumber⟩
    · simp [hresult]
    · simp [hfinalized]
    · simp [hresult]
  | result rest a hattempts hknown hresult hfinalized htype hnumber =>
    refine ⟨⟨ht.prepared, ht.attempts, ?_, ?_⟩, ?_⟩
    · rintro _ ⟨⟩
      exact ⟨htype, by simp [hattempts, hnumber], by simp [hattempts]⟩
    · simp [hfinalized]
    · simp [hattempts, hknown]
  | finalized result hresult hfinalized htype hmatch =>
    refine ⟨⟨ht.prepared, ht.attempts, ht.result, ?_⟩, ht.known⟩
    rintro _ ⟨⟩
    exact ⟨htype, result, hresult, hmatch⟩

/-- A shaped timeline is a preparation, or continues a shorter one. -/
theorem Timeline.Shaped.cases {t : Timeline} (h : t.Shaped) :
    t = ⟨t.prepared, [], none, none⟩ ∨ ∃ (t₀ : Timeline) (event : AuditEvent), t₀.Shaped ∧
      t₀.Extends event t := by
  obtain ⟨prepared, attempts, result, finalized⟩ := t
  obtain ⟨⟨hprepared, hattempts, hresult, hfinalized⟩, hknown⟩ := h
  cases finalized with
  | some event =>
    obtain ⟨htype, result', hresult', hmatch⟩ := hfinalized event rfl
    exact Or.inr ⟨⟨prepared, attempts, result, none⟩, event,
      ⟨⟨hprepared, hattempts, hresult, by simp⟩, hknown⟩,
      .finalized result' hresult' rfl htype hmatch⟩
  | none =>
    rcases List.eq_nil_or_concat attempts with rfl | ⟨rest, a, rfl⟩
    · cases result with
      | some event => exact absurd rfl (hresult event rfl).2.2
      | none => exact Or.inl rfl
    · rw [List.concat_eq_append] at *
      cases result with
      | some event =>
        obtain ⟨htype, hnumber, -⟩ := hresult event rfl
        rw [List.length_append] at hnumber
        exact Or.inr ⟨⟨prepared, rest ++ [a], none, none⟩, event,
          ⟨⟨hprepared, hattempts, by simp, by simp⟩, by simp⟩,
          .result rest a rfl (hknown event rfl a (by simp)) rfl rfl htype hnumber⟩
      | none =>
        obtain ⟨started, unknown⟩ := a
        obtain ⟨hrest, hstarted, hunknown⟩ := attemptsNumbered_append.mp hattempts
        cases unknown with
        | some event =>
          obtain ⟨htype, hnumber⟩ := hunknown event rfl
          exact Or.inr ⟨⟨prepared, rest ++ [⟨started, none⟩], none, none⟩, event,
            ⟨⟨hprepared, attemptsNumbered_append.mpr ⟨hrest, hstarted, by simp⟩, by simp, by simp⟩,
              by simp⟩,
            .unknown rest ⟨started, none⟩ rfl rfl rfl rfl htype hnumber⟩
        | none =>
          exact Or.inr ⟨⟨prepared, rest, none, none⟩, started,
            ⟨⟨hprepared, hrest, by simp, by simp⟩, by simp⟩,
            .attempt rfl rfl hstarted.1 hstarted.2⟩

/-- The numbers recorded as unknown are those of attempts. -/
theorem unknown_le {attempts : List Attempt} (h : AttemptsNumbered attempts) {n : Nat}
    (hn : n ∈ attempts.flatMap fun a => a.unknown.toList.flatMap (·.attemptNumber.toList)) :
    n ≤ attempts.length := by
  simp only [List.mem_flatMap, Option.mem_toList] at hn
  obtain ⟨a, ha, event, hevent, hnumber⟩ := hn
  obtain ⟨i, hi, rfl⟩ := List.mem_iff_getElem.mp ha
  have hnumbered := (h i _ (List.getElem?_eq_getElem hi)).unknown event hevent
  rw [hnumber, Option.some.injEq] at hnumbered
  omega

/-- The reader is at an attempt exactly when the timeline's last attempt has the event's number. -/
theorem atAttempt_iff {t : Timeline} (h : t.Shaped) {event : AuditEvent} :
    t.reader.atAttempt event ↔ ∃ rest a, t.attempts = rest ++ [a] ∧
      event.attemptNumber = some (rest.length + 1) := by
  have hattempts := h.attempts
  rcases List.eq_nil_or_concat t.attempts with hnil | ⟨rest, a, hrest⟩
  · simp [Reader.atAttempt, Timeline.reader, hnil]
  · rw [List.concat_eq_append] at hrest
    rw [hrest, attemptsNumbered_append] at hattempts
    have hstarted := hattempts.2.started.2
    simp [Reader.atAttempt, Timeline.reader, hrest, hstarted]

/-- The last attempt of the timeline has no unknown outcome yet. -/
theorem unknown_iff {t : Timeline} (h : t.Shaped) {rest : List Attempt} {a : Attempt}
    (hattempts : t.attempts = rest ++ [a]) :
    t.reader.transportAttemptCount ∉ t.reader.unknownAttempts ↔ a.unknown = none := by
  have hnumbered := h.attempts
  rw [hattempts, attemptsNumbered_append] at hnumbered
  constructor
  · intro hnot
    cases hunknown : a.unknown with
    | none => rfl
    | some event =>
      exact absurd (by simp [Timeline.reader, hattempts, hunknown,
        (hnumbered.2.unknown event hunknown).2]) hnot
  · intro hnone hmem
    have hmem : rest.length + 1 ∈
        rest.flatMap fun a => a.unknown.toList.flatMap (·.attemptNumber.toList) := by
      simpa [Timeline.reader, hattempts, hnone] using hmem
    have := unknown_le hnumbered.1 hmem
    omega

/-- The reader of a shaped timeline takes as next exactly what continues the timeline. -/
theorem continues_iff {t : Timeline} (h : t.Shaped) {event : AuditEvent} :
    t.reader.Continues event ↔ ∃ t', t.Extends event t' := by
  constructor
  · rintro ⟨hfinalized, hcontinues⟩
    cases htype : event.type with
    | prepared => simp [htype] at hcontinues
    | transportAttemptStarted =>
      simp only [htype] at hcontinues
      exact ⟨_, .attempt hcontinues.1 hfinalized htype hcontinues.2⟩
    | transportOutcomeUnknown =>
      simp only [htype] at hcontinues
      obtain ⟨hat, hunknown, hresult⟩ := hcontinues
      obtain ⟨rest, a, hattempts, hnumber⟩ := (atAttempt_iff h).mp hat
      exact ⟨_, .unknown rest a hattempts ((unknown_iff h hattempts).mp hunknown) hresult hfinalized
        htype hnumber⟩
    | transportResultRecorded =>
      simp only [htype] at hcontinues
      obtain ⟨hresult, hat, hunknown⟩ := hcontinues
      obtain ⟨rest, a, hattempts, hnumber⟩ := (atAttempt_iff h).mp hat
      exact ⟨_, .result rest a hattempts ((unknown_iff h hattempts).mp hunknown) hresult hfinalized
        htype hnumber⟩
    | finalized =>
      simp only [htype] at hcontinues
      obtain ⟨result, hresult, hmatch⟩ := hcontinues
      exact ⟨_, .finalized result hresult hfinalized htype hmatch⟩
  · rintro ⟨t', hextends⟩
    cases hextends with
    | attempt hresult hfinalized htype hnumber =>
      exact ⟨hfinalized, by simp only [htype]; exact ⟨hresult, hnumber⟩⟩
    | unknown rest a hattempts hknown hresult hfinalized htype hnumber =>
      refine ⟨hfinalized, ?_⟩
      simp only [htype]
      exact ⟨(atAttempt_iff h).mpr ⟨rest, a, hattempts, hnumber⟩,
        (unknown_iff h hattempts).mpr hknown, hresult⟩
    | result rest a hattempts hknown hresult hfinalized htype hnumber =>
      refine ⟨hfinalized, ?_⟩
      simp only [htype]
      exact ⟨hresult, (atAttempt_iff h).mpr ⟨rest, a, hattempts, hnumber⟩,
        (unknown_iff h hattempts).mpr hknown⟩
    | finalized result hresult hfinalized htype hmatch =>
      exact ⟨hfinalized, by simp only [htype]; exact ⟨result, hresult, hmatch⟩⟩

/-! ### Reading a whole history -/

theorem evidence_append {s : Submission} {events : List AuditEvent} (hne : events ≠ [])
    {event : AuditEvent} :
    Evidence s (events ++ [event]) ↔ Evidence s events ∧ event.sequence = events.length + 1 ∧
      Belongs s event ∧
      ∀ prior, events.getLast?.map (·.recordedAt) = some prior →
        prior.instant ≤ event.recordedAt.instant := by
  have hsequence : (events ++ [event]).map (·.sequence) =
        List.range' 1 (events ++ [event]).length ↔
      events.map (·.sequence) = List.range' 1 events.length ∧
        event.sequence = events.length + 1 := by
    simp [List.range'_concat, Nat.add_comm]
  have htimes : ((events ++ [event]).map (·.recordedAt.instant)).IsChain (· ≤ ·) ↔
      (events.map (·.recordedAt.instant)).IsChain (· ≤ ·) ∧
        ∀ prior, events.getLast?.map (·.recordedAt) = some prior →
          prior.instant ≤ event.recordedAt.instant := by
    simp [List.isChain_append]
  have hhead : (events ++ [event]).head? = events.head? := List.head?_append_of_ne_nil _ hne
  constructor
  · rintro ⟨hseq, hbelongs, htime, hcreated⟩
    rw [hsequence] at hseq
    rw [htimes] at htime
    rw [hhead] at hcreated
    exact ⟨⟨hseq.1, fun e he => hbelongs e (by simp [he]), htime.1, hcreated⟩, hseq.2,
      hbelongs event (by simp), htime.2⟩
  · rintro ⟨⟨hseq, hbelongs, htime, hcreated⟩, hnumber, hbelongs', hlast⟩
    refine ⟨hsequence.mpr ⟨hseq, hnumber⟩, ?_, htimes.mpr ⟨htime, hlast⟩, hhead ▸ hcreated⟩
    intro e he
    rcases List.mem_append.mp he with he | he
    · exact hbelongs e he
    · exact List.mem_singleton.mp he ▸ hbelongs'

theorem Timeline.events_ne_nil (t : Timeline) : t.events ≠ [] := by
  simp [Timeline.events]

theorem Timeline.head_events (t : Timeline) : t.events.head? = some t.prepared := by
  simp [Timeline.events]

theorem Timeline.length_events (t : Timeline) : ∃ n, t.events.length = n + 1 :=
  Nat.exists_eq_succ_of_ne_zero fun h => t.events_ne_nil (List.length_eq_zero_iff.mp h)

/-- A preparation alone is read without an issue exactly when it is the evidence of one. -/
theorem evidence_singleton {s : Submission} {event : AuditEvent} :
    Evidence s [event] ↔ Reader.start.TakesCommon s event 0 ∧ event.recordedAt = s.createdAt := by
  constructor
  · rintro ⟨hsequence, hbelongs, -, hcreated⟩
    exact ⟨⟨by simpa using hsequence, hbelongs event (by simp), by simp [Reader.start]⟩,
      by simpa using hcreated⟩
  · rintro ⟨⟨hsequence, hbelongs, -⟩, hcreated⟩
    exact ⟨by simpa using hsequence, by simpa using hbelongs, by simp, by simpa using hcreated⟩

/-- The step of the loop over a timeline: an event is taken exactly when it continues the timeline
    and its evidence. -/
theorem readEvent_iff {s : Submission} {t : Timeline} (h : t.Shaped) (hevidence : Evidence s t.events)
    {event : AuditEvent} :
    (readEvent s (some .prepared) t.reader event t.events.length).issues = [] ↔
      (∃ t', t.Extends event t') ∧ Evidence s (t.events ++ [event]) := by
  obtain ⟨n, hn⟩ := t.length_events
  rw [hn, readEvent_issues, continues_iff h, evidence_append t.events_ne_nil, hn]
  constructor
  · rintro ⟨-, ⟨hsequence, hbelongs, htime⟩, hextends⟩
    exact ⟨hextends, hevidence, hsequence, hbelongs, htime⟩
  · rintro ⟨hextends, -, hsequence, hbelongs, htime⟩
    exact ⟨rfl, ⟨hsequence, hbelongs, htime⟩, hextends⟩

/-- The reader of a formed timeline with one more event. -/
theorem readEvent_of_extends {s : Submission} {t t' : Timeline} {event : AuditEvent} (h : t.Shaped)
    (hextends : t.Extends event t') (hevidence : Evidence s t'.events) :
    readEvent s (some .prepared) t.reader event t.events.length = t'.reader := by
  rw [hextends.events] at hevidence
  have hclean := (readEvent_iff h ((evidence_append t.events_ne_nil).mp hevidence).1).mpr
    ⟨⟨t', hextends⟩, hevidence⟩
  rw [readEvent_eq, hclean, hextends.reader]
  cases ht : event.type <;> simp [Reader.advance, ht, Timeline.reader]

/-- The reader of the whole of a formed timeline. -/
theorem readEvents_of_formed {s : Submission} {t : Timeline} (h : t.Shaped)
    (hevidence : Evidence s t.events) : readEvents s t.events = t.reader := by
  -- on the number of events: a timeline is its preparation, or continues a shorter one
  induction hn : t.events.length generalizing t with
  | zero => exact absurd (List.length_eq_zero_iff.mp hn) t.events_ne_nil
  | succ n ih =>
    rcases h.cases with hsingle | ⟨t₀, event, h₀, hextends⟩
    · obtain ⟨prepared, attempts, result, finalized⟩ := t
      obtain ⟨-, rfl, rfl, rfl⟩ := hsingle
      have hprepared : prepared.type = .prepared := h.prepared
      have hclean := readEvent_first.mpr ⟨hprepared, evidence_singleton.mp hevidence⟩
      rw [show Timeline.events ⟨prepared, [], none, none⟩ = [prepared] from rfl,
        readEvents_singleton, readEvent_eq, hclean]
      simp [Reader.advance, hprepared, Timeline.reader, Reader.start, Timeline.events]
    · have hevents := hextends.events
      have hevidence₀ := hevidence
      rw [hevents, evidence_append t₀.events_ne_nil] at hevidence₀
      have hlength : t₀.events.length = n := by
        rw [hevents, List.length_append] at hn
        exact Nat.succ.inj hn
      rw [hevents, readEvents_append t₀.events_ne_nil, ih h₀ hevidence₀.1 hlength,
        t₀.head_events, Option.map_some, h₀.prepared]
      exact readEvent_of_extends h₀ hextends hevidence

/-- A history read without an issue is a formed timeline. -/
theorem formed_of_readEvents {s : Submission} {events : List AuditEvent}
    (h : (readEvents s events).issues = []) :
    ∃ t : Timeline, events = t.events ∧ t.Shaped ∧ Evidence s events := by
  -- on the events, the last one taken off
  induction events using List.reverseRecOn with
  | nil => simp [readEvents] at h
  | append_singleton events event ih =>
    cases events with
    | nil =>
      rw [List.nil_append, readEvents_singleton, readEvent_first] at h
      refine ⟨⟨event, [], none, none⟩, rfl, ⟨⟨h.1, ?_, ?_, ?_⟩, ?_⟩, evidence_singleton.mpr h.2⟩
      · intro i a hi
        simp at hi
      · simp
      · simp
      · simp
    | cons first rest =>
      have hne : first :: rest ≠ [] := List.cons_ne_nil first rest
      rw [readEvents_append hne] at h
      obtain ⟨t, hevents, hshaped, hevidence⟩ := ih (readEvent_issues_of h)
      rw [hevents] at h hevidence ⊢
      rw [readEvents_of_formed hshaped hevidence, t.head_events, Option.map_some, hshaped.prepared,
        readEvent_iff hshaped hevidence] at h
      obtain ⟨⟨t', hextends⟩, hevidence'⟩ := h
      exact ⟨t', hextends.events.symm, hextends.shaped hshaped, hevidence'⟩

/-! ### The document -/

/-- The events of a timeline after its preparation, by their types. -/
theorem Timeline.Laid.cases_event {t : Timeline} (h : t.Laid) {event : AuditEvent}
    (hevent : event ∈ t.attempts.flatMap Attempt.events ++ t.result.toList ++ t.finalized.toList) :
    (t.attempts ≠ [] ∧
        (event.type = .transportAttemptStarted ∨ event.type = .transportOutcomeUnknown)) ∨
      (t.result = some event ∧ event.type = .transportResultRecorded) ∨
      (t.finalized = some event ∧ event.type = .finalized) := by
  simp only [List.mem_append, List.mem_flatMap, Attempt.events, List.mem_cons,
    Option.mem_toList] at hevent
  rcases hevent with (⟨a, ha, hevent⟩ | hresult) | hfinalized
  · obtain ⟨i, hi, rfl⟩ := List.mem_iff_getElem.mp ha
    have hnumbered := h.attempts i _ (List.getElem?_eq_getElem hi)
    refine Or.inl ⟨List.ne_nil_of_mem ha, ?_⟩
    rcases hevent with rfl | hunknown
    · exact Or.inl hnumbered.started.1
    · exact Or.inr (hnumbered.unknown event hunknown).1
  · exact Or.inr (Or.inl ⟨hresult, (h.result event hresult).1⟩)
  · exact Or.inr (Or.inr ⟨hfinalized, (h.finalized event hfinalized).1⟩)

theorem Timeline.mem_events {t : Timeline} {event : AuditEvent} :
    event ∈ t.events ↔ event = t.prepared ∨
      event ∈ t.attempts.flatMap Attempt.events ++ t.result.toList ++ t.finalized.toList := by
  simp [Timeline.events]

/-- Only the first event of a timeline is a preparation. -/
theorem Timeline.Laid.filter_prepared {t : Timeline} (h : t.Laid) :
    (t.events.filter fun event => decide (event.type = .prepared)).length = 1 := by
  have hnone : (t.attempts.flatMap Attempt.events ++ t.result.toList ++ t.finalized.toList).filter
      (fun event => decide (event.type = .prepared)) = [] := by
    rw [List.filter_eq_nil_iff]
    intro event hevent
    rcases h.cases_event hevent with ⟨-, htype | htype⟩ | ⟨-, htype⟩ | ⟨-, htype⟩ <;> simp [htype]
  rw [Timeline.events, List.cons_append, List.cons_append, List.filter_cons, h.prepared, hnone]
  rfl

/-- The checks of the document pass exactly when it agrees with the timeline. -/
theorem readDocument_issues {s : Submission} {t : Timeline} (h : t.Shaped) :
    (readDocument s t.events t.reader).issues = [] ↔ t.Agrees s := by
  have hhead : t.events.head?.map (·.type) = some .prepared := by
    rw [t.head_events, Option.map_some, h.prepared]
  have hlast : t.attempts.length = 0 → t.attempts.getLast? = none := by
    intro hzero
    rw [List.length_eq_zero_iff.mp hzero, List.getLast?_nil]
  unfold readDocument
  rw [Timeline.agrees_iff]
  cases hresult : t.result <;> cases hfinalized : t.finalized <;>
    by_cases hzero : t.attempts.length = 0 <;> cases hstate : s.state <;>
    simp [hresult, hfinalized, hzero, hlast, hhead, h.filter_prepared, Timeline.reader, and_assoc]

theorem readDocument_issues_of {s : Submission} {events : List AuditEvent} {r : Reader}
    (h : (readDocument s events r).issues = []) : r.issues = [] := by
  unfold readDocument at h
  cases hresult : r.consumerResult <;> cases hfinalized : r.finalized <;>
    by_cases hzero : r.transportAttemptCount = 0 <;> simp [hresult, hfinalized, hzero] at h <;>
    tauto

theorem readDocument_eq {s : Submission} {events : List AuditEvent} {r : Reader} :
    readDocument s events r = { r with issues := (readDocument s events r).issues } := by
  unfold readDocument
  cases hresult : r.consumerResult <;> cases hfinalized : r.finalized <;>
    by_cases hzero : r.transportAttemptCount = 0 <;> ext1 <;> simp [hresult, hfinalized, hzero]

/-! ### The diagnosis -/

/-- The state a legal history is in. -/
def Timeline.diagnosisState (t : Timeline) : DiagnosisState :=
  if t.result.bind (·.resultStatus) = some .rejected then .consumerRejected
  else if t.finalized.isSome = true then .delivered
  else if t.result.isSome = true then .localFinalizationRequired
  else if 0 < t.attempts.length then .outcomeUnknownRetryExactRequest
  else .safeToSubmit

theorem diagnose_of_legal {s : Submission} {t : Timeline} (h : t.Shaped)
    (hevidence : Evidence s t.events) (hagrees : t.Agrees s) :
    diagnoseReadyPackageV2Delivery s t.events = { state := t.diagnosisState, issues := [] } := by
  have hissues := (readDocument_issues h).mpr hagrees
  unfold diagnoseReadyPackageV2Delivery Timeline.diagnosisState
  rw [readEvents_of_formed h hevidence, readDocument_eq, hissues]
  simp only [ne_eq, not_true_eq_false, if_false, Timeline.reader]
  grind

theorem legal_of_issues {s : Submission} {events : List AuditEvent}
    (h : (readDocument s events (readEvents s events)).issues = []) : LegalHistory s events := by
  obtain ⟨t, rfl, hshaped, hevidence⟩ := formed_of_readEvents (readDocument_issues_of h)
  rw [readEvents_of_formed hshaped hevidence, readDocument_issues hshaped] at h
  exact ⟨t, rfl, hshaped, hevidence, h⟩

/-- The diagnosis is inconsistent exactly when it has an issue. -/
theorem diagnose_inconsistent_iff {s : Submission} {events : List AuditEvent} :
    (diagnoseReadyPackageV2Delivery s events).state = .evidenceInconsistent ↔
      (diagnoseReadyPackageV2Delivery s events).issues ≠ [] := by
  unfold diagnoseReadyPackageV2Delivery
  dsimp only
  split
  · next h => simpa using h
  · split_ifs <;> simp

/-- The diagnosis finds no issue exactly in the legal histories. -/
theorem diagnose_issues_eq_nil {s : Submission} {events : List AuditEvent} :
    (diagnoseReadyPackageV2Delivery s events).issues = [] ↔ LegalHistory s events := by
  constructor
  · intro h
    apply legal_of_issues
    unfold diagnoseReadyPackageV2Delivery at h
    dsimp only at h
    split at h
    · exact h
    · next hissues => exact not_not.mp hissues
  · rintro ⟨t, rfl, hshaped, hevidence, hagrees⟩
    rw [diagnose_of_legal hshaped hevidence hagrees]

/-- A diagnosis other than `evidenceInconsistent` is that of a legal history. -/
theorem legal_of_state {s : Submission} {events : List AuditEvent} {state : DiagnosisState}
    (h : (diagnoseReadyPackageV2Delivery s events).state = state)
    (hstate : state ≠ .evidenceInconsistent) :
    ∃ t : Timeline, events = t.events ∧ t.Shaped ∧ Evidence s events ∧ t.Agrees s ∧
      t.diagnosisState = state := by
  have hclean : (diagnoseReadyPackageV2Delivery s events).issues = [] := by
    by_contra hissues
    exact hstate (h.symm.trans (diagnose_inconsistent_iff.mpr hissues))
  obtain ⟨t, rfl, hshaped, hevidence, hagrees⟩ := diagnose_issues_eq_nil.mp hclean
  rw [diagnose_of_legal hshaped hevidence hagrees] at h
  exact ⟨t, rfl, hshaped, hevidence, hagrees, h⟩

/-- A delivery that may be submitted has no result. -/
theorem open_of_diagnosis {s : Submission} {events : List AuditEvent} {state : DiagnosisState}
    (h : (diagnoseReadyPackageV2Delivery s events).state = state)
    (hstate : state = .safeToSubmit ∨ state = .outcomeUnknownRetryExactRequest) :
    s.transportResult = none := by
  obtain ⟨t, -, -, -, hagrees, hdiagnosis⟩ := legal_of_state h (by rcases hstate with rfl | rfl <;>
    decide)
  refine hagrees.noResult ?_
  unfold Timeline.diagnosisState at hdiagnosis
  cases hresult : t.result with
  | none => rfl
  | some event =>
    simp only [hresult, Option.isSome_some, if_true] at hdiagnosis
    grind

/-- The diagnosis recognises exactly the legal histories; a first submission is called safe only
    when no attempt was ever started, and local finalization is asked for only when a transport
    result is recorded without a final one. -/
theorem diagnosis_recognizes (s : Submission) (events : List AuditEvent) :
    ((diagnoseReadyPackageV2Delivery s events).issues = [] ↔ LegalHistory s events) ∧
      ((diagnoseReadyPackageV2Delivery s events).state = .safeToSubmit →
        s.transportAttempts = 0 ∧ ∀ event ∈ events, event.type ≠ .transportAttemptStarted) ∧
      ((diagnoseReadyPackageV2Delivery s events).state = .localFinalizationRequired →
        s.transportResult ≠ none ∧ s.result = none ∧ s.state = .pending ∧
          ∀ event ∈ events, event.type ≠ .finalized) := by
  refine ⟨diagnose_issues_eq_nil, ?_, ?_⟩
  · intro h
    obtain ⟨t, rfl, hshaped, -, hagrees, hstate⟩ := legal_of_state h (by decide)
    have hattempts : t.attempts = [] := by
      unfold Timeline.diagnosisState at hstate
      by_contra hne
      simp only [List.length_pos_iff.mpr hne, if_true] at hstate
      grind
    refine ⟨by rw [hagrees.attempts, hattempts]; rfl, fun event hevent htype => ?_⟩
    rcases Timeline.mem_events.mp hevent with rfl | hevent
    · rw [hshaped.prepared] at htype
      cases htype
    · rcases hshaped.cases_event hevent with ⟨hne, -⟩ | ⟨-, hother⟩ | ⟨-, hother⟩
      · exact hne hattempts
      · cases htype.symm.trans hother
      · cases htype.symm.trans hother
  · intro h
    obtain ⟨t, rfl, hshaped, -, hagrees, hstate⟩ := legal_of_state h (by decide)
    have hend : t.finalized = none ∧ t.result ≠ none := by
      unfold Timeline.diagnosisState at hstate
      cases hfinalized : t.finalized <;> cases hresult : t.result <;>
        simp [hfinalized, hresult] at hstate ⊢ <;> grind
    obtain ⟨hpending, hresult⟩ := hagrees.notFinalized hend.1
    refine ⟨fun hnone => ?_, hresult, hpending, fun event hevent htype => ?_⟩
    · obtain ⟨event, hevent⟩ := Option.ne_none_iff_exists'.mp hend.2
      have hsame := hagrees.result event hevent
      simp [hnone, sameResultEvidence] at hsame
    · rcases Timeline.mem_events.mp hevent with rfl | hevent
      · rw [hshaped.prepared] at htype
        cases htype
      · rcases hshaped.cases_event hevent with ⟨-, hother | hother⟩ | ⟨-, hother⟩ | ⟨hsome, -⟩
        · cases htype.symm.trans hother
        · cases htype.symm.trans hother
        · cases htype.symm.trans hother
        · rw [hend.1] at hsome
          cases hsome

/-! ### A history that is laid out well and still refused -/

def sampleSubmission : Submission where
  submissionId := 1
  workspaceId := 1
  readyPackageId := 1
  readyPackageDigest := 7
  coreWorkspaceId := "3b241101-e2bb-4255-8caf-4136c566a962"
  idempotencyKey := "ready-package-v2-delivery:" ++ idText "rvd" 1
  requestJson := "request"
  requestSha256 := 7
  contentExportSha256 := 8
  state := .pending
  transportAttempts := 1
  lastTransportAttemptedAt := some (isoText 1)
  transportResult := some
    { protocolVersion := READY_PACKAGE_V2_DELIVERY_PROTOCOL_VERSION
      objectType := READY_PACKAGE_V2_DELIVERY_RESULT_OBJECT_TYPE
      deliveryId := 1
      readyPackageId := 1
      status := .accepted
      requestSha256 := 7
      recordedAt := isoText 3 }
  result := none
  createdAt := isoText 0
  updatedAt := isoText 3

/-- One attempt, its outcome unknown, and then the result of the same attempt. -/
def sampleTimeline : Timeline where
  prepared := { auditEvent sampleSubmission .prepared (isoText 0) none with sequence := 1 }
  attempts := [
    { started := { auditEvent sampleSubmission .transportAttemptStarted (isoText 1) (some 1) with
        sequence := 2 }
      unknown := some { auditEvent sampleSubmission .transportOutcomeUnknown (isoText 2) (some 1) with
        sequence := 3
        issueCode := some "TIMEOUT"
        httpStatus := some 504 } }]
  result := some { auditEvent sampleSubmission .transportResultRecorded (isoText 3) (some 1) with
    sequence := 4
    resultStatus := some .accepted }
  finalized := none

/-- The result of an attempt after that attempt's unknown outcome is refused, although the history
    is laid out as one should be and agrees with the document. -/
theorem result_after_unknown_refused :
    ∃ (s : Submission) (t : Timeline), t.Laid ∧ Evidence s t.events ∧ t.Agrees s ∧
      (diagnoseReadyPackageV2Delivery s t.events).issues.map (·.code) =
        ["AUDIT_RESULT_AFTER_UNKNOWN_SAME_ATTEMPT"] := by
  refine ⟨sampleSubmission, sampleTimeline, ⟨rfl, ?_, ?_, ?_⟩, ⟨?_, ?_, ?_, ?_⟩, ?_, ?_⟩
  · rintro (_ | _) a hi
    · obtain rfl := Option.some.inj hi
      exact ⟨⟨rfl, rfl⟩, by
        rintro _ ⟨⟩
        exact ⟨rfl, rfl⟩⟩
    · simp [sampleTimeline] at hi
  · rintro _ ⟨⟩
    exact ⟨rfl, rfl, by simp [sampleTimeline]⟩
  · rintro _ ⟨⟩
  · rfl
  · unfold Belongs
    decide
  · decide
  · rfl
  · exact ⟨rfl, rfl, by rintro _ ⟨⟩; decide, by rintro ⟨⟩, by rintro _ ⟨⟩, fun _ => ⟨rfl, rfl⟩⟩
  · decide

end MarkorbitKnowledge.Delivery
