import MarkorbitKnowledge.Delivery.Submission

/-!
# The diagnosis of a delivery

`diagnoseReadyPackageV2Delivery` reads a submission and its audit events and derives the state an
operator sees.  It reads the events in order (`readEvent`, with the loop variables of the source in
`Reader`), collects every issue it finds, compares what it read with the document, and answers
`evidenceInconsistent` as soon as there is one issue.
-/

namespace MarkorbitKnowledge.Delivery

open Contracts

inductive DiagnosisState where
  | safeToSubmit | outcomeUnknownRetryExactRequest | localFinalizationRequired | delivered
  | consumerRejected | evidenceInconsistent
deriving DecidableEq

structure DiagnosisIssue where
  code : String
  message : String
  sequence : Option Nat
deriving DecidableEq

/-- The variables of the loop over the events. -/
structure Reader where
  transportAttemptCount : Nat
  lastAttemptNumber : Option Nat
  lastAttemptRecordedAt : Option TimestampText
  consumerResult : Option AuditEvent
  finalized : Option AuditEvent
  unknownAttempts : List Nat
  priorRecordedAt : Option TimestampText
  issues : List DiagnosisIssue
deriving DecidableEq

def Reader.start : Reader where
  transportAttemptCount := 0
  lastAttemptNumber := none
  lastAttemptRecordedAt := none
  consumerResult := none
  finalized := none
  unknownAttempts := []
  priorRecordedAt := none
  issues := []

/-- `if (c) issue(issues, code, message, sequence)`. -/
def Reader.issueIf (r : Reader) (c : Prop) [Decidable c] (code message : String)
    (sequence : Option Nat) : Reader :=
  if c then { r with issues := r.issues ++ [{ code, message, sequence }] } else r

/-- The checks made of every event, whatever its type. -/
def readCommon (s : Submission) (r : Reader) (event : AuditEvent) (index : Nat) : Reader :=
  let r := r.issueIf (event.sequence ≠ index + 1)
    (if index + 1 < event.sequence then "AUDIT_SEQUENCE_GAP" else "AUDIT_SEQUENCE_NON_MONOTONIC")
    ("Audit sequence must be contiguous from 1; expected " ++ toString (index + 1)) event.sequence
  let r := r.issueIf (event.workspaceId ≠ s.workspaceId ∨ event.submissionId ≠ s.submissionId ∨
      event.readyPackageId ≠ s.readyPackageId) "AUDIT_IDENTITY_MISMATCH"
    "Audit evidence does not belong to the frozen delivery submission" event.sequence
  let r := r.issueIf (event.requestSha256 ≠ s.requestSha256) "AUDIT_REQUEST_SHA256_MISMATCH"
    "Audit evidence does not reference the exact frozen request SHA-256" event.sequence
  let r := r.issueIf
    (r.priorRecordedAt.any (fun prior => decide (event.recordedAt.instant < prior.instant)) = true)
    "AUDIT_TIME_NON_MONOTONIC" "Audit event timestamps move backwards" event.sequence
  { r with priorRecordedAt := some event.recordedAt }

/-- The number of the event is that of the attempt the reader is at. -/
def Reader.atAttempt (r : Reader) (event : AuditEvent) : Prop :=
  r.lastAttemptNumber.isSome = true ∧ event.attemptNumber = r.lastAttemptNumber ∧
    event.attemptNumber = some r.transportAttemptCount

instance (r : Reader) (event : AuditEvent) : Decidable (r.atAttempt event) :=
  inferInstanceAs (Decidable (_ ∧ _ ∧ _))

/-- One iteration of the loop; `first` is the type of the first event. -/
def readEvent (s : Submission) (first : Option AuditEventType) (r : Reader) (event : AuditEvent)
    (index : Nat) : Reader :=
  let r := readCommon s r event index
  if event.type = .prepared then
    let r := r.issueIf (index ≠ 0) "AUDIT_PREPARED_NOT_FIRST"
      "PREPARED must be the first and only preparation event" event.sequence
    r.issueIf (event.recordedAt ≠ s.createdAt) "AUDIT_PREPARED_TIMESTAMP_MISMATCH"
      "PREPARED timestamp does not match the frozen submission creation time" event.sequence
  else
    let r := r.issueIf (index = 0 ∨ first ≠ some .prepared) "AUDIT_PREPARED_MISSING"
      "Transport evidence exists without a leading PREPARED event" event.sequence
    let r := r.issueIf (r.finalized.isSome = true) "AUDIT_EVENT_AFTER_FINALIZATION"
      "No delivery audit event may occur after durable FINALIZED evidence" event.sequence
    match event.type with
    | .prepared => r
    | .transportAttemptStarted =>
      let expectedAttempt := r.transportAttemptCount + 1
      let r := r.issueIf (r.consumerResult.isSome = true) "AUDIT_ATTEMPT_AFTER_RESULT"
        "A new outbound attempt cannot start after a durable consumer result" event.sequence
      let r := r.issueIf (event.attemptNumber ≠ some expectedAttempt) "AUDIT_ATTEMPT_NON_MONOTONIC"
        ("Transport attempt number must advance exactly once; expected " ++
          toString expectedAttempt) event.sequence
      { r with
        transportAttemptCount := expectedAttempt
        lastAttemptNumber := event.attemptNumber
        lastAttemptRecordedAt := some event.recordedAt }
    | .transportOutcomeUnknown =>
      let r := r.issueIf (¬ r.atAttempt event) "AUDIT_UNKNOWN_WITHOUT_CURRENT_ATTEMPT"
        "Unknown transport outcome must reference the current durable attempt" event.sequence
      let r := r.issueIf (event.attemptNumber.any (r.unknownAttempts.contains ·) = true)
        "AUDIT_DUPLICATE_UNKNOWN_OUTCOME"
        "Only one unknown-outcome event is allowed per transport attempt" event.sequence
      let r := r.issueIf (r.consumerResult.isSome = true) "AUDIT_UNKNOWN_AFTER_RESULT"
        "Unknown outcome cannot be recorded after a durable consumer result" event.sequence
      { r with unknownAttempts := r.unknownAttempts ++ event.attemptNumber.toList }
    | .transportResultRecorded =>
      let r := r.issueIf (r.consumerResult.isSome = true) "AUDIT_DUPLICATE_CONSUMER_RESULT"
        "Only one durable consumer result is allowed for a delivery" event.sequence
      let r := r.issueIf (¬ r.atAttempt event) "AUDIT_RESULT_WITHOUT_CURRENT_ATTEMPT"
        "Consumer result must reference the current durable transport attempt" event.sequence
      let r := r.issueIf (event.attemptNumber.any (r.unknownAttempts.contains ·) = true)
        "AUDIT_RESULT_AFTER_UNKNOWN_SAME_ATTEMPT"
        "A transport attempt already recorded as outcome-unknown cannot later gain a consumer result"
        event.sequence
      { r with consumerResult := some event }
    | .finalized =>
      let r := r.issueIf (r.finalized.isSome = true) "AUDIT_DUPLICATE_FINALIZATION"
        "Only one durable FINALIZED event is allowed for a delivery" event.sequence
      let r := r.issueIf (r.consumerResult = none) "AUDIT_FINALIZATION_WITHOUT_RESULT"
        "FINALIZED requires a durable consumer result" event.sequence
      let r := r.issueIf (r.consumerResult.any (fun result =>
          decide (event.attemptNumber ≠ result.attemptNumber ∨
            event.resultStatus ≠ result.resultStatus)) = true) "AUDIT_FINALIZATION_RESULT_MISMATCH"
        "FINALIZED must match the exact durable consumer result and attempt" event.sequence
      { r with finalized := some event }

/-- The loop over the events. -/
def readEvents (s : Submission) (events : List AuditEvent) : Reader :=
  events.zipIdx.foldl (fun r entry => readEvent s (events.head?.map (·.type)) r entry.1 entry.2)
    (Reader.start.issueIf (events = []) "AUDIT_PREPARED_MISSING"
      "No durable PREPARED audit evidence exists for the frozen delivery request" none)

def sameResultEvidence (event : AuditEvent) (result : Option ResultEvidence) : Bool :=
  result.any fun result =>
    decide (result.deliveryId = event.submissionId) &&
      decide (result.readyPackageId = event.readyPackageId) &&
      decide (result.requestSha256 = event.requestSha256) &&
      decide (some result.status = event.resultStatus) &&
      decide (result.recordedAt = event.recordedAt)

/-- The checks after the loop. -/
def readDocument (s : Submission) (events : List AuditEvent) (r : Reader) : Reader :=
  let r := r.issueIf (events.head?.map (·.type) ≠ some .prepared) "AUDIT_PREPARED_MISSING"
    "The audit timeline must begin with PREPARED evidence" (events.head?.map (·.sequence))
  let r := r.issueIf ((events.filter fun event => decide (event.type = .prepared)).length ≠ 1)
    "AUDIT_PREPARED_CARDINALITY_INVALID" "Exactly one PREPARED event is required" none
  let r := r.issueIf (s.transportAttempts ≠ r.transportAttemptCount)
    "SUBMISSION_ATTEMPT_COUNT_MISMATCH"
    "Submission transport attempt count does not match append-only audit evidence" none
  let r :=
    if r.transportAttemptCount = 0 then
      r.issueIf (s.lastTransportAttemptedAt ≠ none) "SUBMISSION_LAST_ATTEMPT_WITHOUT_AUDIT"
        "Submission has a last-attempt timestamp without durable attempt evidence" none
    else
      r.issueIf (s.lastTransportAttemptedAt ≠ r.lastAttemptRecordedAt)
        "SUBMISSION_LAST_ATTEMPT_TIMESTAMP_MISMATCH"
        "Submission last-attempt timestamp does not match the latest durable attempt" none
  let r :=
    match r.consumerResult with
    | some event => r.issueIf (sameResultEvidence event s.transportResult = false)
        "SUBMISSION_TRANSPORT_RESULT_MISMATCH"
        "Submission transport result does not match durable consumer-result evidence" event.sequence
    | none => r.issueIf (s.transportResult ≠ none) "LEGACY_AUDIT_INCOMPLETE"
        "Submission contains a transport result that is absent from append-only audit evidence" none
  match r.finalized with
  | some event => r.issueIf (s.state ≠ .resultRecorded ∨ sameResultEvidence event s.result = false)
      "SUBMISSION_FINALIZATION_MISMATCH"
      "Submission final state does not match durable FINALIZED evidence" event.sequence
  | none => r.issueIf (s.state = .resultRecorded ∨ s.result ≠ none) "LEGACY_AUDIT_INCOMPLETE"
      "Submission is finalized but append-only FINALIZED evidence is absent" none

structure Diagnosis where
  state : DiagnosisState
  issues : List DiagnosisIssue
deriving DecidableEq

def diagnoseReadyPackageV2Delivery (s : Submission) (events : List AuditEvent) : Diagnosis :=
  let r := readDocument s events (readEvents s events)
  if r.issues ≠ [] then { state := .evidenceInconsistent, issues := r.issues }
  else if r.consumerResult.bind (·.resultStatus) = some .rejected then
    { state := .consumerRejected, issues := [] }
  else if r.finalized.isSome = true then { state := .delivered, issues := [] }
  else if r.consumerResult.isSome = true then { state := .localFinalizationRequired, issues := [] }
  else if 0 < r.transportAttemptCount then
    { state := .outcomeUnknownRetryExactRequest, issues := [] }
  else { state := .safeToSubmit, issues := [] }

end MarkorbitKnowledge.Delivery
