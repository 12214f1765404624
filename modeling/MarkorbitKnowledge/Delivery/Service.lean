import MarkorbitKnowledge.Delivery.Diagnosis
import MarkorbitKnowledge.Lib.Transitions

/-!
# Submitting deliveries

`ReadyPackageV2DeliveryService` around the repository: `prepare` freezes a request, and `submit`
diagnoses the delivery and then either finishes it from the stored result or starts an attempt and
sends the frozen request.  `submit` gives up its turn once, while the consumer answers, so a submit is
two steps of the machine here: `submit` up to the call of the transport, and `settle` from the
answer on.  Submits that wait are in `inFlight`; any number of them may wait for one delivery.

Every repository call of a step may fail in the database, and the process may die between two of
them; the ops say where.
-/

namespace MarkorbitKnowledge.Delivery

open Contracts Fallible Transitions

/-- A submit that waits for the consumer. -/
structure Waiting where
  workspaceId : Id
  submissionId : Id
deriving DecidableEq

/-- A request handed to the transport. -/
structure TransportCall where
  workspaceId : Id
  submissionId : Id
  requestJson : String
  idempotencyKey : String
deriving DecidableEq

structure System where
  database : Database
  inFlight : List Waiting
  calls : List TransportCall

/-- What the transport gives: a result, or the error it throws. -/
inductive TransportOutcome where
  | answered (result : DeliveryResult)
  | failed (issueCode : String) (httpStatus : Nat)

/-- Where a step fails: its `n`-th repository call (from 0) throws, or the process dies after it. -/
inductive Fault where
  | database (call : Nat)
  | crash (call : Nat)
deriving DecidableEq

/-- A repository call under a fault: it throws, and its transaction is rolled back. -/
def attempt {α : Type} (fault : Option Fault) (call : Nat)
    (body : Database → Except DeliveryError (α × Database)) (db : Database) :
    Except DeliveryError (α × Database) :=
  if fault = some (.database call) then .error .database else body db

variable (platform : Platform)

def diagnose (db : Database) (s : Submission) : Diagnosis :=
  diagnoseReadyPackageV2Delivery s (listAuditEvents db s.workspaceId s.submissionId 200)

def evidenceInconsistent (diagnosis : Diagnosis) : DeliveryError :=
  let issueCodes := ", ".intercalate (diagnosis.issues.map (·.code))
  .conflict "READY_PACKAGE_V2_DELIVERY_EVIDENCE_INCONSISTENT"
    ("ReadyPackage V2 delivery evidence is inconsistent (" ++
      (if issueCodes = "" then "UNKNOWN" else issueCodes) ++ "); outbound automation is blocked")

/-- `prepare` of the service, on the package, binding and export it has loaded. -/
def servicePrepare (input : PrepareInput) (now : Timestamp) (id : Id) (db : Database) :
    Except DeliveryError (Recorded × Database) := do
  match ← getByReadyPackage platform db input.workspaceId input.readyPackage.id with
  | some existing => do
    require ((diagnose db existing).state ≠ .evidenceInconsistent)
      (evidenceInconsistent (diagnose db existing))
    pure ({ submission := existing, replayed := true }, db)
  | none => prepare platform input now id db

/-- How far `submit` comes on its own: the delivery is done, or the transport is to be called. -/
inductive SubmitStart where
  | done (submission : Submission)
  | attempt (submission : Submission)

/-- `protocolResultFromDurableTransportEvidence`. -/
def protocolResultFromDurableTransportEvidence (result : ResultEvidence) : DeliveryResult :=
  result.toDeliveryResult

def startSubmit (workspaceId readyPackageId : Id) (configured : Bool) (now : Timestamp)
    (fault : Option Fault) (db : Database) : Except DeliveryError (SubmitStart × Database) := do
  let stored ← getByReadyPackage platform db workspaceId readyPackageId
  let s ← orThrow stored (.conflict "READY_PACKAGE_V2_DELIVERY_NOT_PREPARED"
    "Freeze the ReadyPackage V2 delivery request before submitting it")
  let diagnosis := diagnose db s
  match diagnosis.state with
  | .evidenceInconsistent => .error (evidenceInconsistent diagnosis)
  | .delivered => pure (.done s, db)
  | .consumerRejected => .error (.conflict "READY_PACKAGE_V2_DELIVERY_CONSUMER_REJECTED"
      "ReadyPackage V2 delivery was rejected by the consumer and requires operator review")
  | .localFinalizationRequired => do
    let evidence ← orThrow s.transportResult (evidenceInconsistent diagnosis)
    let (s, db) ← attempt fault 0 (recordResult platform workspaceId s.submissionId
      (protocolResultFromDurableTransportEvidence evidence) now) db
    pure (.done s, db)
  | .safeToSubmit | .outcomeUnknownRetryExactRequest => do
    require (configured = true) (.conflict "CORE_V2_DELIVERY_NOT_CONFIGURED"
      "ReadyPackage V2 outbound transport is not explicitly configured for protocol V1")
    let (s, db) ← attempt fault 0 (markTransportAttempt platform workspaceId s.submissionId now) db
    pure (.attempt s, db)

/-- `submit` up to the call of the transport. -/
def submit (workspaceId readyPackageId : Id) (configured : Bool) (now : Timestamp)
    (fault : Option Fault) (s : System) : System :=
  let (started, database) :=
    commit (startSubmit platform workspaceId readyPackageId configured now fault) s.database
  if fault = some (.crash 0) then { s with database, inFlight := [] }
  else
    match started with
    | .ok (.attempt submission) =>
      { database
        inFlight := s.inFlight ++ [{ workspaceId, submissionId := submission.submissionId }]
        calls := s.calls ++
          [{ workspaceId := submission.workspaceId, submissionId := submission.submissionId
             requestJson := submission.requestJson, idempotencyKey := submission.idempotencyKey }] }
    | _ => { s with database }

/-- The rest of a submit, from the outcome of its transport on: a failed transport leaves an
    uncertainty; a result is recorded and then made final, by two calls.  A call is not made when
    the one before it threw, or the process died. -/
def settleDatabase (waiting : Waiting) (outcome : TransportOutcome) (now finalNow : Timestamp)
    (fault : Option Fault) (db : Database) : Database :=
  match outcome with
  | .failed issueCode httpStatus =>
    (commit (attempt fault 0 (recordTransportUncertainty platform waiting.workspaceId
      waiting.submissionId issueCode httpStatus now)) db).2
  | .answered result =>
    let (recorded, db) := commit (attempt fault 0 (recordTransportResult platform
      waiting.workspaceId waiting.submissionId result now)) db
    match recorded with
    | .error _ => db
    | .ok _ =>
      if fault = some (.crash 0) then db
      else
        (commit (attempt fault 1 (recordResult platform waiting.workspaceId waiting.submissionId
          result finalNow)) db).2

inductive Op where
  | prepare (input : PrepareInput) (now : Timestamp) (id : Id)
  | submit (workspaceId readyPackageId : Id) (configured : Bool) (now : Timestamp)
      (fault : Option Fault)
  | settle (index : Nat) (outcome : TransportOutcome) (now finalNow : Timestamp)
      (fault : Option Fault)
  | crash

def step (s : System) : Op → System
  | .prepare input now id =>
    { s with database := (commit (servicePrepare platform input now id) s.database).2 }
  | .submit workspaceId readyPackageId configured now fault =>
    submit platform workspaceId readyPackageId configured now fault s
  | .settle index outcome now finalNow fault =>
    match s.inFlight[index]? with
    | none => s
    | some waiting =>
      { s with
        database := settleDatabase platform waiting outcome now finalNow fault s.database
        inFlight := if fault = some (.crash 0) ∨ fault = some (.crash 1) then []
          else s.inFlight.eraseIdx index }
  | .crash => { s with inFlight := [] }

/-- A run of the service over a database that holds the given ReadyPackages and no delivery. -/
def machine (readyPackages : List (Id × Id)) : Machine System Op where
  init :=
    { database := { readyPackages, submissions := [], auditEvents := [] }
      inFlight := []
      calls := [] }
  step := step platform

end MarkorbitKnowledge.Delivery
