import MarkorbitKnowledge.Conversion.Transitions
import MarkorbitKnowledge.Lib.Transitions

/-!
# Every call on the conversion store

The calls of the run ledger, of the runtime and of its transitions as the steps of one machine on the
conversion tables.  Clock readings, generated values and what other repositories answer come with
the call, so a run of the machine is a run of the store at any clock and in any order.
-/

namespace MarkorbitKnowledge.Conversion

open Contracts Fallible Transitions
open Execution (RegistryError)

inductive ConversionCall where
  | dispatchManual (catalogue : ConversionCatalogue) (input : ManualConversionDispatchInput)
      (now : Timestamp) (runId eventId : Id)
  | cancel (id : Id) (input : CancelConversionRunInput) (now : Timestamp) (eventId : Id)
  | claim (request : ConversionClaimRequest)
      (capability : Except RegistryError ConversionWorkerCapability) (values : ConversionClaimValues)
  | renewLease (id : Id) (input : RenewConversionLeaseInput) (now : Timestamp) (token : RuntimeToken)
  | releaseBeforeStart (id : Id) (input : CloseConversionLeaseInput) (now : Timestamp)
  | expireBeforeStart (id : Id) (input : CloseConversionLeaseInput) (now : Timestamp)
  | submitReport (report : RuntimeReport) (values : ReportValues)
  | completeVerification (input : CompleteConversionVerificationInput) (occurredAt : Timestamp)
      (eventId : Id)
  | failVerification (input : FailConversionVerificationInput) (occurredAt : Timestamp) (eventId : Id)
  | reconcileExpiredStartedLease (leaseId : Id) (input : ReconcileExpiredConversionLeaseInput)
      (occurredAt : Timestamp) (eventId : Id)

/-- What a call returns. -/
inductive ConversionOutcome where
  | dispatched (result : ManualConversionDispatchResult)
  | cancelled (record : ConversionRunRecord)
  | claimed (result : ConversionClaimPersistenceResult)
  | lease (lease : ConversionLease)
  | transitioned (result : ConversionRuntimeTransitionResult)

variable (platform : ConversionPlatform)

/-- The body of a call: its outcome and the tables it leaves, or what it throws. -/
def body (call : ConversionCall) (db : ConversionDatabase) :
    Except RegistryError (ConversionOutcome × ConversionDatabase) :=
  match call with
  | .dispatchManual catalogue input now runId eventId => do
    let (result, db) ← dispatchManual platform catalogue input now runId eventId db
    pure (.dispatched result, db)
  | .cancel id input now eventId => do
    let (record, db) ← cancel id input now eventId db
    pure (.cancelled record, db)
  | .claim request capability values => do
    let (result, db) ← claim platform request capability values db
    pure (.claimed result, db)
  | .renewLease id input now token => do
    let (lease, db) ← renewLease id input now token db
    pure (.lease lease, db)
  | .releaseBeforeStart id input now => do
    let (lease, db) ← releaseBeforeStart id input now db
    pure (.lease lease, db)
  | .expireBeforeStart id input now => do
    let (lease, db) ← expireBeforeStart id input now db
    pure (.lease lease, db)
  | .submitReport report values => do
    let (result, db) ← submitReport platform report values db
    pure (.transitioned result, db)
  | .completeVerification input occurredAt eventId => do
    let (result, db) ← completeVerification platform input occurredAt eventId db
    pure (.transitioned result, db)
  | .failVerification input occurredAt eventId => do
    let (result, db) ← failVerification platform input occurredAt eventId db
    pure (.transitioned result, db)
  | .reconcileExpiredStartedLease leaseId input occurredAt eventId => do
    let (result, db) ← reconcileExpiredStartedLease platform leaseId input occurredAt eventId db
    pure (.transitioned result, db)

/-- A call runs as one transaction. -/
def perform (db : ConversionDatabase) (call : ConversionCall) :
    Except RegistryError ConversionOutcome × ConversionDatabase :=
  commit (body platform call) db

/-- The conversion tables after their migrations. -/
def ConversionDatabase.empty : ConversionDatabase where
  runs := []
  events := []
  attempts := []
  leases := []
  readGrants := []
  uploadGrants := []
  claims := []
  reports := []
  verifierTransitions := []

def store : Machine ConversionDatabase ConversionCall where
  init := .empty
  step db call := (perform platform db call).2

theorem run_concat_store (calls : List ConversionCall) (call : ConversionCall) :
    (store platform).run (calls ++ [call]) = (perform platform ((store platform).run calls) call).2 :=
  Machine.run_concat _ calls call

end MarkorbitKnowledge.Conversion
