import MarkorbitKnowledge.Contracts.Runtime
import MarkorbitKnowledge.Execution.Store

/-!
# The conversion tables

The tables of the conversion run ledger, of its runtime and of the runtime's transitions.  A row is
the document it stores, with the columns that no field of the document carries.  A stored document
is checked by its validator whenever it is read.
-/

namespace MarkorbitKnowledge.Conversion

open Contracts Fallible
open Execution (RegistryError)

/-- A row of `conversion_runs`. -/
structure RunRow where
  run : ConversionRun
  dispatchIntentDigest : Digest
deriving DecidableEq

/-- A row of `conversion_runtime_reports`. -/
structure ReportRow where
  report : RuntimeReport
  reportDigest : Digest
  eventId : Id
  createdAt : Timestamp
deriving DecidableEq

/-- A row of `conversion_verifier_transitions`. -/
structure VerifierTransitionRow where
  workspaceId : Id
  verifierId : String
  idempotencyKey : String
  requestDigest : Digest
  conversionRunId : Id
  eventId : Id
  createdAt : Timestamp
deriving DecidableEq

/-- A row of `conversion_claim_idempotency`. -/
structure ClaimRow where
  workspaceId : Id
  workerId : Id
  idempotencyKey : String
  requestDigest : Digest
  result : ConversionClaimResult
  createdAt : Timestamp
deriving DecidableEq

structure ConversionDatabase where
  runs : List RunRow
  events : List ConversionExecutionEvent
  attempts : List ConversionAttempt
  leases : List ConversionLease
  readGrants : List RawArtifactReadGrant
  uploadGrants : List StagingOutputUploadGrant
  claims : List ClaimRow
  reports : List ReportRow
  verifierTransitions : List VerifierTransitionRow

instance : Tables.Keyed RunRow Id := ⟨fun row => row.run.id⟩
instance : Tables.Keyed ConversionExecutionEvent Id := ⟨ConversionExecutionEvent.id⟩
instance : Tables.Keyed ConversionAttempt Id := ⟨ConversionAttempt.id⟩
instance : Tables.Keyed ConversionLease Id := ⟨ConversionLease.id⟩
instance : Tables.Keyed StagingOutputUploadGrant Id := ⟨StagingOutputUploadGrant.id⟩

/-! ### Reading -/

/-- Look a document up and check it, as every repository does. -/
def load {α : Type} (row : Option α) (isValid : α → Bool) (missing invalid : RegistryError) :
    Except RegistryError α := do
  let document ← orThrow row missing
  require (isValid document = true) invalid
  pure document

theorem load_eq_ok {α : Type} {row : Option α} {isValid : α → Bool} {missing invalid : RegistryError}
    {document : α} :
    load row isValid missing invalid = .ok document ↔ row = some document ∧ isValid document = true := by
  simp only [load, bind_eq_ok, orThrow_eq_ok, require_eq_ok, pure_eq_ok]
  constructor
  · rintro ⟨_, hrow, -, hvalid, rfl⟩
    exact ⟨hrow, hvalid⟩
  · rintro ⟨hrow, hvalid⟩
    exact ⟨document, hrow, (), hvalid, rfl⟩

namespace ConversionDatabase

variable (db : ConversionDatabase)

def run? (id : Id) : Option ConversionRun := (Tables.find? db.runs id).map (·.run)

def loadRun (id : Id) : Except RegistryError ConversionRun :=
  load (db.run? id) isConversionRun
    (.registry "CONVERSION_RUN_NOT_FOUND" ("ConversionRun " ++ idText "cvr" id ++ " not found"))
    (.validation "Persisted ConversionRun is invalid")

def loadLease (id : Id) : Except RegistryError ConversionLease :=
  load (Tables.find? db.leases id) isConversionLease
    (.registry "CONVERSION_LEASE_NOT_FOUND" ("ConversionLease " ++ idText "cvl" id ++ " not found"))
    (.validation "Persisted ConversionLease is invalid")

def loadAttempt (id : Id) : Except RegistryError ConversionAttempt :=
  load (Tables.find? db.attempts id) isConversionAttempt
    (.registry "CONVERSION_ATTEMPT_NOT_FOUND" ("ConversionAttempt " ++ idText "cva" id ++ " not found"))
    (.validation "Persisted ConversionAttempt is invalid")

end ConversionDatabase

end MarkorbitKnowledge.Conversion
