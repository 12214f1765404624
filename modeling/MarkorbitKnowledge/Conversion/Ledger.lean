import MarkorbitKnowledge.Conversion.Database
import MarkorbitKnowledge.Lib.Tables
import Mathlib.Data.List.Sort

/-!
# The conversion run ledger

`conversion-run-ledger.ts`: the dispatch of a conversion run and its cancellation.  A dispatch under
a key that was already used replays the run stored under it, or is refused when the intent differs.
The catalogue a dispatch reads is written by other repositories and comes with the call, as the clock
reading and the generated ids do.
-/

namespace MarkorbitKnowledge.Conversion

open Contracts Fallible Tables
open Execution (RegistryError)

@[simp] theorem key_runRow (row : RunRow) : key row = row.run.id := rfl
@[simp] theorem key_event (event : ConversionExecutionEvent) : key event = event.id := rfl
@[simp] theorem key_attempt (attempt : ConversionAttempt) : key attempt = attempt.id := rfl
@[simp] theorem key_lease (lease : ConversionLease) : key lease = lease.id := rfl
@[simp] theorem key_uploadGrant (grant : StagingOutputUploadGrant) : key grant = grant.id := rfl

/-! ### The platform -/

/-- What the digest of a dispatch covers. -/
structure ConversionIntent where
  workspaceId : Id
  rawArtifactId : Id
  conversionProfileId : Id
  targetPathTemplate : String
  trigger : ConversionTrigger
  input : ConversionInputEvidence
deriving DecidableEq

/-- A request of a verifier or a reconciler, as its digest covers it. -/
inductive VerifierRequest where
  | complete (workspaceId : Id) (verifierId idempotencyKey : String)
      (stagingDocument : StagingDocumentDescriptor)
  | failVerification (workspaceId : Id) (verifierId idempotencyKey : String) (conversionRunId : Id)
      (code message : String)
  | reconcileExpired (leaseId workspaceId : Id) (reconcilerId idempotencyKey : String)
deriving DecidableEq

/-- SHA-256 of the canonical JSON of what each repository hashes. -/
structure ConversionPlatform where
  hashIntent : ConversionIntent → Digest
  hashClaim : ConversionClaimRequest → Digest
  hashReport : RuntimeReport → Digest
  hashVerifier : VerifierRequest → Digest

/-! ### Events -/

def parseEvent (event : ConversionExecutionEvent) : Except RegistryError ConversionExecutionEvent := do
  require (isConversionExecutionEvent event = true)
    (.validation "Persisted ConversionExecutionEvent is invalid")
  pure event

/-- The events of a run, in the order they were stored. -/
def eventsOfRun (db : ConversionDatabase) (runId : Id) : List ConversionExecutionEvent :=
  db.events.filter fun event => decide (event.runId = runId)

def listEvents (db : ConversionDatabase) (runId : Id) :
    Except RegistryError (List ConversionExecutionEvent) :=
  ((eventsOfRun db runId).insertionSort fun left right => left.sequence ≤ right.sequence).mapM
    parseEvent

/-- `INSERT INTO conversion_execution_events`: a primary key, and one event per run and sequence. -/
def insertEvent (db : ConversionDatabase) (event : ConversionExecutionEvent) :
    Except RegistryError ConversionDatabase := do
  require (∀ stored ∈ db.events, stored.id ≠ event.id)
    (.uniqueConstraint "conversion_execution_events.id")
  require (∀ stored ∈ db.events, stored.runId = event.runId → stored.sequence ≠ event.sequence)
    (.uniqueConstraint "conversion_execution_events.run_id, conversion_execution_events.sequence")
  pure { db with events := db.events ++ [event] }

/-! ### Checked values -/

def idempotencyKeyOf (value message : String) : Except RegistryError String := do
  require (isIdempotencyKey (trim value) = true) (.validation message)
  pure (trim value)

def actorOf (actor : Option ConversionActor) : Except RegistryError ConversionActor := do
  let actor := actor.getD { type := .admin, id := "local-admin" }
  require (isActorId actor.id = true) (.validation "Invalid conversion actor")
  pure actor

/-! ### Dispatch -/

/-- A row of `raw_artifacts`, as far as a dispatch reads it. -/
structure ConvertibleArtifact where
  id : Id
  workspaceId : Id
  sourceId : Id
  status : ArtifactStatus
  artifactKind : ArtifactKind
  mimeType : String
  binaryHash : Digest
  sizeBytes : Nat

/-- The artifacts, profiles and manifests stored when a run is dispatched. -/
structure ConversionCatalogue where
  artifacts : List ConvertibleArtifact
  profiles : List ConversionProfile
  manifests : List ConverterManifest

structure ManualConversionDispatchInput where
  workspaceId : Id
  rawArtifactId : Id
  conversionProfileId : Id
  /-- `requestedOutput.targetPathTemplate`. -/
  targetPathTemplate : String
  trigger : Option ConversionTrigger
  actor : Option ConversionActor
  idempotencyKey : String

structure ConversionRunRecord where
  run : ConversionRun
  events : List ConversionExecutionEvent

structure ManualConversionDispatchResult where
  record : ConversionRunRecord
  replayed : Bool

def availableArtifact (catalogue : ConversionCatalogue) (input : ManualConversionDispatchInput) :
    Except RegistryError ConvertibleArtifact := do
  let artifact ← orThrow
    (catalogue.artifacts.find? fun artifact => decide (artifact.id = input.rawArtifactId))
    (.registry "RAW_ARTIFACT_NOT_FOUND" "RawArtifact was not found")
  require (artifact.workspaceId = input.workspaceId)
    (.conflict "CONVERSION_ARTIFACT_WORKSPACE_MISMATCH" "RawArtifact belongs to another Workspace")
  require (artifact.status = .readyForConversion)
    (.conflict "CONVERSION_ARTIFACT_NOT_AVAILABLE" "RawArtifact is not available for conversion")
  pure artifact

def activeProfile (catalogue : ConversionCatalogue) (input : ManualConversionDispatchInput)
    (artifact : ConvertibleArtifact) : Except RegistryError ConversionProfile := do
  let profile ← orThrow
    (catalogue.profiles.find? fun profile => decide (profile.id = input.conversionProfileId))
    (.registry "CONVERSION_PROFILE_NOT_FOUND" "ConversionProfile was not found")
  require (isConversionProfile profile = true)
    (.validation "Persisted ConversionProfile is invalid")
  require (profile.status = .active)
    (.conflict "CONVERSION_PROFILE_NOT_ACTIVE" "ConversionProfile must be ACTIVE")
  require (profile.workspaceId = input.workspaceId)
    (.conflict "CONVERSION_PROFILE_WORKSPACE_MISMATCH"
      "ConversionProfile belongs to another Workspace")
  require (∀ sourceId ∈ profile.sourceId, sourceId = artifact.sourceId)
    (.conflict "CONVERSION_PROFILE_SOURCE_MISMATCH"
      "ConversionProfile Source scope does not match RawArtifact")
  pure profile

def activeManifest (catalogue : ConversionCatalogue) (converter : RuntimeConverterRef) :
    Except RegistryError ConverterManifest := do
  let manifest ← orThrow
    (catalogue.manifests.find? fun manifest => decide (manifest.converterId = converter.converterId) &&
      decide (manifest.version = converter.version))
    (.registry "CONVERTER_NOT_FOUND" "ConverterManifest was not found")
  require (isConverterManifest manifest = true)
    (.validation "Persisted ConverterManifest is invalid")
  require (manifest.status = .active)
    (.conflict "CONVERTER_NOT_ACTIVE" "ConverterManifest must be ACTIVE")
  pure manifest

/-- The run a dispatch stores. -/
def dispatchedRun (input : ManualConversionDispatchInput) (artifact : ConvertibleArtifact)
    (profile : ConversionProfile) (manifest : ConverterManifest) (idempotencyKey : String) (runId : Id)
    (now : Timestamp) : ConversionRun where
  id := runId
  workspaceId := input.workspaceId
  sourceId := artifact.sourceId
  rawArtifactId := artifact.id
  conversionProfileId := profile.id
  conversionProfileSnapshot := profile
  converter := profile.converter
  converterManifestSnapshot := manifest
  input :=
    { artifactId := artifact.id, artifactKind := artifact.artifactKind
      mimeType := artifact.mimeType, sha256 := artifact.binaryHash, sizeBytes := artifact.sizeBytes }
  trigger := input.trigger.getD .manual
  idempotencyKey := idempotencyKey
  targetPathTemplate := input.targetPathTemplate
  status := .pending
  createdAt := now
  updatedAt := now
  startedAt := none
  verifyingAt := none
  completedAt := none
  failedAt := none
  cancelledAt := none
  failure := none
  stagingDocument := none

def createdEvent (run : ConversionRun) (actor : ConversionActor) (eventId : Id) :
    ConversionExecutionEvent where
  id := eventId
  runId := run.id
  sequence := 1
  eventType := .created
  previousStatus := none
  resultingStatus := .pending
  occurredAt := run.createdAt
  actor := actor
  message := some "Awaiting conversion runtime"
  payload := .empty

/-- `INSERT INTO conversion_runs`: a primary key, and one run per workspace and key. -/
def insertRun (db : ConversionDatabase) (row : RunRow) : Except RegistryError ConversionDatabase := do
  require (∀ stored ∈ db.runs, stored.run.id ≠ row.run.id) (.uniqueConstraint "conversion_runs.id")
  require (∀ stored ∈ db.runs, stored.run.workspaceId = row.run.workspaceId →
      stored.run.idempotencyKey ≠ row.run.idempotencyKey)
    (.uniqueConstraint "conversion_runs.workspace_id, conversion_runs.idempotency_key")
  pure { db with runs := db.runs ++ [row] }

/-- The two rows of a new run, or the violated constraint. -/
def insertDispatch (db : ConversionDatabase) (row : RunRow) (event : ConversionExecutionEvent) :
    Except RegistryError ConversionDatabase := do
  let db ← insertRun db row
  insertEvent db event

/-- What a dispatch answers when its rows could not be inserted. -/
def replayDispatch (db : ConversionDatabase) (workspaceId : Id) (idempotencyKey : String)
    (intentDigest : Digest) (error : RegistryError) :
    Except RegistryError ManualConversionDispatchResult := do
  let existing ← orThrow
    (db.runs.find? fun row => decide (row.run.workspaceId = workspaceId) &&
      decide (row.run.idempotencyKey = idempotencyKey)) error
  require (existing.dispatchIntentDigest = intentDigest)
    (.conflict "CONVERSION_IDEMPOTENCY_CONFLICT"
      "Idempotency key was already used for a different conversion intent")
  require (isConversionRun existing.run = true) (.validation "Persisted ConversionRun is invalid")
  let events ← listEvents db existing.run.id
  pure { record := { run := existing.run, events }, replayed := true }

def dispatchManual (platform : ConversionPlatform) (catalogue : ConversionCatalogue)
    (input : ManualConversionDispatchInput) (now : Timestamp) (runId eventId : Id)
    (db : ConversionDatabase) :
    Except RegistryError (ManualConversionDispatchResult × ConversionDatabase) := do
  let idempotencyKey ← idempotencyKeyOf input.idempotencyKey "Invalid idempotency key"
  let artifact ← availableArtifact catalogue input
  let profile ← activeProfile catalogue input artifact
  let manifest ← activeManifest catalogue profile.converter
  require (profile.input.accepts artifact.artifactKind artifact.mimeType = true ∧
      converterAccepts manifest artifact.artifactKind artifact.mimeType = true)
    (.conflict "CONVERSION_INPUT_INCOMPATIBLE"
      "RawArtifact is not compatible with the selected ConversionProfile and ConverterManifest")
  require (input.targetPathTemplate = profile.targetPathTemplate)
    (.conflict "CONVERSION_OUTPUT_INCOMPATIBLE"
      "Requested output must match the Profile and ConverterManifest")
  let actor ← actorOf input.actor
  let run := dispatchedRun input artifact profile manifest idempotencyKey runId now
  let intentDigest := platform.hashIntent
    { workspaceId := run.workspaceId, rawArtifactId := run.rawArtifactId
      conversionProfileId := profile.id, targetPathTemplate := run.targetPathTemplate
      trigger := run.trigger, input := run.input }
  let event := createdEvent run actor eventId
  require (isConversionRun run = true ∧ isConversionExecutionEvent event = true)
    (.validation "ConversionRun dispatch violates Conversion Execution Protocol v1")
  match insertDispatch db { run, dispatchIntentDigest := intentDigest } event with
  | .ok db => pure ({ record := { run, events := [event] }, replayed := false }, db)
  | .error error => do
    let result ← replayDispatch db input.workspaceId idempotencyKey intentDigest error
    pure (result, db)

/-! ### Cancellation -/

structure CancelConversionRunInput where
  workspaceId : Id
  actor : Option ConversionActor
  message : Option String

def cancelledRun (run : ConversionRun) (now : Timestamp) : ConversionRun :=
  { run with status := .cancelled, updatedAt := now, cancelledAt := some now }

def cancelledEvent (run : ConversionRun) (sequence : Nat) (actor : ConversionActor)
    (message : Option String) (now : Timestamp) (eventId : Id) : ConversionExecutionEvent where
  id := eventId
  runId := run.id
  sequence := sequence
  eventType := .cancelled
  previousStatus := some .pending
  resultingStatus := .cancelled
  occurredAt := now
  actor := actor
  message := message.filter (· ≠ "")
  payload := .empty

/-- `UPDATE conversion_runs SET … WHERE id = ?`. -/
def updateRun (db : ConversionDatabase) (run : ConversionRun) : ConversionDatabase :=
  { db with runs := db.runs.map fun row => if row.run.id = run.id then { row with run } else row }

/-- `cancel` reads the run and its events before the transaction and again in it; one reading stands
    for both. -/
def cancel (id : Id) (input : CancelConversionRunInput) (now : Timestamp) (eventId : Id)
    (db : ConversionDatabase) : Except RegistryError (ConversionRunRecord × ConversionDatabase) := do
  let row ← orThrow
    (db.runs.find? fun row => decide (row.run.id = id) &&
      decide (row.run.workspaceId = input.workspaceId))
    (.registry "CONVERSION_RUN_NOT_FOUND" ("ConversionRun " ++ idText "cvr" id ++ " was not found"))
  let run := row.run
  require (isConversionRun run = true) (.validation "Persisted ConversionRun is invalid")
  let events ← listEvents db run.id
  require (run.status = .pending)
    (.conflict "CONVERSION_RUN_NOT_CANCELLABLE" "Only PENDING ConversionRuns can be cancelled")
  require (canTransitionConversionRun (some .pending) .cancelled = true)
    (.validation "Illegal conversion transition")
  let next := cancelledRun run now
  let actor ← actorOf input.actor
  let event := cancelledEvent next (events.length + 1) actor input.message now eventId
  require (isConversionRun next = true ∧ isConversionExecutionEvent event = true)
    (.validation "Cancellation violates Conversion Execution Protocol v1")
  let db ← insertEvent (updateRun db next) event
  pure ({ run := next, events := events ++ [event] }, db)

end MarkorbitKnowledge.Conversion
