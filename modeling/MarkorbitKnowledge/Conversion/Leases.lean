import MarkorbitKnowledge.Conversion.Ledger

/-!
# Claims and leases of conversion runs

`conversion-runtime-persistence.ts`: a worker claims the oldest pending run it supports, renews the
lease of its attempt, and gives the lease back, or loses it, before the attempt starts.  Ids, tokens
and the clock reading of a call come with it; so does what the worker registry answers about the
claiming worker, which other repositories write.
-/

namespace MarkorbitKnowledge.Conversion

open Contracts Fallible Tables
open Execution (RegistryError)

namespace ConversionDatabase

def getLease (db : ConversionDatabase) (id : Id) : Except RegistryError ConversionLease :=
  load (find? db.leases id) isConversionLease
    (.registry "CONVERSION_LEASE_NOT_FOUND" ("Conversion lease " ++ idText "cvl" id ++ " was not found"))
    (.validation "Persisted ConversionLease is invalid")

def getAttempt (db : ConversionDatabase) (id : Id) : Except RegistryError ConversionAttempt :=
  load (find? db.attempts id) isConversionAttempt
    (.registry "CONVERSION_ATTEMPT_NOT_FOUND" "Conversion attempt was not found")
    (.validation "Persisted ConversionAttempt is invalid")

/-- The attempts of a run, in the order they were stored. -/
def attemptsOfRun (db : ConversionDatabase) (runId : Id) : List ConversionAttempt :=
  db.attempts.filter fun attempt => decide (attempt.conversionRunId = runId)

def leasesOfRun (db : ConversionDatabase) (runId : Id) : List ConversionLease :=
  db.leases.filter fun lease => decide (lease.conversionRunId = runId)

end ConversionDatabase

def MAX_LEASE_SECONDS : Nat := 3600
def DEFAULT_LEASE_SECONDS : Nat := 120
def DEFAULT_RENEWABLE_SECONDS : Nat := 900

def boundedLeaseSeconds (value : Nat) : Except RegistryError Nat := do
  require (0 < value ∧ value ≤ MAX_LEASE_SECONDS)
    (.validation ("requestedDurationSeconds must be between 1 and " ++ toString MAX_LEASE_SECONDS))
  pure value

/-- `new Date(Date.parse(base) + seconds * 1000).toISOString()`. -/
def secondsAfter (base : Timestamp) (seconds : Nat) : Except RegistryError Timestamp := do
  require (isDate (base + seconds * 1000) = true) .invalidTimeValue
  pure (base + seconds * 1000)

/-! ### Claims -/

/-- The clock reading and the generated values of a claim. -/
structure ConversionClaimValues where
  now : Timestamp
  attemptId : Id
  leaseId : Id
  tokenReference : Id
  tokenDigest : Digest
  readGrantId : Id
  uploadGrantId : Id

structure ConversionClaimPersistenceResult where
  result : ConversionClaimResult
  replayed : Bool

def expandTargetPath (template : String) (artifactId runId : Id) : Option String :=
  let artifact := (idText "art" artifactId).toList
  let run := (idText "cvr" runId).toList
  normalizeStagingTargetPath
    (replaceAll (replaceAll (replaceAll (replaceAll template.toList
      "\x7b\x7bartifactId\x7d\x7d".toList artifact) "\x7bartifactId\x7d".toList artifact)
      "\x7b\x7brunId\x7d\x7d".toList run) "\x7brunId\x7d".toList run)

/-- A stored run the claim may take, with the path its output goes to. -/
def claimable (request : ConversionClaimRequest) (capability : ConversionWorkerCapability)
    (run : ConversionRun) : Option (ConversionRun × String) :=
  if isConversionRun run && supportsConverter request.supportedConverters run.converter &&
      conversionCapabilitySupports capability run.converter run.input.artifactKind
        run.input.mimeType then
    (expandTargetPath run.targetPathTemplate run.rawArtifactId run.id).map fun path => (run, path)
  else none

/-- The pending runs of a workspace without an active lease, `ORDER BY created_at ASC`.  They are read
    backwards through the index on descending `created_at`, so of the runs created at one instant the
    one stored last comes first. -/
def pendingRuns (db : ConversionDatabase) (workspaceId : Id) : List ConversionRun :=
  ((db.runs.reverse.map (·.run)).filter fun run => decide (run.workspaceId = workspaceId) &&
      decide (run.status = .pending) && !(db.leasesOfRun run.id).any fun lease =>
        decide (lease.status = .active)).insertionSort
    fun left right => isoOrder left.createdAt ≤ isoOrder right.createdAt

def claimedLease (request : ConversionClaimRequest) (run : ConversionRun)
    (values : ConversionClaimValues) (expiresAt renewableUntil : Timestamp) : ConversionLease where
  id := values.leaseId
  workspaceId := request.workspaceId
  conversionRunId := run.id
  workerId := request.workerId
  conversionAttemptId := values.attemptId
  converter := run.converter
  generation := 1
  tokenReference := values.tokenReference
  tokenDigest := values.tokenDigest
  status := .active
  issuedAt := values.now
  expiresAt := expiresAt
  renewableUntil := renewableUntil
  releasedAt := none
  expiredAt := none
  supersededAt := none

def claimedAttempt (request : ConversionClaimRequest) (run : ConversionRun)
    (values : ConversionClaimValues) (ordinal : Nat) : ConversionAttempt where
  id := values.attemptId
  workspaceId := request.workspaceId
  conversionRunId := run.id
  workerId := request.workerId
  conversionLeaseId := values.leaseId
  ordinal := ordinal
  converter := run.converter
  createdAt := values.now
  startedAt := none
  endedAt := none
  status := .claimed
  outcome := none
  failure := none
  reconciliation := none

def claimedReadGrant (request : ConversionClaimRequest) (run : ConversionRun)
    (values : ConversionClaimValues) (expiresAt : Timestamp) : RawArtifactReadGrant where
  id := values.readGrantId
  workspaceId := request.workspaceId
  rawArtifactId := run.rawArtifactId
  conversionRunId := run.id
  conversionAttemptId := values.attemptId
  workerId := request.workerId
  expectedSha256 := run.input.sha256
  expectedBytes := run.input.sizeBytes
  expectedMime := run.input.mimeType
  accessRef :=
    "artifact-read:" ++ idText "art" run.rawArtifactId ++ ":" ++ idText "cva" values.attemptId
  issuedAt := values.now
  expiresAt := expiresAt
  maximumReads := 1
  readsUsed := 0

def claimedUploadGrant (request : ConversionClaimRequest) (run : ConversionRun) (targetPath : String)
    (values : ConversionClaimValues) (expiresAt : Timestamp) : StagingOutputUploadGrant where
  id := values.uploadGrantId
  workspaceId := request.workspaceId
  conversionRunId := run.id
  conversionAttemptId := values.attemptId
  workerId := request.workerId
  normalizedTargetPath := targetPath
  maximumBytes := 5000000
  uploadSessionRef :=
    "staging-upload:" ++ idText "cvr" run.id ++ ":" ++ idText "cva" values.attemptId
  issuedAt := values.now
  expiresAt := expiresAt

/-- `INSERT INTO conversion_attempts`: a primary key, and one attempt per run and ordinal. -/
def insertAttempt (db : ConversionDatabase) (attempt : ConversionAttempt) :
    Except RegistryError ConversionDatabase := do
  require (∀ stored ∈ db.attempts, stored.id ≠ attempt.id) (.uniqueConstraint "conversion_attempts.id")
  require (∀ stored ∈ db.attempts, stored.conversionRunId = attempt.conversionRunId →
      stored.ordinal ≠ attempt.ordinal)
    (.uniqueConstraint "conversion_attempts.conversion_run_id, conversion_attempts.ordinal")
  pure { db with attempts := db.attempts ++ [attempt] }

/-- `INSERT INTO conversion_leases`: a primary key, and one active lease per run. -/
def insertLease (db : ConversionDatabase) (lease : ConversionLease) :
    Except RegistryError ConversionDatabase := do
  require (∀ stored ∈ db.leases, stored.id ≠ lease.id) (.uniqueConstraint "conversion_leases.id")
  require (∀ stored ∈ db.leases, stored.conversionRunId = lease.conversionRunId →
      stored.status = .active → lease.status ≠ .active)
    (.uniqueConstraint "conversion_leases.conversion_run_id")
  pure { db with leases := db.leases ++ [lease] }

def insertReadGrant (db : ConversionDatabase) (grant : RawArtifactReadGrant) :
    Except RegistryError ConversionDatabase := do
  require (∀ stored ∈ db.readGrants, stored.id ≠ grant.id) (.uniqueConstraint "conversion_read_grants.id")
  pure { db with readGrants := db.readGrants ++ [grant] }

def insertUploadGrant (db : ConversionDatabase) (grant : StagingOutputUploadGrant) :
    Except RegistryError ConversionDatabase := do
  require (∀ stored ∈ db.uploadGrants, stored.id ≠ grant.id)
    (.uniqueConstraint "conversion_upload_grants.id")
  pure { db with uploadGrants := db.uploadGrants ++ [grant] }

/-- `INSERT INTO conversion_claim_idempotency`; its key was looked up in the same transaction. -/
def storeClaim (db : ConversionDatabase) (request : ConversionClaimRequest) (requestDigest : Digest)
    (result : ConversionClaimResult) (now : Timestamp) : ConversionDatabase :=
  { db with
    claims := db.claims ++
      [{ workspaceId := request.workspaceId, workerId := request.workerId
         idempotencyKey := request.idempotencyKey, requestDigest, result, createdAt := now }] }

/-- The attempt, the lease and the grants of a selected run. -/
def claimRun (request : ConversionClaimRequest) (requestDigest : Digest)
    (values : ConversionClaimValues) (run : ConversionRun) (targetPath : String)
    (db : ConversionDatabase) :
    Except RegistryError (ConversionClaimPersistenceResult × ConversionDatabase) := do
  let ordinal := (db.attemptsOfRun run.id).length + 1
  let seconds := request.requestedLeaseDurationSeconds
  let leaseSeconds ← boundedLeaseSeconds (if seconds = 0 then DEFAULT_LEASE_SECONDS else seconds)
  let expiresAt ← secondsAfter values.now leaseSeconds
  let renewableUntil ← secondsAfter values.now (max leaseSeconds DEFAULT_RENEWABLE_SECONDS)
  let lease := claimedLease request run values expiresAt renewableUntil
  let attempt := claimedAttempt request run values ordinal
  let readGrant := claimedReadGrant request run values expiresAt
  let uploadGrant := claimedUploadGrant request run targetPath values expiresAt
  let result := ConversionClaimResult.claimed lease readGrant uploadGrant
  require (isConversionLease lease = true ∧ isConversionAttempt attempt = true ∧
      isRawArtifactReadGrant readGrant = true ∧ isStagingOutputUploadGrant uploadGrant = true ∧
      isConversionClaimResult request.workspaceId request.workerId request.idempotencyKey result = true)
    (.validation "Claim persistence objects violate Conversion Runtime Protocol v1")
  let db ← insertAttempt db attempt
  let db ← insertLease db lease
  let db ← insertReadGrant db readGrant
  let db ← insertUploadGrant db uploadGrant
  pure ({ result, replayed := false }, storeClaim db request requestDigest result values.now)

def claim (platform : ConversionPlatform) (request : ConversionClaimRequest)
    (capability : Except RegistryError ConversionWorkerCapability) (values : ConversionClaimValues)
    (db : ConversionDatabase) :
    Except RegistryError (ConversionClaimPersistenceResult × ConversionDatabase) := do
  require (isConversionClaimRequest request = true)
    (.validation "Claim request does not satisfy Conversion Runtime Protocol v1")
  let requestDigest := platform.hashClaim request
  match db.claims.find? fun row => decide (row.workspaceId = request.workspaceId) &&
      decide (row.workerId = request.workerId) &&
      decide (row.idempotencyKey = request.idempotencyKey) with
  | some previous => do
    require (previous.requestDigest = requestDigest)
      (.conflict "CONVERSION_CLAIM_IDEMPOTENCY_CONFLICT"
        "Claim idempotency key was reused with a different request")
    require (isConversionClaimResult previous.workspaceId previous.workerId previous.idempotencyKey
        previous.result = true)
      (.validation "Persisted ConversionClaimResult is invalid")
    pure ({ result := previous.result, replayed := true }, db)
  | none => do
    let capability ← capability
    match (pendingRuns db request.workspaceId).findSome? (claimable request capability) with
    | none => do
      require (isConversionClaimResult request.workspaceId request.workerId request.idempotencyKey
          .noCompatibleWork = true)
        (.validation "No-work claim result is invalid")
      pure ({ result := .noCompatibleWork, replayed := false },
        storeClaim db request requestDigest .noCompatibleWork values.now)
    | some (run, targetPath) => claimRun request requestDigest values run targetPath db

/-! ### Renewal -/

structure RenewConversionLeaseInput where
  workspaceId : Id
  workerId : Id
  requestedDurationSeconds : Nat

/-- The token a renewal generates. -/
structure RuntimeToken where
  tokenReference : Id
  tokenDigest : Digest

def leaseScope (lease : ConversionLease) (workspaceId workerId : Id) : Except RegistryError Unit :=
  require (lease.workspaceId = workspaceId ∧ lease.workerId = workerId)
    (.conflict "CONVERSION_LEASE_SCOPE_MISMATCH" "Lease scope does not match request")

def renewedLease (lease : ConversionLease) (token : RuntimeToken) (expiresAt : Timestamp) :
    ConversionLease :=
  { lease with
    generation := lease.generation + 1, tokenReference := token.tokenReference
    tokenDigest := token.tokenDigest, expiresAt }

/-- `UPDATE conversion_leases SET … WHERE id = ? AND status = ?`. -/
def updateLease (db : ConversionDatabase) (lease : ConversionLease) : ConversionDatabase :=
  { db with leases := update db.leases lease }

def updateAttempt (db : ConversionDatabase) (attempt : ConversionAttempt) : ConversionDatabase :=
  { db with attempts := update db.attempts attempt }

def renewLease (id : Id) (input : RenewConversionLeaseInput) (now : Timestamp) (token : RuntimeToken)
    (db : ConversionDatabase) : Except RegistryError (ConversionLease × ConversionDatabase) := do
  let seconds ← boundedLeaseSeconds input.requestedDurationSeconds
  let current ← db.getLease id
  leaseScope current input.workspaceId input.workerId
  require (current.status = .active ∧ now < current.expiresAt)
    (.conflict "CONVERSION_LEASE_NOT_ACTIVE" "Only an unexpired ACTIVE lease may be renewed")
  let nextExpiresAt ← secondsAfter now seconds
  require (nextExpiresAt ≤ current.renewableUntil)
    (.conflict "CONVERSION_LEASE_RENEWAL_LIMIT" "Renewal exceeds renewableUntil")
  let next := renewedLease current token nextExpiresAt
  require (isConversionLease next = true)
    (.validation "Renewed lease violates Conversion Runtime Protocol v1")
  pure (next, updateLease db next)

/-! ### Closing a lease before its attempt starts -/

structure CloseConversionLeaseInput where
  workspaceId : Id
  workerId : Id
  reconciliationCode : String

/-- How a lease is closed before the start: given back, or expired. -/
inductive PreStartClosing where
  | released | expired
deriving DecidableEq

def PreStartClosing.attemptStatus : PreStartClosing → ConversionAttemptStatus
  | .released => .abandoned
  | .expired => .leaseLost

def PreStartClosing.closedLease (closing : PreStartClosing) (lease : ConversionLease)
    (now : Timestamp) : ConversionLease :=
  match closing with
  | .released => { lease with status := .released, releasedAt := some now }
  | .expired => { lease with status := .expired, expiredAt := some now }

def PreStartClosing.endedAttempt (closing : PreStartClosing) (attempt : ConversionAttempt)
    (code : String) (now : Timestamp) : ConversionAttempt :=
  { attempt with
    status := closing.attemptStatus, outcome := some closing.attemptStatus, endedAt := some now
    reconciliation := some code }

def closeBeforeStart (id : Id) (input : CloseConversionLeaseInput) (closing : PreStartClosing)
    (now : Timestamp) (db : ConversionDatabase) :
    Except RegistryError (ConversionLease × ConversionDatabase) := do
  let current ← db.getLease id
  leaseScope current input.workspaceId input.workerId
  require (current.status = .active)
    (.conflict "CONVERSION_LEASE_NOT_ACTIVE" "Only ACTIVE lease may be closed")
  let attempt ← db.getAttempt current.conversionAttemptId
  require (attempt.status = .claimed ∧ attempt.startedAt = none)
    (.conflict "CONVERSION_ATTEMPT_ALREADY_STARTED"
      "Started conversion attempts cannot return the run to pre-start availability")
  let nextLease := closing.closedLease current now
  let nextAttempt := closing.endedAttempt attempt input.reconciliationCode now
  require (isConversionLease nextLease = true ∧ isConversionAttempt nextAttempt = true)
    (.validation "Pre-start lease reconciliation violates protocol")
  pure (nextLease, updateAttempt (updateLease db nextLease) nextAttempt)

def releaseBeforeStart (id : Id) (input : CloseConversionLeaseInput) :
    Timestamp → ConversionDatabase → Except RegistryError (ConversionLease × ConversionDatabase) :=
  closeBeforeStart id input .released

def expireBeforeStart (id : Id) (input : CloseConversionLeaseInput) :
    Timestamp → ConversionDatabase → Except RegistryError (ConversionLease × ConversionDatabase) :=
  closeBeforeStart id input .expired

end MarkorbitKnowledge.Conversion
