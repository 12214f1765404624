import MarkorbitKnowledge.Execution.Ledger
import Mathlib.Data.Prod.Lex
import Mathlib.Order.Lattice

/-!
# The worker registry and its leases

`worker-registry.ts` behind the facade of `safe-worker-registry.ts`: creating, updating and
authenticating workers, their heartbeats, and the lease protocol.  A claim first reaps the expired
leases and then moves one pending job to LEASED and inserts an ACTIVE lease for it; renewing,
releasing, expiring and revoking act on the lease, and `returnJobToPending` gives the job back only
while it is still LEASED, so that a lease which ends during an execution leaves the job alone.
-/

namespace MarkorbitKnowledge.Execution

open Contracts Fallible

/-- The options of the registry, within the bounds its constructor enforces. -/
structure WorkerProtocolOptions where
  heartbeatFreshnessMs : Nat
  heartbeatClockSkewMs : Nat
  leaseDurationMs : Nat
  maxLeaseLifetimeMs : Nat
  maxConcurrentWebLeasesPerDomain : Nat
  bounded : ∀ ms ∈ [heartbeatFreshnessMs, heartbeatClockSkewMs, leaseDurationMs, maxLeaseLifetimeMs],
    1000 ≤ ms ∧ ms ≤ 86400000
  concurrencyBounded : 1 ≤ maxConcurrentWebLeasesPerDomain ∧ maxConcurrentWebLeasesPerDomain ≤ 32
  lifetimeBounded : leaseDurationMs ≤ maxLeaseLifetimeMs

def WorkerProtocolOptions.default : WorkerProtocolOptions where
  heartbeatFreshnessMs := 90000
  heartbeatClockSkewMs := 300000
  leaseDurationMs := 120000
  maxLeaseLifetimeMs := 900000
  maxConcurrentWebLeasesPerDomain := 1
  bounded := by decide
  concurrencyBounded := by decide
  lifetimeBounded := by decide

def HEARTBEAT_HISTORY_LIMIT : Nat := 100

/-! ### Reading documents -/

def parseWorker (worker : WorkerDefinition) : Except RegistryError WorkerDefinition := do
  require (isWorkerDefinition worker = true)
    (.validation "Persisted WorkerDefinition no longer satisfies Worker Protocol v1")
  pure worker

def parseHeartbeat (heartbeat : WorkerHeartbeat) : Except RegistryError WorkerHeartbeat := do
  require (isWorkerHeartbeat heartbeat = true)
    (.validation "Persisted WorkerHeartbeat no longer satisfies Worker Protocol v1")
  pure heartbeat

def parseLease (row : LeaseRow) : Except RegistryError LeaseRow := do
  require (isJobLease row.lease = true)
    (.validation "Persisted JobLease no longer satisfies Worker Protocol v1")
  pure row

@[simp] theorem parseLease_eq_ok {row row' : LeaseRow} :
    parseLease row = .ok row' ↔ isJobLease row.lease = true ∧ row = row' := by
  simp [parseLease]

/-! ### Workers -/

structure CreateWorkerInput where
  workspaceId : Option Id
  displayName : String
  desiredState : Option WorkerDesiredState
  runtime : WorkerRuntime
  supportedJobTypes : List JobType
  connectorBindings : List WorkerConnectorBinding
  maxConcurrency : Nat
  labels : Option (List String)
  extensions : Option Extensions

/-- A field that is `none` is left as it is; `extensions` can also be removed. -/
structure UpdateWorkerInput where
  displayName : Option String
  desiredState : Option WorkerDesiredState
  runtime : Option WorkerRuntime
  supportedJobTypes : Option (List JobType)
  connectorBindings : Option (List WorkerConnectorBinding)
  maxConcurrency : Option Nat
  labels : Option (List String)
  extensions : Option (Option Extensions)

def lowerCase (s : String) : String := String.ofList (s.toList.map Char.toLower)

def normalizeRuntime (runtime : WorkerRuntime) : WorkerRuntime where
  runtimeId := lowerCase (trim runtime.runtimeId)
  version := trim runtime.version

def normalizeBinding (binding : WorkerConnectorBinding) : WorkerConnectorBinding where
  connectorId := lowerCase (trim binding.connectorId)
  version := trim binding.version
  capabilities := binding.capabilities.eraseDups

def normalizeLabels (labels : List String) : List String :=
  ((labels.map trim).filter (· ≠ "")).eraseDups

def normalizeWorkerInput (input : CreateWorkerInput) (defaultWorkspaceId : Id) (id : Id)
    (timestamp : Timestamp) : Except RegistryError WorkerDefinition := do
  let worker : WorkerDefinition :=
    { id
      workspaceId := input.workspaceId.getD defaultWorkspaceId
      displayName := trim input.displayName
      desiredState := input.desiredState.getD .active
      runtime := normalizeRuntime input.runtime
      supportedJobTypes := input.supportedJobTypes.eraseDups
      connectorBindings := input.connectorBindings.map normalizeBinding
      maxConcurrency := input.maxConcurrency
      labels := normalizeLabels (input.labels.getD [])
      createdAt := timestamp
      updatedAt := timestamp
      extensions := input.extensions }
  require (isWorkerDefinition worker = true)
    (.validation "Worker input does not satisfy Worker Protocol v1")
  pure worker

def applyWorkerUpdate (current : WorkerDefinition) (input : UpdateWorkerInput)
    (timestamp : Timestamp) : Except RegistryError WorkerDefinition := do
  let next : WorkerDefinition :=
    { current with
      displayName := (input.displayName.map trim).getD current.displayName
      desiredState := input.desiredState.getD current.desiredState
      runtime := (input.runtime.map normalizeRuntime).getD current.runtime
      supportedJobTypes :=
        (input.supportedJobTypes.map List.eraseDups).getD current.supportedJobTypes
      connectorBindings :=
        (input.connectorBindings.map (·.map normalizeBinding)).getD current.connectorBindings
      maxConcurrency := input.maxConcurrency.getD current.maxConcurrency
      labels := (input.labels.map normalizeLabels).getD current.labels
      extensions := input.extensions.getD current.extensions
      updatedAt := timestamp }
  require (isWorkerDefinition next = true)
    (.validation "Worker update does not satisfy Worker Protocol v1")
  pure next

def requiredCapabilities (job : Job) : List ConnectorCapability :=
  [.collect] ++
    (if job.planSnapshot.policy.renderJavascript then [.renderJavascript] else []) ++
    (if job.planSnapshot.policy.fetchAttachments then [.fetchAttachments] else []) ++
    (if job.planSnapshot.schedule.mode = .changeWatch then
      (if .checkUpdate ∈ job.connectorSnapshot.capabilities then [.checkUpdate] else [.watch])
    else [])

def workerCanRun (worker : WorkerDefinition) (job : Job) : Bool :=
  worker.supportedJobTypes.contains job.jobType &&
    match worker.connectorBindings.find? fun candidate =>
      decide (candidate.connectorId = job.connector.connectorId) &&
        decide (candidate.version = job.connector.version) with
    | some binding => (requiredCapabilities job).all binding.capabilities.contains
    | none => false

/-- The checks of one binding against its registered connector. -/
def validateBinding (db : Database) (binding : WorkerConnectorBinding) :
    Except RegistryError (List JobType) := do
  let identity := binding.connectorId ++ "@" ++ binding.version
  let connector ← orThrow
    (db.connectors.find? fun connector =>
      decide (connector.connectorId = binding.connectorId) &&
        decide (connector.version = binding.version))
    (.conflict "WORKER_CONNECTOR_NOT_FOUND" ("Connector " ++ identity ++ " is not registered"))
  require (connector.status ≠ .disabled)
    (.conflict "WORKER_CONNECTOR_DISABLED" ("Connector " ++ identity ++ " is disabled"))
  require (∀ capability ∈ binding.capabilities, capability ∈ connector.capabilities)
    (.conflict "WORKER_CAPABILITY_MISMATCH"
      ("Worker declares capabilities not present in " ++ identity))
  pure connector.supportedJobTypes

def validateWorkerBindings (db : Database) (worker : WorkerDefinition) :
    Except RegistryError Unit := do
  let jobTypes ← worker.connectorBindings.mapM (validateBinding db)
  require (∀ jobType ∈ worker.supportedJobTypes, jobType ∈ jobTypes.flatten)
    (.conflict "WORKER_JOB_TYPE_MISMATCH"
      "Worker declares JobTypes unsupported by its exact Connector bindings")

def create (platform : Platform) (input : CreateWorkerInput) (defaultWorkspaceId : Id)
    (now : Timestamp) (workerId : Id) (credential : String) (db : Database) :
    Except RegistryError (WorkerDefinition × Database) := do
  let worker ← normalizeWorkerInput input defaultWorkspaceId workerId now
  validateWorkerBindings db worker
  require (∀ stored ∈ db.workers, stored.id ≠ worker.id) (.uniqueConstraint "worker_definitions.id")
  pure (worker,
    { db with
      workers := db.workers ++ [worker]
      credentials := db.credentials ++
        [{ workerId, credentialDigest := platform.digestHex credential, rotatedAt := now }] })

def rotateCredential (platform : Platform) (id : Id) (now : Timestamp) (credential : String)
    (db : Database) : Except RegistryError (Unit × Database) := do
  let _ ← orThrow (Tables.find? db.workers id) (.workerNotFound id)
  pure ((),
    { db with
      credentials := db.credentials.map fun row =>
        if row.workerId = id then
          { row with credentialDigest := platform.digestHex credential, rotatedAt := now }
        else row })

def verifyCredential (platform : Platform) (db : Database) (workerId : Id) (credential : String) :
    Except RegistryError WorkerDefinition := do
  let unauthenticated := RegistryError.workerAuthentication "Worker credential is missing or invalid"
  require (credential ≠ "" ∧ jsLength credential ≤ 256) unauthenticated
  let worker ← orThrow (Tables.find? db.workers workerId) unauthenticated
  let row ← orThrow (db.credentials.find? fun row => decide (row.workerId = workerId))
    unauthenticated
  require (platform.verifyDigest credential row.credentialDigest = true) unauthenticated
  let worker ← parseWorker worker
  require (worker.desiredState ≠ .disabled) (.registry "WORKER_DISABLED" "Worker is disabled")
  pure worker

/-! ### Leases -/

def activeLeases (db : Database) (workerId : Id) : List LeaseRow :=
  (db.leases.filter fun row => decide (row.lease.workerId = workerId) &&
    decide (row.lease.status = .active)).insertionSort fun left right =>
      toLex (left.lease.acquiredAt, left.lease.id) ≤ toLex (right.lease.acquiredAt, right.lease.id)

/-- `ORDER BY received_at DESC, id DESC`. -/
def newestHeartbeatsFirst (heartbeats : List WorkerHeartbeat) : List WorkerHeartbeat :=
  heartbeats.insertionSort fun left right =>
    toLex (right.receivedAt, right.id) ≤ toLex (left.receivedAt, left.id)

def latestHeartbeat (db : Database) (workerId : Id) :
    Except RegistryError (Option WorkerHeartbeat) :=
  ((newestHeartbeatsFirst (db.heartbeats.filter fun heartbeat =>
    decide (heartbeat.workerId = workerId))).head?).mapM parseHeartbeat

/-- The effective status of a worker, at the clock reading `now` of the call. -/
def effectiveStatus (options : WorkerProtocolOptions) (worker : WorkerDefinition)
    (heartbeat : Option WorkerHeartbeat) (activeLeaseCount : Nat) (now : Timestamp) :
    WorkerStatus :=
  if worker.desiredState = .disabled then .disabled
  else if worker.desiredState = .draining then .draining
  else
    match heartbeat with
    | none => .offline
    | some heartbeat =>
      if now - heartbeat.receivedAt > options.heartbeatFreshnessMs then .offline
      else if heartbeat.health = .error then .error
      else if worker.maxConcurrency ≤ activeLeaseCount then .busy
      else .online

/-- What `viewForWorker` computes: the effective status and the number of active leases. -/
def viewForWorker (options : WorkerProtocolOptions) (db : Database) (worker : WorkerDefinition)
    (now : Timestamp) : Except RegistryError (WorkerStatus × Nat) := do
  let heartbeat ← latestHeartbeat db worker.id
  let leases ← (activeLeases db worker.id).mapM parseLease
  pure (effectiveStatus options worker heartbeat leases.length now, leases.length)

def jobWithStatus (job : Job) (status : JobStatus) (timestamp : Timestamp) :
    Except RegistryError Job := do
  let next := { job with status, updatedAt := timestamp }
  require (isJob next = true)
    (.validation "Job transition does not satisfy Execution Contract v1")
  pure next

/-- `updateLeaseDocument`: the row keeps its token digest. -/
def updateLeaseDocument (db : Database) (row : LeaseRow) (lease : JobLease) : Database :=
  { db with leases := Tables.update db.leases { row with lease } }

def closedLease (lease : JobLease) (status : JobLeaseStatus) (timestamp : Timestamp)
    (reason : String) : JobLease :=
  { lease with
    status, updatedAt := timestamp, closedAt := some timestamp, closeReason := some reason }

def closeLease (db : Database) (row : LeaseRow) (status : JobLeaseStatus) (timestamp : Timestamp)
    (reason : String) : Except RegistryError Database := do
  let next := closedLease row.lease status timestamp (sliceText reason 500)
  require (isJobLease next = true)
    (.validation "Closed lease does not satisfy Worker Protocol v1")
  pure (updateLeaseDocument db row next)

def returnJobToPending (db : Database) (jobId : Id) (timestamp : Timestamp) :
    Except RegistryError Database :=
  match Tables.find? db.jobs jobId with
  | none => pure db
  | some row => do
    let job ← parseJob row
    if job.status = .leased then
      let pending ← jobWithStatus job .pending timestamp
      pure { db with jobs := Tables.update db.jobs pending }
    else
      -- A lease that ends after its execution started does not touch the job.
      pure db

/-- Close a lease and give its job back: how a release, an expiry and a revocation end a lease. -/
def endLease (db : Database) (row : LeaseRow) (status : JobLeaseStatus) (timestamp : Timestamp)
    (reason : String) : Except RegistryError Database := do
  let db ← closeLease db row status timestamp reason
  returnJobToPending db row.lease.jobId timestamp

def expireLeaseInTransaction (timestamp : Timestamp) (db : Database) (row : LeaseRow) :
    Except RegistryError Database :=
  endLease db row .expired timestamp "Lease expired"

/-- The active leases whose expiry is not after `timestamp`, oldest expiry first. -/
def expiredLeases (db : Database) (timestamp : Timestamp) : List LeaseRow :=
  (db.leases.filter fun row => decide (row.lease.status = .active) &&
    decide (row.lease.expiresAt ≤ timestamp)).insertionSort fun left right =>
      toLex (left.lease.expiresAt, left.lease.id) ≤ toLex (right.lease.expiresAt, right.lease.id)

def reapExpiredInTransaction (db : Database) (timestamp : Timestamp) :
    Except RegistryError (Nat × Database) := do
  let expired ← (expiredLeases db timestamp).mapM parseLease
  let db ← expired.foldlM (expireLeaseInTransaction timestamp) db
  pure (expired.length, db)

def revokeActiveLeasesForWorker (db : Database) (workerId : Id) (timestamp : Timestamp)
    (reason : String) : Except RegistryError Database := do
  let leases ← (activeLeases db workerId).mapM parseLease
  leases.foldlM (fun db row => endLease db row .revoked timestamp reason) db

def requireOwnedActiveLease (platform : Platform) (db : Database) (workerId leaseId : Id)
    (leaseToken : String) : Except RegistryError LeaseRow := do
  let row ← orThrow (Tables.find? db.leases leaseId) (.leaseNotFound leaseId)
  let row ← parseLease row
  require (row.lease.workerId = workerId)
    (.registry "WORKER_LEASE_OWNERSHIP" "Lease belongs to another Worker")
  require (leaseToken ≠ "" ∧ platform.verifyDigest leaseToken row.tokenDigest = true)
    (.workerAuthentication "Lease token is missing or invalid")
  require (row.lease.status = .active)
    (.conflict "LEASE_NOT_ACTIVE"
      ("Lease is " ++ row.lease.status.text ++ " and cannot be changed"))
  pure row

/-! ### Web domains -/

def webDomainKey (platform : Platform) (job : Job) : Option String :=
  if job.sourceSnapshot.sourceType ≠ .web then none
  else
    (job.sourceSnapshot.canonicalUri.toList ++ job.sourceSnapshot.entrypoints).findSome?
      fun locator =>
        match platform.parseUrl locator with
        | some (protocol, hostname) =>
          if protocol = "http:" ∨ protocol = "https:" then
            let hostname := lowerCase hostname
            match hostname.toList with
            | 'w' :: 'w' :: 'w' :: '.' :: rest => some (String.ofList rest)
            | _ => some hostname
          else none
        | none => none

/-- The domain a job is governed under: the checks of the source take an empty key for no key. -/
def governedDomain (platform : Platform) (job : Job) : Option String :=
  (webDomainKey platform job).filter (· ≠ "")

/-- One lease that counts against its domain: whether it is active, whether it is recent, and the
    rate limit of its job's plan. -/
structure WebDomainLease where
  domain : String
  active : Bool
  recent : Bool
  rateLimit : Nat

/-- The leases that are active or were acquired in the last minute, by the domain of their job. -/
def webDomainLeaseState (platform : Platform) (db : Database) (now : Timestamp) :
    Except RegistryError (List WebDomainLease) := do
  let windowStart := now - 60000
  let rows := db.leases.filter fun row =>
    decide (row.lease.status = .active) || decide (windowStart ≤ row.lease.acquiredAt)
  let leased ← (rows.filterMap fun row =>
      (Tables.find? db.jobs row.lease.jobId).map fun job => (row, job)).mapM fun (row, job) => do
    let job ← parseJob job
    pure (row, job)
  pure (leased.filterMap fun (row, job) =>
    (governedDomain platform job).map fun domain =>
      { domain
        active := row.lease.status = .active
        recent := windowStart ≤ row.lease.acquiredAt
        rateLimit := job.planSnapshot.policy.rateLimitPerMinute })

def webDomainQuotaAllows (platform : Platform) (options : WorkerProtocolOptions) (job : Job)
    (state : List WebDomainLease) : Bool :=
  match governedDomain platform job with
  | none => true
  | some domain =>
    let current := state.filter fun lease => decide (lease.domain = domain)
    if current.isEmpty then true
    else
      let effectiveRateLimit :=
        current.foldl (fun limit lease => min limit lease.rateLimit)
          job.planSnapshot.policy.rateLimitPerMinute
      decide (current.countP (·.active) < options.maxConcurrentWebLeasesPerDomain) &&
        decide (current.countP (·.recent) < effectiveRateLimit)

/-! ### Claiming -/

/-- The generated values of a claim: its clock readings, the lease id and the lease token.  The
    second reading is the one `effectiveStatus` takes. -/
structure ClaimInputs where
  now : Timestamp
  statusNow : Timestamp
  leaseId : Id
  leaseToken : String

structure ClaimResult where
  job : Option Job
  lease : Option JobLease
  leaseToken : Option String

def priorityRank : CollectionPriority → Nat
  | .critical => 1
  | .high => 2
  | .normal => 3
  | .low => 4

/-- The sort key of the claim query: priority, availability, creation, id. -/
def claimKey (job : Job) : Nat ×ₗ Timestamp ×ₗ Timestamp ×ₗ Id :=
  toLex (priorityRank job.priority,
    toLex (job.availableAt, toLex (job.createdAt, job.id)))

def claimCandidates (db : Database) (timestamp : Timestamp) : List Job :=
  ((db.jobs.filter fun job => decide (job.status = .pending) &&
    decide (job.availableAt ≤ timestamp)).insertionSort fun left right =>
      claimKey left ≤ claimKey right).take 250

def newLease (options : WorkerProtocolOptions) (worker : WorkerDefinition) (job : Job)
    (inputs : ClaimInputs) : JobLease where
  id := inputs.leaseId
  workspaceId := job.workspaceId
  workerId := worker.id
  jobId := job.id
  runId := job.runId
  jobType := job.jobType
  connector := job.connector
  status := .active
  acquiredAt := inputs.now
  expiresAt := inputs.now + options.leaseDurationMs
  updatedAt := inputs.now
  closedAt := none
  closeReason := none

/-- `INSERT INTO job_leases`: a primary key, and one ACTIVE lease per job. -/
def insertLease (db : Database) (row : LeaseRow) : Except RegistryError Database := do
  require (∀ stored ∈ db.leases, stored.lease.id ≠ row.lease.id) (.uniqueConstraint "job_leases.id")
  require (∀ stored ∈ db.leases, stored.lease.status = .active → row.lease.status = .active →
      stored.lease.jobId ≠ row.lease.jobId)
    (.uniqueConstraint "job_leases.job_id")
  pure { db with leases := db.leases ++ [row] }

def claimJobInTransaction (platform : Platform) (options : WorkerProtocolOptions) (db : Database)
    (worker : WorkerDefinition) (job : Job) (inputs : ClaimInputs) :
    Except RegistryError (ClaimResult × Database) := do
  let lease := newLease options worker job inputs
  require (isJobLease lease = true) (.validation "Lease does not satisfy Worker Protocol v1")
  let leasedJob ← jobWithStatus job .leased inputs.now
  require (∃ stored ∈ db.jobs, stored.id = job.id ∧ stored.status = .pending)
    (.conflict "JOB_CLAIM_CONFLICT" "Job was claimed by another Worker")
  let db := { db with jobs := Tables.update db.jobs leasedJob }
  let db ← insertLease db { lease, tokenDigest := platform.digestHex inputs.leaseToken }
  pure ({ job := some leasedJob, lease := some lease, leaseToken := some inputs.leaseToken }, db)

/-- The part `claim` and `claimSpecific` share: authenticate, reap, and check that the worker is
    active, fresh, healthy and below its capacity. -/
def beginClaim (platform : Platform) (options : WorkerProtocolOptions) (workerId : Id)
    (credential : String) (inputs : ClaimInputs) (db : Database) :
    Except RegistryError (WorkerDefinition × Database) := do
  let _ ← verifyCredential platform db workerId credential
  let (_, db) ← reapExpiredInTransaction db inputs.now
  let worker ← orThrow (Tables.find? db.workers workerId) (.workerNotFound workerId)
  let worker ← parseWorker worker
  require (worker.desiredState = .active)
    (.registry "WORKER_NOT_ACTIVE" "Only an ACTIVE Worker may claim work")
  let (status, activeLeaseCount) ← viewForWorker options db worker inputs.statusNow
  require (status ≠ .offline)
    (.conflict "WORKER_HEARTBEAT_STALE" "A fresh heartbeat is required before claiming work")
  require (status ≠ .error)
    (.conflict "WORKER_HEALTH_ERROR" "A Worker reporting ERROR health cannot claim work")
  require (activeLeaseCount < worker.maxConcurrency)
    (.conflict "WORKER_AT_CAPACITY" "Worker has reached maxConcurrency")
  pure (worker, db)

def claim (platform : Platform) (options : WorkerProtocolOptions) (workerId : Id)
    (credential : String) (inputs : ClaimInputs) (db : Database) :
    Except RegistryError (ClaimResult × Database) := do
  let (worker, db) ← beginClaim platform options workerId credential inputs db
  let candidates ← (claimCandidates db inputs.now).mapM parseJob
  let state ← webDomainLeaseState platform db inputs.now
  match candidates.find? fun candidate => decide (candidate.workspaceId = worker.workspaceId) &&
      workerCanRun worker candidate && webDomainQuotaAllows platform options candidate state with
  | none => pure ({ job := none, lease := none, leaseToken := none }, db)
  | some job => claimJobInTransaction platform options db worker job inputs

def claimSpecific (platform : Platform) (options : WorkerProtocolOptions) (workerId : Id)
    (credential : String) (jobId : Id) (inputs : ClaimInputs) (db : Database) :
    Except RegistryError (ClaimResult × Database) := do
  let (worker, db) ← beginClaim platform options workerId credential inputs db
  let row ← orThrow (Tables.find? db.jobs jobId)
    (.conflict "JOB_NOT_FOUND" ("Target Job " ++ idText "job" jobId ++ " was not found"))
  let job ← parseJob row
  require (job.status = .pending ∧ job.availableAt ≤ inputs.now)
    (.conflict "JOB_NOT_CLAIMABLE" "Target Job is not pending and available for claim")
  require (job.workspaceId = worker.workspaceId ∧ workerCanRun worker job = true)
    (.conflict "WORKER_JOB_INCOMPATIBLE" "Target Worker cannot execute the requested Job")
  let state ← webDomainLeaseState platform db inputs.now
  require (webDomainQuotaAllows platform options job state = true)
    (.conflict "WEB_DOMAIN_CLAIM_QUOTA_EXCEEDED"
      ("Target Job is temporarily blocked by the governed web-domain concurrency or " ++
        "rolling rate limit"))
  claimJobInTransaction platform options db worker job inputs

/-! ### Renewing, releasing, reaping -/

def leaseExpired : RegistryError := .conflict "LEASE_EXPIRED" "Lease has expired"

def leaseMaxLifetimeReached : RegistryError :=
  .conflict "LEASE_MAX_LIFETIME_REACHED" "Lease reached its maximum lifetime"

/-- Expire the lease and throw; the throw rolls the expiry back with the rest of the transaction. -/
def throwExpired (now : Timestamp) (db : Database) (row : LeaseRow) (error : RegistryError) :
    Except RegistryError Unit := do
  let _ ← expireLeaseInTransaction now db row
  .error error

@[simp] theorem throwExpired_ne_ok {now : Timestamp} {db : Database} {row : LeaseRow}
    {error : RegistryError} {u : Unit} : throwExpired now db row error = .ok u ↔ False := by
  simp [throwExpired]

/-- `renewLease` of the inner registry. -/
def renewLeaseInner (platform : Platform) (options : WorkerProtocolOptions) (workerId : Id)
    (credential : String) (leaseId : Id) (leaseToken : String) (now : Timestamp) (db : Database) :
    Except RegistryError (JobLease × Database) := do
  let _ ← verifyCredential platform db workerId credential
  let row ← requireOwnedActiveLease platform db workerId leaseId leaseToken
  if row.lease.expiresAt ≤ now then throwExpired now db row leaseExpired
  let hardLimit := row.lease.acquiredAt + options.maxLeaseLifetimeMs
  let expiresAt := min (now + options.leaseDurationMs) hardLimit
  if expiresAt ≤ now then throwExpired now db row leaseMaxLifetimeReached
  let next := { row.lease with expiresAt, updatedAt := now }
  pure (next, updateLeaseDocument db row next)

def releaseLease (platform : Platform) (workerId : Id) (credential : String) (leaseId : Id)
    (leaseToken : String) (reason : Option String) (now : Timestamp) (db : Database) :
    Except RegistryError (Unit × Database) := do
  let _ ← verifyCredential platform db workerId credential
  let row ← requireOwnedActiveLease platform db workerId leaseId leaseToken
  let db ← endLease db row .released now (reason.getD "Released by Worker")
  pure ((), db)

def reapExpired (now : Timestamp) (db : Database) : Except RegistryError (Nat × Database) :=
  reapExpiredInTransaction db now

/-- `renewLease` of the public facade: an expiry the inner call reports is made durable by a reap,
    at its own clock reading, before the error goes to the caller. -/
def renewLease (platform : Platform) (options : WorkerProtocolOptions) (workerId : Id)
    (credential : String) (leaseId : Id) (leaseToken : String) (now reapNow : Timestamp)
    (db : Database) : Except RegistryError JobLease × Database :=
  match renewLeaseInner platform options workerId credential leaseId leaseToken now db with
  | .ok (lease, db') => (.ok lease, db')
  | .error error =>
    if error = leaseExpired ∨ error = leaseMaxLifetimeReached then
      match reapExpired reapNow db with
      | .ok (_, db') => (.error error, db')
      | .error reapError => (.error reapError, db)
    else (.error error, db)

/-! ### Updating a worker, heartbeats -/

def update (id : Id) (input : UpdateWorkerInput) (expectedUpdatedAt : Timestamp) (now : Timestamp)
    (db : Database) : Except RegistryError (WorkerDefinition × Database) := do
  let conflict := RegistryError.conflict "WORKER_VERSION_CONFLICT"
    "The Worker changed after it was loaded. Refresh before saving."
  let row ← orThrow (Tables.find? db.workers id) (.workerNotFound id)
  let current ← parseWorker row
  require (current.updatedAt = expectedUpdatedAt) conflict
  let next ← applyWorkerUpdate current input now
  validateWorkerBindings db next
  let db := { db with workers := Tables.update db.workers next }
  let db ←
    if next.desiredState = .disabled then
      revokeActiveLeasesForWorker db id now "Worker disabled by administrator"
    else pure db
  pure (next, db)

structure HeartbeatInput where
  workerId : Id
  observedAt : Timestamp
  runtimeVersion : String
  health : WorkerHealthState
  activeLeaseIds : Option (List Id)
  diagnostics : Option Extensions

def assertHeartbeatLease (db : Database) (workerId leaseId : Id) : Except RegistryError Unit := do
  let unknown := RegistryError.conflict "WORKER_HEARTBEAT_UNKNOWN_LEASE"
    ("Heartbeat references unknown or inactive lease " ++ idText "lse" leaseId)
  let row ← orThrow (Tables.find? db.leases leaseId) unknown
  let row ← parseLease row
  require (row.lease.status = .active) unknown
  require (row.lease.workerId = workerId)
    (.registry "WORKER_LEASE_OWNERSHIP"
      ("Lease " ++ idText "lse" leaseId ++ " belongs to another Worker"))

def heartbeat (platform : Platform) (options : WorkerProtocolOptions) (input : HeartbeatInput)
    (credential : String) (now : Timestamp) (heartbeatId : Id) (db : Database) :
    Except RegistryError (WorkerHeartbeat × Database) := do
  let worker ← verifyCredential platform db input.workerId credential
  require ((now - input.observedAt).natAbs ≤ options.heartbeatClockSkewMs)
    (.conflict "WORKER_CLOCK_SKEW" "Worker observedAt exceeds the permitted clock-skew threshold")
  let activeLeaseIds := (input.activeLeaseIds.getD []).eraseDups
  let _ ← activeLeaseIds.mapM (assertHeartbeatLease db worker.id)
  let heartbeat : WorkerHeartbeat :=
    { id := heartbeatId
      workerId := worker.id
      workspaceId := worker.workspaceId
      observedAt := input.observedAt
      receivedAt := now
      runtimeVersion := trim input.runtimeVersion
      health := input.health
      activeLeaseIds
      diagnostics := input.diagnostics }
  require (isWorkerHeartbeat heartbeat = true)
    (.validation "Heartbeat does not satisfy Worker Protocol v1")
  require (∀ stored ∈ db.heartbeats, stored.id ≠ heartbeat.id)
    (.uniqueConstraint "worker_heartbeats.id")
  let heartbeats := db.heartbeats ++ [heartbeat]
  let kept := (newestHeartbeatsFirst (heartbeats.filter fun stored =>
    decide (stored.workerId = worker.id))).take HEARTBEAT_HISTORY_LIMIT
  pure (heartbeat,
    { db with
      heartbeats := heartbeats.filter fun stored =>
        decide (stored.workerId ≠ worker.id) || kept.any fun k => decide (k.id = stored.id) })

end MarkorbitKnowledge.Execution
