import MarkorbitKnowledge.Execution.Refinement
import MarkorbitKnowledge.Execution.TransitionRefinement
import MarkorbitKnowledge.Scheduler.Examination

/-!
# Every call on the execution database

The calls that read or write runs, jobs, leases and attempts, as the steps of one machine on the
database: dispatches by hand and by the scheduler, cancellation, the worker registry, the execution
transitions and their reconciliation, and the edits of plans, sources and connectors in between.
Clock readings and generated ids come with the call, so a run of the machine is a run of the system
at any clock and in any order.

`coherent_run` carries the execution protocol to every state, `run_jobs_agree` and
`job_executed_at_most_once` say what that means for the stored documents.
-/

namespace MarkorbitKnowledge.Execution

open Contracts Fallible Transitions
open Protocol (Move Coherent coherent_of_steps)

/-! ### The catalogue -/

/-- `validateCompatibility` of the plan registry: what the connector has to offer for a plan, and what
    has to be active for an active one.  The budgets of the Crawl4AI runtime are on fields that are
    left out; they only refuse more. -/
def validateCompatibility (plan : CollectionPlan) (source : SourceDefinition)
    (connector : ConnectorManifest) : Except RegistryError Unit := do
  require (source.sourceType ∈ connector.sourceTypes)
    (.conflict "COLLECTION_PLAN_SOURCE_TYPE_MISMATCH"
      ("Connector " ++ connector.connectorId ++ "@" ++ connector.version ++ " does not support " ++
        source.sourceType.text))
  require (∀ kind ∈ plan.artifactKinds, kind ∈ connector.outputArtifactKinds)
    (.conflict "COLLECTION_PLAN_OUTPUT_MISMATCH"
      "Collection plan requests unsupported output artifact kinds")
  require (plan.policy.renderJavascript = true → .renderJavascript ∈ connector.capabilities)
    (.conflict "COLLECTION_PLAN_CAPABILITY_MISMATCH"
      "The bound connector does not support JavaScript rendering")
  require (plan.policy.fetchAttachments = true → .fetchAttachments ∈ connector.capabilities)
    (.conflict "COLLECTION_PLAN_CAPABILITY_MISMATCH"
      "The bound connector does not support attachment fetching")
  require (plan.schedule.mode = .changeWatch →
      .checkUpdate ∈ connector.capabilities ∨ .watch ∈ connector.capabilities)
    (.conflict "COLLECTION_PLAN_CHANGE_WATCH_UNSUPPORTED"
      "The bound connector does not support update checks or watch mode")
  require (plan.status = .active → source.status = .active)
    (.conflict "COLLECTION_PLAN_SOURCE_INACTIVE"
      "An active collection plan requires an active source")
  require (plan.status = .active → connector.status = .active)
    (.conflict "COLLECTION_PLAN_CONNECTOR_INACTIVE"
      "An active collection plan requires an active connector version")
  require (plan.status = .active → .collect ∈ connector.capabilities)
    (.conflict "COLLECTION_PLAN_CAPABILITY_MISMATCH"
      "An active collection plan requires a connector with COLLECT capability")

def connectorMissing (connectorId version : String) : RegistryError :=
  .conflict "COLLECTION_PLAN_CONNECTOR_MISSING"
    ("Connector " ++ connectorId ++ "@" ++ version ++ " is not registered")

/-- `create` of the plan registry. -/
def createPlan (plan : CollectionPlan) (db : Database) : Except RegistryError (Unit × Database) := do
  let source ← loadSource db plan.sourceId
  let connector ← loadConnector db source connectorMissing
  require (isCollectionPlan plan = true)
    (.validation "Collection plan input does not satisfy Schema v1")
  require (plan.workspaceId = source.workspaceId)
    (.validation "Collection plan Workspace must match its source Workspace")
  validateCompatibility plan source connector
  pure ((), { db with plans := db.plans ++ [plan] })

/-- `update` and `updateStatus`, called with the version that is stored, which every other call
    conflicts with.  An archived plan can only be archived again. -/
def updatePlan (stored plan : CollectionPlan) (db : Database) :
    Except RegistryError (Unit × Database) := do
  let row ← orThrow (db.sources.find? fun source => decide (source.id = stored.sourceId))
    (.collectionPlanNotFound plan.id)
  let current ← parsePlan stored
  let source ← parseSource row
  let connector ← loadConnector db source connectorMissing
  require (current.status = .archived → plan = { current with updatedAt := plan.updatedAt })
    (.conflict "COLLECTION_PLAN_ARCHIVED" "Archived collection plans are immutable")
  require (isCollectionPlan plan = true ∧ plan.workspaceId = current.workspaceId ∧
      plan.sourceId = current.sourceId ∧ plan.createdAt = current.createdAt)
    (.validation "Collection plan update does not satisfy Schema v1")
  validateCompatibility plan source connector
  pure ((), { db with plans := Tables.update db.plans plan })

/-- A call of the plan registry that stores a plan. -/
def savePlan (plan : CollectionPlan) (db : Database) : Except RegistryError (Unit × Database) :=
  match Tables.find? db.plans plan.id with
  | none => createPlan plan db
  | some stored => updatePlan stored plan db

/-- What a stored plan has gone through, and where it is stored. -/
theorem savePlan_spec {plan : CollectionPlan} {db : Database} {result : Unit × Database}
    (h : savePlan plan db = .ok result) :
    isCollectionPlan plan = true ∧
      (Tables.find? db.plans plan.id = none ∧
          result.2 = { db with plans := db.plans ++ [plan] } ∨
        ∃ current, Tables.find? db.plans plan.id = some current ∧
          plan.workspaceId = current.workspaceId ∧ plan.sourceId = current.sourceId ∧
          result.2 = { db with plans := Tables.update db.plans plan }) := by
  rw [savePlan] at h
  cases hfound : Tables.find? db.plans plan.id with
  | none =>
    rw [hfound] at h
    simp only [createPlan, bind_eq_ok, require_eq_ok, pure_eq_ok] at h
    obtain ⟨_, -, _, -, _, hplan, _, -, _, -, rfl⟩ := h
    exact ⟨hplan, Or.inl ⟨rfl, rfl⟩⟩
  | some stored =>
    rw [hfound] at h
    simp only [updatePlan, bind_eq_ok, require_eq_ok, pure_eq_ok, parsePlan_eq_ok] at h
    obtain ⟨_, -, _, ⟨-, rfl⟩, _, -, _, -, _, -, _, ⟨hplan, hworkspace, hsource, -⟩, _, -, rfl⟩ := h
    exact ⟨hplan, Or.inr ⟨_, rfl, hworkspace, hsource, rfl⟩⟩

/-- The source and connector registries, as far as the ledger reads them: any documents. -/
def saveCatalogue (sources : List SourceDefinition) (connectors : List ConnectorManifest)
    (db : Database) : Except RegistryError (Unit × Database) :=
  pure ((), { db with sources, connectors })

/-! ### The machine -/

inductive Op where
  | savePlan (plan : CollectionPlan)
  | saveCatalogue (sources : List SourceDefinition) (connectors : List ConnectorManifest)
  | dispatchManual (input : ManualDispatchInput) (now : Timestamp) (runId jobId : Id)
  | tick (input : Scheduler.TickInput) (ids : Nat → Id × Id)
      (crash : Option (Nat × Scheduler.CommitPoint))
  | getScheduleState (planId : Id) (now : Timestamp)
  | cancel (id : Id) (input : CancelRunInput) (now : Timestamp)
  | createWorker (input : CreateWorkerInput) (defaultWorkspaceId : Id) (now : Timestamp)
      (workerId : Id) (credential : String)
  | updateWorker (id : Id) (input : UpdateWorkerInput) (expectedUpdatedAt now : Timestamp)
  | rotateCredential (id : Id) (now : Timestamp) (credential : String)
  | heartbeat (input : HeartbeatInput) (credential : String) (now : Timestamp) (heartbeatId : Id)
  | claim (workerId : Id) (credential : String) (inputs : ClaimInputs)
  | claimSpecific (workerId : Id) (credential : String) (jobId : Id) (inputs : ClaimInputs)
  | renewLease (workerId : Id) (credential : String) (leaseId : Id) (leaseToken : String)
      (now reapNow : Timestamp)
  | releaseLease (workerId : Id) (credential : String) (leaseId : Id) (leaseToken : String)
      (reason : Option String) (now : Timestamp)
  | reapExpired (now : Timestamp)
  | start (request : WorkerRequest) (executor : ExecutionExecutor) (now : Timestamp)
      (attemptId eventId : Id)
  | markUploading (request : WorkerRequest) (now : Timestamp) (eventId : Id)
  | markVerifying (request : WorkerRequest) (now : Timestamp) (eventId : Id)
  | complete (request : WorkerRequest) (receipt : ExecutionReceipt) (now : Timestamp)
      (ids : TerminalIds)
  | fail (request : WorkerRequest) (input : FailExecutionInput) (occurredAt now : Timestamp)
      (ids : TerminalIds)
  | reconcileExpired (now : Timestamp) (eventId : Nat → Id)

variable (platform : Platform) (options : WorkerProtocolOptions)

/-- What a call leaves of the database, whether it succeeds or throws. -/
def step (db : Database) : Op → Database
  | .savePlan plan => (commit (savePlan plan) db).2
  | .saveCatalogue sources connectors => (commit (saveCatalogue sources connectors) db).2
  | .dispatchManual input now runId jobId => (commit (dispatchManual input now runId jobId) db).2
  | .tick input ids crash => (Scheduler.tick platform input ids crash db).2
  | .getScheduleState planId now => (commit (Scheduler.getState platform planId now) db).2
  | .cancel id input now => (commit (cancel id input now) db).2
  | .createWorker input defaultWorkspaceId now workerId credential =>
    (commit (create platform input defaultWorkspaceId now workerId credential) db).2
  | .updateWorker id input expectedUpdatedAt now =>
    (commit (update id input expectedUpdatedAt now) db).2
  | .rotateCredential id now credential => (commit (rotateCredential platform id now credential) db).2
  | .heartbeat input credential now heartbeatId =>
    (commit (heartbeat platform options input credential now heartbeatId) db).2
  | .claim workerId credential inputs =>
    (commit (claim platform options workerId credential inputs) db).2
  | .claimSpecific workerId credential jobId inputs =>
    (commit (claimSpecific platform options workerId credential jobId inputs) db).2
  | .renewLease workerId credential leaseId leaseToken now reapNow =>
    (renewLease platform options workerId credential leaseId leaseToken now reapNow db).2
  | .releaseLease workerId credential leaseId leaseToken reason now =>
    (commit (releaseLease platform workerId credential leaseId leaseToken reason now) db).2
  | .reapExpired now => (commit (reapExpired now) db).2
  | .start request executor now attemptId eventId =>
    (commit (start platform request executor now attemptId eventId) db).2
  | .markUploading request now eventId => (commit (markUploading platform request now eventId) db).2
  | .markVerifying request now eventId => (commit (markVerifying platform request now eventId) db).2
  | .complete request receipt now ids => (commit (complete platform request receipt now ids) db).2
  | .fail request input occurredAt now ids =>
    (commit (fail platform request input occurredAt now ids) db).2
  | .reconcileExpired now eventId => (commit (reconcileExpired platform now eventId) db).2

def machine : Machine Database Op where
  init := Database.empty
  step := step platform options

/-! ### Refinement -/

theorem commit_refined {α : Type} {effect : Database → Effect}
    {body : Database → Except RegistryError (α × Database)} (hbody : Refines effect body)
    {db : Database} (hc : Coherent (view db)) : Refined (effect db) db (commit body db).2 :=
  commit_rel (R := fun s s' => Refined (effect s) s s') (.refl _ db)
    fun a s' h => hbody db a s' hc h

/-- What the calls of workers and operators end and complete; the catalogue and the dispatches have
    no such effect. -/
def Op.effect : Op → Database → Effect
  | .complete request receipt _ _ => terminalEffect request (.receipt receipt)
  | .fail request _ _ _ _ => failureEffect request
  | .reconcileExpired now _ => reconcileEffect now
  | _ => fun _ => .quiet

/-- The calls that store no run: the worker registry, the transitions and the cancellation. -/
def Op.isExecution : Op → Bool
  | .savePlan _ | .saveCatalogue .. | .dispatchManual .. | .tick .. | .getScheduleState .. => false
  | _ => true

/-- A call of a worker or an operator is a sequence of moves, and leaves alone what it has no effect
    on. -/
theorem execution_refined {db : Database} (hc : Coherent (view db)) {op : Op}
    (hop : op.isExecution = true) : Refined (op.effect db) db (step platform options db op) := by
  cases op with
  | savePlan | saveCatalogue | dispatchManual | tick | getScheduleState => cases hop
  | cancel => exact commit_refined (cancel_refines _ _ _) hc
  | createWorker => exact commit_refined (create_refines _ _ _ _ _ _) hc
  | updateWorker => exact commit_refined (update_refines _ _ _ _) hc
  | rotateCredential => exact commit_refined (rotateCredential_refines _ _ _ _) hc
  | heartbeat => exact commit_refined (heartbeat_refines _ _ _ _ _ _) hc
  | claim => exact commit_refined (claim_refines _ _ _ _ _) hc
  | claimSpecific => exact commit_refined (claimSpecific_refines _ _ _ _ _ _) hc
  | renewLease => exact renewLease_refined _ _ _ _ _ _ _ _ hc
  | releaseLease => exact commit_refined (releaseLease_refines _ _ _ _ _ _ _) hc
  | reapExpired now => exact commit_refined (reapExpired_refines now) hc
  | start => exact commit_refined (start_refines _ _ _ _ _ _) hc
  | markUploading => exact commit_refined (markUploading_refines _ _ _ _) hc
  | markVerifying => exact commit_refined (markVerifying_refines _ _ _ _) hc
  | complete => exact commit_refined (complete_refines _ _ _ _ _) hc
  | fail => exact commit_refined (fail_refines _ _ _ _ _ _) hc
  | reconcileExpired => exact commit_refined (reconcileExpired_refines _ _ _) hc

theorem view_savePlan (plan : CollectionPlan) (db : Database) :
    view (commit (savePlan plan) db).2 = view db := by
  refine commit_rel (R := fun s s' => view s' = view s) rfl fun _ db' h => ?_
  obtain ⟨-, ⟨-, rfl⟩ | ⟨_, -, -, -, rfl⟩⟩ := savePlan_spec h
  · rfl
  · rfl

theorem view_of_onlyState {planId : Id} {db db' : Database}
    (h : Scheduler.OnlyState planId db db') : view db' = view db := by
  rw [h.rest]
  rfl

theorem getState_onlyState (planId : Id) (now : Timestamp) (db : Database) :
    Scheduler.OnlyState planId db (commit (Scheduler.getState platform planId now) db).2 := by
  refine commit_rel (R := fun s s' => Scheduler.OnlyState planId s s') (.refl _ _)
    fun _ db' h => ?_
  simp only [Scheduler.getState, bind_eq_ok] at h
  obtain ⟨plan, hplan, h⟩ := h
  simp only [loadPlan, bind_eq_ok, orThrow_eq_ok, parsePlan_eq_ok] at hplan
  obtain ⟨stored, hstored, -, rfl⟩ := hplan
  obtain rfl : stored.id = planId := Tables.key_of_find? hstored
  split at h <;> simp only [pure_eq_ok, Prod.mk.injEq] at h <;> obtain ⟨-, rfl⟩ := h
  · exact .refl _ _
  · exact (Scheduler.reconcileActivePlan_spec (Prod.mk.eta (p := _)).symm).1

variable {platform} in
/-- An examination dispatches at most one run, which is one move. -/
theorem steps_of_examined {plan : CollectionPlan} {now : Timestamp} {db db' : Database}
    (h : Scheduler.Examined platform plan now db db') : Steps Move (view db) (view db') := by
  obtain ⟨mid, mid', hbefore, hmid, hafter⟩ := h.commits
  rw [view_of_onlyState hafter, ← view_of_onlyState hbefore]
  rcases hmid with rfl | ⟨slot, -, -, hdispatched⟩
  · exact .refl
  · obtain ⟨source, connector, jobType, runId, jobId, now, ⟨-, hjob⟩, hinsert⟩ := hdispatched.inserted
    exact .single (insertDispatch_move hinsert rfl rfl rfl rfl hjob)

theorem steps_of_tick (input : Scheduler.TickInput) (ids : Nat → Id × Id)
    (crash : Option (Nat × Scheduler.CommitPoint)) (db : Database) :
    Steps Move (view db) (view (Scheduler.tick platform input ids crash db).2) :=
  Scheduler.tick_preserves (P := fun current => Steps Move (view db) (view current)) .refl
    fun _ _ _ _ hsteps hexamined => hsteps.trans (steps_of_examined hexamined)

/-- Every call is a sequence of moves of the execution protocol. -/
theorem steps_of_step {db : Database} (hc : Coherent (view db)) (op : Op) :
    Steps Move (view db) (view (step platform options db op)) := by
  by_cases hop : op.isExecution = true
  · exact (execution_refined platform options hc hop).steps
  · cases op with
    | savePlan plan => exact view_savePlan plan db ▸ .refl
    | saveCatalogue => exact .refl
    | dispatchManual input now runId jobId =>
      exact commit_rel (R := fun s s' => Steps Move (view s) (view s')) .refl
        fun _ _ h => dispatchManual_steps h
    | tick input ids crash => exact steps_of_tick platform input ids crash db
    | getScheduleState planId now =>
      exact view_of_onlyState (getState_onlyState platform planId now db) ▸ .refl
    | _ => exact absurd rfl hop

theorem steps_of_runFrom {db : Database} (hc : Coherent (view db)) (ops : List Op) :
    Steps Move (view db) (view ((machine platform options).runFrom db ops)) := by
  induction ops generalizing db with
  | nil => exact .refl
  | cons op ops ih =>
    have hsteps := steps_of_step platform options hc op
    exact hsteps.trans (ih (coherent_of_steps hc hsteps))

theorem coherent_run (ops : List Op) : Coherent (view ((machine platform options).run ops)) := by
  have hempty : Coherent (view Database.empty) := Protocol.coherent_empty
  exact coherent_of_steps hempty (steps_of_runFrom platform options hempty ops)

/-! ### The stored documents -/

def jobsOfRun (db : Database) (runId : Id) : List Job :=
  db.jobs.filter fun job => decide (job.runId = runId)

def leasesOfJob (db : Database) (jobId : Id) : List LeaseRow :=
  db.leases.filter fun row => decide (row.lease.jobId = jobId)

def activeLeasesOfJob (db : Database) (jobId : Id) : List LeaseRow :=
  (leasesOfJob db jobId).filter fun row => decide (row.lease.status = .active)

def attemptsOfJob (db : Database) (jobId : Id) : List ExecutionAttempt :=
  db.attempts.filter fun attempt => decide (attempt.jobId = jobId)

theorem jobsIn_view (db : Database) (runId : Id) :
    Protocol.jobsIn (view db).jobs runId = (jobsOfRun db runId).map viewJob := by
  simp only [Protocol.jobsIn, view, List.filter_map, jobsOfRun]
  rfl

theorem activeFor_view (db : Database) (jobId : Id) :
    Protocol.activeFor (view db).leases jobId = (activeLeasesOfJob db jobId).map viewLease := by
  simp only [Protocol.activeFor, view, List.filter_map, activeLeasesOfJob, leasesOfJob,
    List.filter_filter]
  congr 1
  refine List.filter_congr fun row _ => ?_
  rw [Bool.and_comm]
  rfl

theorem attemptsFor_view (db : Database) (jobId : Id) :
    Protocol.attemptsFor (view db).attempts jobId = (attemptsOfJob db jobId).map viewAttempt := by
  simp only [Protocol.attemptsFor, view, List.filter_map, attemptsOfJob]
  rfl

variable {platform options}

/-- The jobs of a run are numbered from 1 within its retry limit, all but the last were retried, and
    the status of the run is the one derived from the last. -/
theorem run_jobs_agree (ops : List Op) :
    let db := (machine platform options).run ops
    ∀ run ∈ db.runs,
      (jobsOfRun db run.id).map (·.attempt) = List.range' 1 (jobsOfRun db run.id).length ∧
      (∀ job ∈ jobsOfRun db run.id, (jobsOfRun db run.id).length ≤ job.maxAttempts) ∧
      ∃ earlier last, jobsOfRun db run.id = earlier ++ [last] ∧
        (∀ job ∈ earlier, job.status = .retry) ∧ last.status ≠ .retry ∧
        run.status = deriveRunStatusFromJob last.status := by
  intro db run hrun
  obtain ⟨earlier, last, hsplit, hretry, hlast, hnumbered, hmax, hsame, hstatus⟩ :=
    (coherent_run platform options ops).agrees _ (mem_view_run hrun)
  have hjobs : Protocol.jobsIn (view db).jobs (viewRun run).id =
      (jobsOfRun db run.id).map viewJob := jobsIn_view db run.id
  rw [hjobs] at hsplit hnumbered hmax hsame
  refine ⟨?_, fun job hjob => ?_, ?_⟩
  · simpa [Function.comp_def, viewJob] using hnumbered
  · have hjobMax : job.maxAttempts = last.maxAttempts :=
      hsame (viewJob job) (List.mem_map_of_mem hjob)
    rw [hjobMax]
    simpa using hmax
  · obtain ⟨first, rest, hdocs, rfl, hrest⟩ := List.map_eq_append_iff.mp hsplit
    obtain ⟨job, rfl, rfl⟩ := List.map_eq_singleton_iff.mp hrest
    exact ⟨first, job, hdocs, fun j hj => hretry _ (List.mem_map_of_mem hj), hlast, hstatus⟩

/-- A job is leased to one worker at a time and executed at most once: its status tells its active
    lease and its attempt, and a job that was started is neither leased nor started again. -/
theorem job_executed_at_most_once (ops later : List Op) :
    let db := (machine platform options).run ops
    let db' := (machine platform options).runFrom db later
    ∀ job ∈ db.jobs,
      (activeLeasesOfJob db job.id).length ≤ 1 ∧
      (job.status = .leased ↔ activeLeasesOfJob db job.id ≠ [] ∧ attemptsOfJob db job.id = []) ∧
      (∀ status : ExecutionAttemptStatus, status.isActive = true →
        (job.status = status.toJobStatus ↔
          ∃ attempt ∈ attemptsOfJob db job.id, attempt.status = status)) ∧
      (attemptsOfJob db job.id).length ≤ 1 ∧
      (attemptsOfJob db job.id ≠ [] →
        (leasesOfJob db' job.id).map (·.lease.id) = (leasesOfJob db job.id).map (·.lease.id) ∧
        (attemptsOfJob db' job.id).map (·.id) = (attemptsOfJob db job.id).map (·.id)) := by
  intro db db' job hjob
  have hc : Coherent (view db) := coherent_run platform options ops
  have hphase := hc.phase _ (mem_view_job hjob)
  have hactive : Protocol.activeFor (view db).leases (viewJob job).id =
      (activeLeasesOfJob db job.id).map viewLease := activeFor_view db job.id
  have hattempts : Protocol.attemptsFor (view db).attempts (viewJob job).id =
      (attemptsOfJob db job.id).map viewAttempt := attemptsFor_view db job.id
  rw [hactive, hattempts] at hphase
  obtain ⟨hleases, hleased, hexecuting, hone⟩ := hphase.at_most_once
  refine ⟨by simpa using hleases, by simpa [viewJob] using hleased, fun status hstatus => ?_,
    by simpa using hone, fun hstarted => ?_⟩
  · have := hexecuting status hstatus
    simpa [viewAttempt, viewJob] using this
  · have hne : Protocol.attemptsFor (view db).attempts job.id ≠ [] := by
      rw [attemptsFor_view]
      simpa using hstarted
    obtain ⟨hgranted, hattempted⟩ := Protocol.granted_started_of_steps hc
      (steps_of_runFrom platform options hc later) hne
    constructor
    · have := congrArg (List.map Prod.fst) hgranted
      simpa [Protocol.State.granted, view, List.filter_map, Function.comp_def, leasesOfJob,
        viewLease] using this
    · have := congrArg (List.map Prod.fst) hattempted
      simpa [Protocol.State.started, view, List.filter_map, Function.comp_def, attemptsOfJob,
        viewAttempt] using this

/-! ### A concrete run -/

/-- Stand-ins for the digests, told apart by the texts they are taken of. -/
def samplePlatform (parseUrl : String → Option (String × String)) : Platform where
  digestHex := String.length
  hashPayload
    | .start _ => 1
    | .stage target => 2 + target.text.length
    | .complete _ => 3
    | .fail code _ _ => 100 + code.length
    | .reconcile _ _ => 4
  hashDescriptor _ := 0
  hashSchedule _ := 0
  parseUrl
  timezoneFormatter _ := none

def webSource (uri : String) : SourceDefinition where
  id := 1
  workspaceId := 1
  sourceType := .web
  status := .active
  connector := { connectorId := "web", version := "1.0.0" }
  canonicalUri := none
  entrypoints := [uri]
  createdAt := 0
  updatedAt := 0

def webConnector : ConnectorManifest where
  connectorId := "web"
  version := "1.0.0"
  sourceTypes := [.web]
  capabilities := [.collect]
  supportedJobTypes := [.webCrawl]
  outputArtifactKinds := [.html]
  status := .active

def webPlan : CollectionPlan where
  id := 1
  workspaceId := 1
  sourceId := 1
  status := .active
  schedule := .manual
  priority := .normal
  policy :=
    { renderJavascript := false, fetchAttachments := false, rateLimitPerMinute := 2
      retry := { maxAttempts := 1, backoffSeconds := 0 } }
  artifactKinds := [.html]
  createdAt := 0
  updatedAt := 0
  extensions := none

def webWorker : CreateWorkerInput where
  workspaceId := some 1
  displayName := "worker"
  desiredState := none
  runtime := { runtimeId := "node", version := "1.0.0" }
  supportedJobTypes := [.webCrawl]
  connectorBindings := [{ connectorId := "web", version := "1.0.0", capabilities := [.collect] }]
  maxConcurrency := 2
  labels := none
  extensions := none

def manualDispatch : ManualDispatchInput where
  planId := 1
  requestedBy := none
  idempotencyKey := none
  extensions := none

def healthyWorker : HeartbeatInput where
  workerId := 1
  observedAt := 0
  runtimeVersion := "1.0.0"
  health := .healthy
  activeLeaseIds := none
  diagnostics := none

/-- A worker is registered and healthy, and two jobs of one source wait for it. -/
def twoJobs (uri : String) : List Op :=
  [.saveCatalogue [webSource uri] [webConnector], .savePlan webPlan,
    .createWorker webWorker 1 0 1 "credential", .heartbeat healthyWorker "credential" 0 1,
    .dispatchManual manualDispatch 0 1 1, .dispatchManual manualDispatch 0 2 2]

def claimAt (now : Timestamp) (leaseId : Id) : Op :=
  .claim 1 "credential" ⟨now, now, leaseId, "token"⟩

end MarkorbitKnowledge.Execution
