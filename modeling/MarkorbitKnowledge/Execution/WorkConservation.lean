import MarkorbitKnowledge.Execution.Validity
import MarkorbitKnowledge.Lib.Window

/-!
# Which job a claim leases

A claim reaps the expired leases, asks for the first 250 jobs that are PENDING and available, in the
order of their priority, availability, creation and id, and leases the first of them that belongs to
the worker's workspace, that the worker can run and that the quota of its web domain admits.  The
query does not know the worker, so the jobs of other workspaces, of other connectors and of blocked
domains take places in the window.

`claim_work_conserving_iff` says what follows: the claim leases the first of all eligible jobs exactly
when one of the eligible jobs has fewer than 250 available jobs before it.
-/

namespace MarkorbitKnowledge.Execution

open Contracts Fallible Transitions Window
open Protocol (Coherent)
open Tables (KeysUnique mem_of_find? key_of_find?)

/-! ### Eligible jobs -/

/-- The jobs a claim could lease at `now`, to some worker. -/
def availableJobs (db : Database) (now : Timestamp) : List Job :=
  db.jobs.filter fun job => decide (job.status = .pending) && decide (job.availableAt ≤ now)

/-- The candidates of a claim are a window of the available jobs. -/
theorem claimCandidates_eq (db : Database) (now : Timestamp) :
    claimCandidates db now = window claimKey 250 (availableJobs db now) := rfl

/-- The available jobs a claim would try before this one. -/
def jobsBefore (db : Database) (now : Timestamp) (job : Job) : Nat :=
  before claimKey (availableJobs db now) job

/-- A job that the worker may be given at `now`. -/
structure Eligible (platform : Platform) (options : WorkerProtocolOptions)
    (worker : WorkerDefinition) (now : Timestamp) (db : Database) (job : Job) : Prop where
  stored : job ∈ db.jobs
  pending : job.status = .pending
  available : job.availableAt ≤ now
  workspace : job.workspaceId = worker.workspaceId
  compatible : workerCanRun worker job = true
  quota : ∃ state, webDomainLeaseState platform db now = .ok state ∧
    webDomainQuotaAllows platform options job state = true

theorem claimKey_injective {db : Database} (hc : Coherent (view db)) (now : Timestamp) :
    ((availableJobs db now).map claimKey).Nodup := by
  have hids : ((availableJobs db now).map Tables.key).Nodup := (jobKeys_of_coherent hc).filter _
  refine (List.pairwise_map.mpr ((List.pairwise_map.mp hids).imp fun hne heq => hne ?_))
  exact congrArg (fun key => (ofLex (ofLex (ofLex key).2).2).2) heq

/-- Where every job satisfies its contract, the leases of the web domains can be read. -/
theorem webDomainLeaseState_ok (platform : Platform) {db : Database}
    (hjobs : ∀ job ∈ db.jobs, isJob job = true) (now : Timestamp) :
    ∃ state, webDomainLeaseState platform db now = .ok state := by
  simp only [webDomainLeaseState, bind_eq_ok, pure_eq_ok]
  refine ⟨_, _, (mapM_guarded (c := fun entry : LeaseRow × Job => isJob entry.2 = true) (g := id)
    (by rintro ⟨row, job⟩ y; simp)).mpr ⟨fun entry hentry => ?_, rfl⟩, rfl⟩
  obtain ⟨row, -, hjob⟩ := List.mem_filterMap.mp hentry
  obtain ⟨job, hfind, rfl⟩ := Option.map_eq_some_iff.mp hjob
  exact hjobs job (mem_of_find? hfind)

/-! ### The grant -/

/-- The contract of a job does not depend on its status, unless that is CANCELLED. -/
theorem isJob_withStatus {job : Job} (h : isJob job = true) {status : JobStatus}
    {timestamp : Timestamp} (hjob : job.status ≠ .cancelled) (hstatus : status ≠ .cancelled)
    (htimestamp : isRfc3339 timestamp = true) :
    isJob { job with status, updatedAt := timestamp } = true := by
  simp only [isJob, Bool.and_eq_true, hjob, hstatus] at h ⊢
  tauto

/-- The clock readings and the id a claim generates: instants the contract accepts, and an id no
    lease has. -/
structure ClaimInputs.Usable (options : WorkerProtocolOptions) (inputs : ClaimInputs)
    (leases : List LeaseRow) : Prop where
  acquired : isRfc3339 inputs.now = true
  expires : isRfc3339 (inputs.now + options.leaseDurationMs) = true
  fresh : ∀ row ∈ leases, row.lease.id ≠ inputs.leaseId

section Grant

variable {platform : Platform} {options : WorkerProtocolOptions} {db : Database}
  {worker : WorkerDefinition} {inputs : ClaimInputs}

theorem isJobLease_newLease {job : Job} (hjob : isJob job = true)
    (hinputs : inputs.Usable options db.leases) :
    isJobLease (newLease options worker job inputs) = true := by
  have hconnector : job.connector.isValid = true := by
    simp only [isJob, Bool.and_eq_true] at hjob
    tauto
  have hduration : 1000 ≤ options.leaseDurationMs := (options.bounded _ (by simp)).1
  have hpositive : inputs.now < inputs.now + (options.leaseDurationMs : Int) :=
    Int.lt_add_of_pos_right _ (by omega)
  simp [isJobLease, newLease, closureFieldsAreValid, hconnector, hinputs.acquired, hinputs.expires,
    hpositive]

/-- The claim of a stored PENDING job succeeds. -/
theorem claimJobInTransaction_ok (platform : Platform) (worker : WorkerDefinition) {job : Job}
    (hc : Coherent (view db)) (hjob : job ∈ db.jobs)
    (hvalid : isJob job = true) (hpending : job.status = .pending)
    (hinputs : inputs.Usable options db.leases) :
    ∃ lease db', claimJobInTransaction platform options db worker job inputs =
      .ok ({ job := some { job with status := .leased, updatedAt := inputs.now }
             lease := some lease, leaseToken := some inputs.leaseToken }, db') := by
  have hleased : isJob { job with status := .leased, updatedAt := inputs.now } = true :=
    isJob_withStatus hvalid (by simp [hpending]) (by simp) hinputs.acquired
  have hfree : ∀ row ∈ db.leases, row.lease.status = .active → row.lease.jobId ≠ job.id := by
    intro row hrow hactive hid
    have hnone := (hc.nothing_of_pending (mem_view_job hjob) hpending).1
    have : viewLease row ∈ Protocol.activeFor (view db).leases job.id :=
      Protocol.mem_activeFor.mpr ⟨mem_view_lease hrow, hid, by simp [viewLease, hactive]⟩
    exact absurd (hnone ▸ this) List.not_mem_nil
  simp only [claimJobInTransaction, jobWithStatus, insertLease, bind_eq_ok, require_eq_ok,
    pure_eq_ok, Prod.mk.injEq]
  refine ⟨_, _, (), isJobLease_newLease hvalid hinputs, _, ⟨(), hleased, rfl⟩, (),
    ⟨job, hjob, rfl, hpending⟩, _, ⟨(), hinputs.fresh, (), fun row hrow hactive _ => ?_, rfl⟩, rfl, rfl⟩
  exact hfree row hrow hactive

end Grant

/-! ### The claim -/

section Claim

variable {platform : Platform} {options : WorkerProtocolOptions} {db reaped : Database}
  {workerId : Id} {credential : String} {inputs : ClaimInputs} {worker : WorkerDefinition}

/-- The claim leases the first eligible job that is shown to it, and nothing if none is shown. -/
theorem claim_spec (hc : Coherent (view reaped)) (hvalid : ∀ job ∈ reaped.jobs, isJob job = true)
    (hbegin : beginClaim platform options workerId credential inputs db = .ok (worker, reaped)) :
    ((∃ job, Eligible platform options worker inputs.now reaped job ∧
          jobsBefore reaped inputs.now job < 250) →
        ∃ job, Eligible platform options worker inputs.now reaped job ∧
          (∀ other, Eligible platform options worker inputs.now reaped other →
            claimKey job ≤ claimKey other) ∧
          claim platform options workerId credential inputs db =
            claimJobInTransaction platform options reaped worker job inputs) ∧
      ((¬ ∃ job, Eligible platform options worker inputs.now reaped job ∧
          jobsBefore reaped inputs.now job < 250) →
        claim platform options workerId credential inputs db =
          .ok ({ job := none, lease := none, leaseToken := none }, reaped)) := by
  obtain ⟨state, hstate⟩ := webDomainLeaseState_ok platform hvalid inputs.now
  have hkeys := claimKey_injective hc inputs.now
  have hcandidates : (claimCandidates reaped inputs.now).mapM parseJob =
      .ok (claimCandidates reaped inputs.now) := by
    rw [mapM_guarded (fun _ _ => parseJob_eq_ok), List.map_id']
    refine ⟨fun job hjob => hvalid job ?_, rfl⟩
    exact (List.mem_filter.mp ((mem_window hkeys).mp (claimCandidates_eq _ _ ▸ hjob)).1).1
  let accepts : Job → Bool := fun candidate =>
    decide (candidate.workspaceId = worker.workspaceId) && workerCanRun worker candidate &&
      webDomainQuotaAllows platform options candidate state
  have heligible : ∀ job, Eligible platform options worker inputs.now reaped job ↔
      job ∈ availableJobs reaped inputs.now ∧ accepts job = true := by
    intro job
    simp only [availableJobs, accepts, List.mem_filter, Bool.and_eq_true, decide_eq_true_eq]
    constructor
    · rintro ⟨hstored, hpending, havailable, hworkspace, hcompatible, state', hstate', hquota⟩
      obtain rfl : state' = state := Except.ok.inj (hstate'.symm.trans hstate)
      exact ⟨⟨hstored, hpending, havailable⟩, ⟨hworkspace, hcompatible⟩, hquota⟩
    · rintro ⟨⟨hstored, hpending, havailable⟩, ⟨hworkspace, hcompatible⟩, hquota⟩
      exact ⟨hstored, hpending, havailable, hworkspace, hcompatible, state, hstate, hquota⟩
  have hclaim : claim platform options workerId credential inputs db =
      ((window claimKey 250 (availableJobs reaped inputs.now)).find? accepts).elim
        (.ok ({ job := none, lease := none, leaseToken := none }, reaped))
        fun job => claimJobInTransaction platform options reaped worker job inputs := by
    simp only [claim, hbegin, ok_bind, hcandidates, hstate]
    rw [claimCandidates_eq]
    cases (window claimKey 250 (availableJobs reaped inputs.now)).find? accepts <;> rfl
  constructor
  · rintro ⟨job, hjob, hbefore⟩
    obtain ⟨havailable, haccepts⟩ := (heligible job).mp hjob
    have hshown : job ∈ window claimKey 250 (availableJobs reaped inputs.now) :=
      (mem_window hkeys).mpr ⟨havailable, hbefore⟩
    cases hfind : (window claimKey 250 (availableJobs reaped inputs.now)).find? accepts with
    | none => exact absurd haccepts (List.find?_eq_none.mp hfind job hshown)
    | some found =>
      obtain ⟨hfound, hfoundAccepts, hfirst⟩ := (find?_window hkeys).mp hfind
      refine ⟨found, (heligible found).mpr ⟨((mem_window hkeys).mp hfound).1, hfoundAccepts⟩,
        fun other hother => ?_, ?_⟩
      · obtain ⟨hother, hotherAccepts⟩ := (heligible other).mp hother
        exact hfirst other hother hotherAccepts
      · rw [hclaim, hfind, Option.elim_some]
  · intro hnone
    have hfind : (window claimKey 250 (availableJobs reaped inputs.now)).find? accepts = none := by
      refine List.find?_eq_none.mpr fun job hjob haccepts => hnone ?_
      obtain ⟨havailable, hbefore⟩ := (mem_window hkeys).mp hjob
      exact ⟨job, (heligible job).mpr ⟨havailable, haccepts⟩, hbefore⟩
    rw [hclaim, hfind, Option.elim_none]

end Claim

theorem leaseIds_retained {db db' : Database} (h : Retains db db') :
    db'.leases.map (·.lease.id) = db.leases.map (·.lease.id) := by
  have hleases := h.leases
  generalize db.leases = leases at hleases ⊢
  generalize db'.leases = later at hleases ⊢
  induction hleases with
  | nil => rfl
  | cons hkept _ ih => rw [List.map_cons, List.map_cons, hkept.id, ih]

theorem ClaimInputs.Usable.retained {options : WorkerProtocolOptions} {inputs : ClaimInputs}
    {db db' : Database} (hinputs : inputs.Usable options db.leases) (h : Retains db db') :
    inputs.Usable options db'.leases := by
  refine ⟨hinputs.acquired, hinputs.expires, fun row hrow => ?_⟩
  have hid : row.lease.id ∈ db'.leases.map (·.lease.id) := List.mem_map_of_mem hrow
  rw [leaseIds_retained h] at hid
  obtain ⟨earlier, hearlier, heq⟩ := List.mem_map.mp hid
  exact heq ▸ hinputs.fresh earlier hearlier

/-- In every reachable state, a claim of an active, fresh and healthy worker with capacity left leases
    the first eligible job exactly when some eligible job has fewer than 250 available jobs, of
    whatever workspace, connector or web domain, before it. -/
theorem claim_work_conserving_iff (platform : Platform) (options : WorkerProtocolOptions)
    (ops : List Op) {workerId : Id} {credential : String} {inputs : ClaimInputs}
    {worker : WorkerDefinition} {reaped : Database}
    (hinputs : inputs.Usable options ((machine platform options).run ops).leases)
    (hbegin : beginClaim platform options workerId credential inputs
      ((machine platform options).run ops) = .ok (worker, reaped)) :
    ((∃ job, Eligible platform options worker inputs.now reaped job) →
      ∃ job lease db', Eligible platform options worker inputs.now reaped job ∧
        (∀ other, Eligible platform options worker inputs.now reaped other →
          claimKey job ≤ claimKey other) ∧
        claim platform options workerId credential inputs ((machine platform options).run ops) =
          .ok ({ job := some { job with status := .leased, updatedAt := inputs.now }
                 lease := some lease, leaseToken := some inputs.leaseToken }, db')) ↔
    ((∃ job, Eligible platform options worker inputs.now reaped job) →
      ∃ job, Eligible platform options worker inputs.now reaped job ∧
        jobsBefore reaped inputs.now job < 250) := by
  have hrun := coherent_run platform options ops
  obtain ⟨hretains, hc⟩ := beginClaim_retains hrun hbegin
  have hvalid := (valid_run platform options ops).beginClaim hrun hbegin
  obtain ⟨hleases, hnothing⟩ := claim_spec hc hvalid.jobs hbegin
  have hreaped := hinputs.retained hretains
  constructor
  · intro hconserving hexists
    by_contra hnone
    obtain ⟨job, lease, db', -, -, hclaim⟩ := hconserving hexists
    rw [hnothing hnone] at hclaim
    simp at hclaim
  · intro hshown hexists
    obtain ⟨job, hjob, hfirst, hclaim⟩ := hleases (hshown hexists)
    obtain ⟨lease, db', hgrant⟩ := claimJobInTransaction_ok platform worker hc
      hjob.stored (hvalid.jobs job hjob.stored) hjob.pending hreaped
    exact ⟨job, lease, db', hjob, hfirst, hclaim.trans hgrant⟩

/-! ### A crowded queue -/

/-- A dispatch without a key, of a plan that may be dispatched, under fresh ids. -/
theorem dispatchManual_ok (input : ManualDispatchInput) (now : Timestamp) (runId jobId : Id)
    (source : SourceDefinition) (connector : ConnectorManifest) (jobType : JobType)
    (actor : ExecutionActor) {db : Database} {plan : CollectionPlan}
    (hplan : loadPlan db input.planId = .ok plan) (hsource : loadSource db plan.sourceId = .ok source)
    (hconnector : loadConnector db source .connectorNotFound = .ok connector)
    (htype : validateDispatch plan source connector = .ok jobType)
    (hkey : input.idempotencyKey = none) (hactor : normalizeActor input.requestedBy = .ok actor)
    {run : CollectionRun} (hrun : run = newRun plan source connector
      { type := .manual, requestedBy := actor, idempotencyKey := none, parentRunId := none }
      input.extensions runId now)
    (hvalid : isCollectionRun run = true ∧ isJob (newJob run jobType jobId now) = true)
    (hruns : ∀ stored ∈ db.runs, stored.id ≠ runId)
    (hjobs : ∀ stored ∈ db.jobs, stored.id ≠ jobId ∧ stored.runId ≠ runId) :
    dispatchManual input now runId jobId db =
      .ok ({ record := { run, jobs := [newJob run jobType jobId now] }, replayed := false },
        { db with
          runs := db.runs ++ [run]
          jobs := db.jobs ++ [newJob run jobType jobId now] }) := by
  subst hrun
  set run := newRun plan source connector
    { type := .manual, requestedBy := actor, idempotencyKey := none, parentRunId := none }
    input.extensions runId now with hrun
  have hinsert : insertDispatch db run (newJob run jobType jobId now) =
      .ok { db with
        runs := db.runs ++ [run]
        jobs := db.jobs ++ [newJob run jobType jobId now] } := by
    simp only [insertDispatch, insertRun, insertJob, bind_eq_ok, require_eq_ok, pure_eq_ok]
    refine ⟨_, ⟨(), hruns, (), fun _ _ hsome => ?_, rfl⟩, (), fun stored hstored => ?_, (),
      fun stored hstored hof => ?_, rfl⟩
    · exact absurd hsome (by simp [hrun, newRun])
    · exact (hjobs stored hstored).1
    · exact absurd hof (hjobs stored hstored).2
  have hnone : input.idempotencyKey.mapM normalizeIdempotencyKey = .ok none := by
    rw [hkey]
    rfl
  simp only [dispatchManual, bind_eq_ok]
  refine ⟨plan, hplan, source, hsource, connector, hconnector, jobType, htype, none, hnone, ?_⟩
  simp only [Option.bind_none, bind_eq_ok, require_eq_ok]
  exact ⟨actor, hactor, (), hvalid, _, hinsert, rfl⟩

def feedConnector : ConnectorManifest := { webConnector with connectorId := "rss" }

def feedSource : SourceDefinition :=
  { webSource "https://example.org" with
    id := 2, connector := { connectorId := "rss", version := "1.0.0" } }

def feedPlan : CollectionPlan := { webPlan with id := 2, sourceId := 2 }

/-- The `i`-th run of the feed plan and its job, which the web worker cannot run. -/
def feedRun (i : Nat) : CollectionRun :=
  newRun feedPlan feedSource feedConnector
    { type := .manual, requestedBy := { actorType := .localAdmin, actorId := some "local-admin" }
      idempotencyKey := none, parentRunId := none } none (i + 1) 0

def feedJob (i : Nat) : Job := newJob (feedRun i) .webCrawl (i + 1) 0

/-- A healthy web worker, and the plans of two sources. -/
def webAndFeed : List Op :=
  [.saveCatalogue [webSource "https://example.org", feedSource] [webConnector, feedConnector],
    .savePlan webPlan, .savePlan feedPlan, .createWorker webWorker 1 0 1 "credential",
    .heartbeat healthyWorker "credential" 0 1]

def dispatchFeed (i : Nat) : Op := .dispatchManual { manualDispatch with planId := 2 } 0 (i + 1) (i + 1)

/-- Some jobs of the feed, and then one of the web source. -/
def crowdedQueue (count : Nat) : List Op :=
  webAndFeed ++ (List.range count).map dispatchFeed ++
    [.dispatchManual manualDispatch 0 (count + 1) (count + 1)]

section Crowded

/-- Stand-ins for the digests and for a URL parser that finds no host. -/
def hostlessPlatform : Platform := samplePlatform fun _ => none

def registeredWebWorker : WorkerDefinition where
  id := 1
  workspaceId := 1
  displayName := "worker"
  desiredState := .active
  runtime := { runtimeId := "node", version := "1.0.0" }
  supportedJobTypes := [.webCrawl]
  connectorBindings := [{ connectorId := "web", version := "1.0.0", capabilities := [.collect] }]
  maxConcurrency := 2
  labels := []
  createdAt := 0
  updatedAt := 0
  extensions := none

/-- The database of the two plans with some runs and jobs. -/
def webAndFeedDb (runs : List CollectionRun) (jobs : List Job) : Database :=
  { (machine hostlessPlatform .default).run webAndFeed with runs, jobs }

set_option maxRecDepth 100000 in
theorem run_webAndFeed : (machine hostlessPlatform .default).run webAndFeed = webAndFeedDb [] [] := rfl

/-- The run of the web source after `count` runs of the feed, and its job. -/
def webRun (count : Nat) : CollectionRun :=
  newRun webPlan (webSource "https://example.org") webConnector
    { type := .manual, requestedBy := { actorType := .localAdmin, actorId := some "local-admin" }
      idempotencyKey := none, parentRunId := none } none (count + 1) 0

def webJob (count : Nat) : Job := newJob (webRun count) .webCrawl (count + 1) 0

/-- The contracts do not read the generated ids. -/
theorem feed_valid (i : Nat) : isCollectionRun (feedRun i) = true ∧ isJob (feedJob i) = true := by
  have hrun : isCollectionRun (feedRun i) = isCollectionRun (feedRun 0) := rfl
  have hjob : isJob (feedJob i) = isJob (feedJob 0) := rfl
  rw [hrun, hjob]
  decide +kernel

theorem web_valid (count : Nat) :
    isCollectionRun (webRun count) = true ∧ isJob (webJob count) = true := by
  have hrun : isCollectionRun (webRun count) = isCollectionRun (webRun 0) := rfl
  have hjob : isJob (webJob count) = isJob (webJob 0) := rfl
  rw [hrun, hjob]
  decide +kernel

set_option maxRecDepth 100000 in
/-- One more dispatch of the feed. -/
theorem step_dispatchFeed (count : Nat) :
    step hostlessPlatform .default
        (webAndFeedDb ((List.range count).map feedRun) ((List.range count).map feedJob))
        (dispatchFeed count) =
      webAndFeedDb ((List.range (count + 1)).map feedRun) ((List.range (count + 1)).map feedJob) := by
  have hplan : loadPlan (webAndFeedDb ((List.range count).map feedRun)
      ((List.range count).map feedJob)) 2 = .ok feedPlan := rfl
  have hdispatch := dispatchManual_ok { manualDispatch with planId := 2 } 0 (count + 1) (count + 1)
    feedSource feedConnector .webCrawl
    { actorType := .localAdmin, actorId := some "local-admin" }
    hplan rfl rfl rfl rfl rfl (rfl : feedRun count = _) (feed_valid count) ?_ ?_
  · rw [dispatchFeed, step, commit_of_ok hdispatch, List.range_succ, List.map_append, List.map_append]
    rfl
  · simp only [webAndFeedDb, List.mem_map, List.mem_range]
    rintro _ ⟨i, hi, rfl⟩ hid
    exact absurd hid (Nat.ne_of_lt (Nat.succ_lt_succ hi))
  · simp only [webAndFeedDb, List.mem_map, List.mem_range]
    rintro _ ⟨i, hi, rfl⟩
    exact ⟨Nat.ne_of_lt (Nat.succ_lt_succ hi), Nat.ne_of_lt (Nat.succ_lt_succ hi)⟩

theorem runFrom_dispatchFeed (count : Nat) :
    (machine hostlessPlatform .default).runFrom (webAndFeedDb [] [])
        ((List.range count).map dispatchFeed) =
      webAndFeedDb ((List.range count).map feedRun) ((List.range count).map feedJob) := by
  induction count with
  | zero => rfl
  | succ count ih =>
    rw [List.range_succ, List.map_append, Machine.runFrom_append, ih]
    exact step_dispatchFeed count |>.trans (by rw [List.range_succ])

def crowdedJobs (count : Nat) : List Job := (List.range count).map feedJob ++ [webJob count]

set_option maxRecDepth 100000 in
theorem run_crowdedQueue (count : Nat) :
    (machine hostlessPlatform .default).run (crowdedQueue count) =
      webAndFeedDb ((List.range count).map feedRun ++ [webRun count]) (crowdedJobs count) := by
  have hplan : loadPlan (webAndFeedDb ((List.range count).map feedRun)
      ((List.range count).map feedJob)) 1 = .ok webPlan := rfl
  have hdispatch := dispatchManual_ok manualDispatch 0 (count + 1) (count + 1)
    (webSource "https://example.org") webConnector .webCrawl
    { actorType := .localAdmin, actorId := some "local-admin" }
    hplan rfl rfl rfl rfl rfl (rfl : webRun count = _) (web_valid count) ?_ ?_
  · rw [crowdedQueue, Machine.run, Machine.runFrom_append, Machine.runFrom_append]
    rw [show (machine hostlessPlatform .default).runFrom (machine hostlessPlatform .default).init
      webAndFeed = webAndFeedDb [] [] from run_webAndFeed, runFrom_dispatchFeed]
    change step hostlessPlatform .default _ (.dispatchManual manualDispatch 0 _ _) = _
    rw [step, commit_of_ok hdispatch]
    rfl
  · simp only [webAndFeedDb, List.mem_map, List.mem_range]
    rintro _ ⟨i, hi, rfl⟩ hid
    exact absurd hid (Nat.ne_of_lt (Nat.succ_lt_succ hi))
  · simp only [webAndFeedDb, List.mem_map, List.mem_range]
    rintro _ ⟨i, hi, rfl⟩
    exact ⟨Nat.ne_of_lt (Nat.succ_lt_succ hi), Nat.ne_of_lt (Nat.succ_lt_succ hi)⟩

set_option maxRecDepth 100000 in
theorem beginClaim_webAndFeed (runs : List CollectionRun) (jobs : List Job) :
    beginClaim hostlessPlatform .default 1 "credential" ⟨0, 0, 1, "token"⟩ (webAndFeedDb runs jobs) =
      .ok (registeredWebWorker, webAndFeedDb runs jobs) := rfl

/-- Every job of the feed is before the job of the web source. -/
theorem jobsBefore_webJob (count : Nat) (runs : List CollectionRun) :
    jobsBefore (webAndFeedDb runs (crowdedJobs count)) 0 (webJob count) = count := by
  have havailable : availableJobs (webAndFeedDb runs (crowdedJobs count)) 0 = crowdedJobs count := by
    refine List.filter_eq_self.mpr fun job hjob => ?_
    rcases List.mem_append.mp hjob with hfeed | hweb
    · obtain ⟨i, -, rfl⟩ := List.mem_map.mp hfeed
      rfl
    · rw [List.mem_singleton.mp hweb]
      rfl
  have hlast : claimKey (webJob count) = toLex (3, toLex (0, toLex (0, count + 1))) := rfl
  have hfeed : ((List.range count).map feedJob).countP
      (fun other => decide (claimKey other < claimKey (webJob count))) = count := by
    rw [List.countP_eq_length.mpr, List.length_map, List.length_range]
    intro job hjob
    obtain ⟨i, hi, rfl⟩ := List.mem_map.mp hjob
    have hkey : claimKey (feedJob i) = toLex (3, toLex (0, toLex (0, i + 1))) := rfl
    have hlt : i + 1 < count + 1 := Nat.succ_lt_succ (List.mem_range.mp hi)
    rw [hkey, hlast, decide_eq_true_eq]
    simp only [Prod.Lex.toLex_lt_toLex, lt_self_iff_false, true_and, false_or, hlt]
  rw [jobsBefore, before, havailable, crowdedJobs, List.countP_append, hfeed]
  simp

/-- The job of the web source is eligible, and it alone. -/
theorem eligible_webJob (count : Nat) (runs : List CollectionRun) :
    Eligible hostlessPlatform .default registeredWebWorker 0 (webAndFeedDb runs (crowdedJobs count))
      (webJob count) :=
  ⟨List.mem_append_right _ List.mem_cons_self, rfl, le_rfl, rfl, rfl, [], rfl, rfl⟩

theorem eq_webJob_of_eligible {count : Nat} {runs : List CollectionRun} {job : Job}
    (h : Eligible hostlessPlatform .default registeredWebWorker 0
      (webAndFeedDb runs (crowdedJobs count)) job) : job = webJob count := by
  rcases List.mem_append.mp h.stored with hfeed | hweb
  · obtain ⟨i, -, rfl⟩ := List.mem_map.mp hfeed
    have hincompatible : workerCanRun registeredWebWorker (feedJob i) = false := rfl
    exact absurd h.compatible (by simp [hincompatible])
  · exact List.mem_singleton.mp hweb

/-- The claim of a worker returns nothing although a job it could run is waiting, behind 250 jobs it
    cannot run. -/
theorem crowded_job_not_claimed :
    ∃ worker reaped,
      beginClaim hostlessPlatform .default 1 "credential" ⟨0, 0, 1, "token"⟩
          ((machine hostlessPlatform .default).run (crowdedQueue 250)) = .ok (worker, reaped) ∧
        (∃ job, Eligible hostlessPlatform .default worker 0 reaped job) ∧
        claim hostlessPlatform .default 1 "credential" ⟨0, 0, 1, "token"⟩
            ((machine hostlessPlatform .default).run (crowdedQueue 250)) =
          .ok ({ job := none, lease := none, leaseToken := none }, reaped) := by
  have hc := coherent_run hostlessPlatform .default (crowdedQueue 250)
  have hvalid := valid_run hostlessPlatform .default (crowdedQueue 250)
  rw [run_crowdedQueue] at hc hvalid ⊢
  have hbegin :=
    beginClaim_webAndFeed ((List.range 250).map feedRun ++ [webRun 250]) (crowdedJobs 250)
  refine ⟨registeredWebWorker, _, hbegin, ⟨webJob 250, eligible_webJob 250 _⟩,
    (claim_spec hc hvalid.jobs hbegin).2 ?_⟩
  rintro ⟨job, heligible, hbefore⟩
  rw [eq_webJob_of_eligible heligible] at hbefore
  exact absurd hbefore (Nat.not_lt.mpr (jobsBefore_webJob 250 _).ge)

/-- With one job of the feed less, the job of the web source is the last candidate, and claimed. -/
theorem last_candidate_claimed :
    ∃ job lease db',
      Eligible hostlessPlatform .default registeredWebWorker 0
          (webAndFeedDb ((List.range 249).map feedRun ++ [webRun 249]) (crowdedJobs 249)) job ∧
      (∀ other, Eligible hostlessPlatform .default registeredWebWorker 0
          (webAndFeedDb ((List.range 249).map feedRun ++ [webRun 249]) (crowdedJobs 249)) other →
        claimKey job ≤ claimKey other) ∧
      claim hostlessPlatform .default 1 "credential" ⟨0, 0, 1, "token"⟩
          ((machine hostlessPlatform .default).run (crowdedQueue 249)) =
        .ok ({ job := some { job with status := .leased, updatedAt := 0 }
               lease := some lease, leaseToken := some "token" }, db') := by
  have hrun := run_crowdedQueue 249
  have hbegin : beginClaim hostlessPlatform .default 1 "credential" ⟨0, 0, 1, "token"⟩
      ((machine hostlessPlatform .default).run (crowdedQueue 249)) =
      .ok (registeredWebWorker,
        webAndFeedDb ((List.range 249).map feedRun ++ [webRun 249]) (crowdedJobs 249)) := by
    rw [hrun]
    exact beginClaim_webAndFeed _ _
  have hinputs : ClaimInputs.Usable .default ⟨0, 0, 1, "token"⟩
      ((machine hostlessPlatform .default).run (crowdedQueue 249)).leases := by
    rw [hrun]
    exact ⟨rfl, rfl, fun row hrow => absurd hrow List.not_mem_nil⟩
  have hbefore : jobsBefore (webAndFeedDb ((List.range 249).map feedRun ++ [webRun 249])
      (crowdedJobs 249)) 0 (webJob 249) < 250 := by
    rw [jobsBefore_webJob]
    exact Nat.lt_succ_self 249
  exact (claim_work_conserving_iff hostlessPlatform .default (crowdedQueue 249) hinputs hbegin).mpr
    (fun _ => ⟨webJob 249, eligible_webJob 249 _, hbefore⟩) ⟨webJob 249, eligible_webJob 249 _⟩

end Crowded

end MarkorbitKnowledge.Execution
