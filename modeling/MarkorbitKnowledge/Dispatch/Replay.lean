import MarkorbitKnowledge.Execution.Validity
import MarkorbitKnowledge.Recovery.Passes
import MarkorbitKnowledge.Scheduler.Safety
import Mathlib.Logic.Equiv.List

/-!
# Dispatches that are repeated

A dispatch by hand under an idempotency key that was used before returns the run stored under it, in
the collection ledger as in the conversion ledger.  Both ledgers check first that the plan, or the
artifact with its profile and converter, may still be dispatched, so a repeated dispatch is replayed
exactly as long as it would still be accepted, and one with another intent is refused in any case.

The first two sections say what a ledger never loses of a run and what a dispatch under a used key
does; `dispatch_replay_iff` is the result over every run of the two machines.
-/

namespace MarkorbitKnowledge.Dispatch

open Contracts Fallible Transitions

theorem exists_error {ε α : Type} {x : Except ε α} (h : ∀ a, x ≠ .ok a) : ∃ e, x = .error e := by
  cases x with
  | error e => exact ⟨e, rfl⟩
  | ok a => exact absurd rfl (h a)

/-! ### The collection ledger -/

section Collection

open Execution
open Execution.Protocol (Coherent)
open Scheduler (Slotted slotted_step ticked_tick insertDispatch_run)
open Tables (KeysUnique)

/-- The checks a dispatch of a plan makes before it looks for its key. -/
def PlanDispatchable (db : Database) (planId : Id) : Prop :=
  ∃ plan source connector jobType, loadPlan db planId = .ok plan ∧
    loadSource db plan.sourceId = .ok source ∧
    loadConnector db source .connectorNotFound = .ok connector ∧
    validateDispatch plan source connector = .ok jobType

/-- A dispatch that returns the stored run `runId` and writes nothing. -/
def ReplaysCollectionRun (input : ManualDispatchInput) (now : Timestamp) (newRunId newJobId : Id)
    (db : Database) (runId : Id) : Prop :=
  ∃ record, dispatchManual input now newRunId newJobId db =
    .ok ({ record, replayed := true }, db) ∧ record.run.id = runId

/-- The runs keep their identity, and the plans their workspace. -/
structure Keeps (db db' : Database) : Prop where
  runs : db.runs.map runIdentity <+: db'.runs.map runIdentity
  plans : ∀ plan ∈ db.plans, ∃ plan' ∈ db'.plans, plan'.id = plan.id ∧
    plan'.workspaceId = plan.workspaceId

namespace Keeps

variable {db db' db'' : Database}

theorem of_same_plans (hruns : db.runs.map runIdentity <+: db'.runs.map runIdentity)
    (hplans : db'.plans = db.plans) : Keeps db db' :=
  ⟨hruns, fun plan hplan => ⟨plan, hplans ▸ hplan, rfl, rfl⟩⟩

theorem refl (db : Database) : Keeps db db := of_same_plans (List.prefix_refl _) rfl

theorem trans (h : Keeps db db') (h' : Keeps db' db'') : Keeps db db'' where
  runs := h.runs.trans h'.runs
  plans plan hplan := by
    obtain ⟨plan', hplan', hid, hworkspace⟩ := h.plans plan hplan
    obtain ⟨plan'', hplan'', hid', hworkspace'⟩ := h'.plans plan' hplan'
    exact ⟨plan'', hplan'', hid'.trans hid, hworkspace'.trans hworkspace⟩

end Keeps

theorem savePlan_keeps (plan : CollectionPlan) {db : Database} (hkeys : KeysUnique db.plans) :
    Keeps db (commit (savePlan plan) db).2 := by
  refine commit_rel (R := fun s s' => KeysUnique s.plans → Keeps s s') (fun _ => .refl db)
    (fun _ db' hsave hkeys => ?_) hkeys
  obtain ⟨-, ⟨-, rfl⟩ | ⟨current, hcurrent, hworkspace, hsource, rfl⟩⟩ := savePlan_spec hsave
  · exact ⟨List.prefix_refl _, fun plan hplan => ⟨plan, List.mem_append_left _ hplan, rfl, rfl⟩⟩
  · refine ⟨List.prefix_refl _, fun stored hstored =>
      Tables.exists_mem_update (fun x hx hk hP => ?_) ⟨stored, hstored, rfl, rfl⟩⟩
    have hid : x.id = current.id := hk.trans (Tables.key_of_find? hcurrent).symm
    have : x = current := hkeys.eq_of_key hx (Tables.mem_of_find? hcurrent) hid
    subst this
    exact ⟨hk.symm.trans hP.1, hworkspace.trans hP.2⟩

theorem insertDispatch_keeps {db db' : Database} {run : CollectionRun} {job : Job}
    (h : insertDispatch db run job = .ok db') : Keeps db db' := by
  obtain ⟨hruns, hplans, -, -, -⟩ := insertDispatch_run h
  refine .of_same_plans ?_ hplans
  rw [hruns, List.map_append]
  exact List.prefix_append _ _

/-- What every state of the execution machine satisfies, as far as a replay needs it. -/
structure Ready (options : WorkerProtocolOptions) (db : Database) : Prop where
  coherent : Coherent (view db)
  valid : Valid options db
  slotted : Slotted db.plans (db.runs.map runIdentity)

variable (platform : Platform) (options : WorkerProtocolOptions)

theorem ready_empty : Ready options Database.empty :=
  ⟨Protocol.coherent_empty, valid_empty, Scheduler.slotted_empty⟩

theorem Ready.step {db : Database} (h : Ready options db) (op : Op) :
    Ready options (step platform options db op) where
  coherent := Protocol.coherent_of_steps h.coherent (steps_of_step platform options h.coherent op)
  valid := valid_step platform options h.coherent h.valid op
  slotted := (slotted_step platform options h.coherent h.slotted op).1

theorem keeps_step {db : Database} (h : Ready options db) (op : Op) :
    Keeps db (step platform options db op) := by
  by_cases hop : op.isExecution = true
  · have hframe := (execution_refined platform options h.coherent hop).frame
    exact .of_same_plans (hframe.runs ▸ List.prefix_refl _) hframe.elsewhere.plans
  · cases op with
    | savePlan plan => exact savePlan_keeps plan h.slotted.planKeys
    | saveCatalogue => exact .of_same_plans (List.prefix_refl _) rfl
    | dispatchManual =>
      refine commit_rel (R := Keeps) (.refl db) fun _ _ hdispatch => ?_
      rcases dispatchManual_spec hdispatch with rfl | ⟨_, _, _, _, _, -, -, hinsert⟩
      · exact .refl _
      · exact insertDispatch_keeps hinsert
    | tick input ids crash =>
      obtain ⟨_, hticked⟩ := ticked_tick platform h.slotted input ids crash
      obtain ⟨fresh, hruns, -, -⟩ := hticked.runs
      refine .of_same_plans ?_ hticked.plans
      rw [Execution.step, hruns, List.map_append]
      exact List.prefix_append _ _
    | getScheduleState planId now =>
      have honly := getState_onlyState platform planId now db
      exact .of_same_plans (by rw [Execution.step, honly.runs]) honly.plans
    | _ => exact absurd rfl hop

/-- A run of the machine keeps the tables ready, and its runs and plans. -/
theorem ready_keeps_runFrom {db : Database} (h : Ready options db) (ops : List Op) :
    Ready options ((machine platform options).runFrom db ops) ∧
      Keeps db ((machine platform options).runFrom db ops) :=
  Machine.runFrom_invariant (P := fun current => Ready options current ∧ Keeps db current)
    (fun _ op hcurrent => ⟨hcurrent.1.step platform options op,
      hcurrent.2.trans (keeps_step platform options hcurrent.1 op)⟩) ⟨h, .refl db⟩ ops

variable {options} {db db' : Database} {input : ManualDispatchInput} {now : Timestamp}
  {newRunId newJobId : Id} {result : ManualDispatchResult} {key : String} {run : CollectionRun}

/-- The run was dispatched by hand under `key`, for what this call asks. -/
structure DispatchedBy (input : ManualDispatchInput) (key : String) (run : RunIdentity) : Prop where
  planId : run.planId = input.planId
  triggerType : run.triggerType = .manual
  key : run.idempotencyKey = some key
  extensions : run.extensions = input.extensions

theorem loadPlan_eq_ok {planId : Id} {plan : CollectionPlan} (h : loadPlan db planId = .ok plan) :
    plan ∈ db.plans ∧ plan.id = planId := by
  simp only [loadPlan, bind_eq_ok, orThrow_eq_ok, parsePlan_eq_ok] at h
  obtain ⟨_, hfind, -, rfl⟩ := h
  exact ⟨Tables.mem_of_find? hfind, Tables.key_of_find? hfind⟩

theorem recordFromRun_run {record : ExecutionRunRecord} (h : recordFromRun db run = .ok record) :
    record.run = run := by
  simp only [recordFromRun, bind_eq_ok, parseRun_eq_ok, pure_eq_ok] at h
  obtain ⟨_, ⟨-, rfl⟩, _, -, rfl⟩ := h
  rfl

/-- The stored runs and jobs can be read. -/
theorem Ready.recordFromRun (h : Ready options db) (hrun : run ∈ db.runs) :
    ∃ jobs, recordFromRun db run = .ok ⟨run, jobs⟩ := by
  have hjobs : ∀ job ∈ (db.jobs.filter fun job => decide (job.runId = run.id)).insertionSort jobOrder,
      isJob job = true := by
    intro job hjob
    rw [List.mem_insertionSort] at hjob
    exact h.valid.jobs job (List.mem_of_mem_filter hjob)
  simp only [Execution.recordFromRun, jobsForRun, bind_eq_ok, parseRun_eq_ok, pure_eq_ok,
    mapM_guarded (fun _ _ => parseJob_eq_ok), List.map_id']
  exact ⟨_, run, ⟨h.valid.runs run hrun, rfl⟩, _, ⟨hjobs, rfl⟩, rfl⟩

theorem runWithKey_spec {workspaceId : Id} (h : runWithKey db workspaceId key = some run) :
    run ∈ db.runs ∧ run.workspaceId = workspaceId ∧ run.trigger.idempotencyKey = some key := by
  have hkeyed := List.find?_some h
  simp only [Bool.and_eq_true, decide_eq_true_eq] at hkeyed
  exact ⟨List.mem_of_find?_eq_some h, hkeyed⟩

/-- The run a successful dispatch under a key returns is stored under it, for the plan asked for. -/
theorem dispatchManual_stored
    (hkey : input.idempotencyKey.mapM normalizeIdempotencyKey = .ok (some key))
    (h : dispatchManual input now newRunId newJobId db = .ok (result, db')) :
    result.record.run ∈ db'.runs ∧ DispatchedBy input key (runIdentity result.record.run) ∧
      ∃ plan ∈ db'.plans, plan.id = input.planId ∧
        plan.workspaceId = result.record.run.workspaceId := by
  simp only [dispatchManual, bind_eq_ok] at h
  obtain ⟨plan, hplan, source, -, connector, -, jobType, -, stored, hstored, h⟩ := h
  obtain rfl : some key = stored := Except.ok.inj (hkey.symm.trans hstored)
  obtain ⟨hmem, hid⟩ := loadPlan_eq_ok hplan
  rw [Option.bind_some] at h
  split at h
  · rename_i existing hfind
    obtain ⟨hrun, hworkspace, hkeyed⟩ := runWithKey_spec hfind
    simp only [replayDispatch, bind_eq_ok, require_eq_ok, pure_eq_ok, Prod.mk.injEq] at h
    obtain ⟨_, ⟨record, hrecord, _, ⟨hplanId, hmanual, hext⟩, rfl⟩, rfl, rfl⟩ := h
    obtain rfl := recordFromRun_run hrecord
    rw [extensionsMatch, decide_eq_true_eq] at hext
    exact ⟨hrun, ⟨hplanId.trans hid, hmanual, hkeyed, hext⟩, plan, hmem, hid, hworkspace.symm⟩
  · simp only [bind_eq_ok, require_eq_ok, pure_eq_ok, Prod.mk.injEq] at h
    obtain ⟨actor, -, _, -, _, hinsert, rfl, rfl⟩ := h
    obtain ⟨hruns, hplans, -, -, -⟩ := insertDispatch_run hinsert
    rw [hruns, hplans]
    exact ⟨List.mem_append_right _ List.mem_cons_self, ⟨hid, rfl, rfl, rfl⟩, plan, hmem, hid, rfl⟩

/-- A dispatch under a key that is taken in the workspace of its plan. -/
theorem dispatchManual_repeated (h : Ready options db) {stored : RunIdentity}
    (hstored : stored ∈ db.runs.map runIdentity) (hused : stored.idempotencyKey = some key)
    (hkey : input.idempotencyKey.mapM normalizeIdempotencyKey = .ok (some key))
    (hworkspace : ∀ plan, loadPlan db input.planId = .ok plan →
      plan.workspaceId = stored.workspaceId) :
    (PlanDispatchable db input.planId → DispatchedBy input key stored →
      ReplaysCollectionRun input now newRunId newJobId db stored.id) ∧
    (dispatchManual input now newRunId newJobId db = .ok (result, db') →
      PlanDispatchable db input.planId ∧ DispatchedBy input key stored) := by
  have hfind : ∀ plan, loadPlan db input.planId = .ok plan → ∃ run ∈ db.runs,
      runWithKey db plan.workspaceId key = some run ∧ runIdentity run = stored := by
    intro plan hplan
    obtain ⟨first, hfirst, rfl⟩ := List.mem_map.mp hstored
    have hsome : (runWithKey db plan.workspaceId key).isSome = true := by
      refine List.find?_isSome.mpr ⟨first, hfirst, ?_⟩
      simp only [Bool.and_eq_true, decide_eq_true_eq]
      exact ⟨(hworkspace plan hplan).symm, hused⟩
    obtain ⟨run, hrun⟩ := Option.isSome_iff_exists.mp hsome
    obtain ⟨hmem, hsame, hkeyed⟩ := runWithKey_spec hrun
    refine ⟨run, hmem, hrun, h.slotted.keys _ (List.mem_map_of_mem hmem) _ hstored ?_ ?_ ?_⟩
    · exact hsame.trans (hworkspace plan hplan)
    · exact Option.isSome_iff_exists.mpr ⟨key, hkeyed⟩
    · exact hkeyed.trans hused.symm
  constructor
  · rintro ⟨plan, source, connector, jobType, hplan, hsource, hconnector, htype⟩ hby
    obtain ⟨run, hrun, hrunKey, rfl⟩ := hfind plan hplan
    obtain ⟨jobs, hrecord⟩ := h.recordFromRun hrun
    have hreplay : replayDispatch db plan input.extensions run
        "Idempotency key was already used for a different dispatch" =
          .ok { record := ⟨run, jobs⟩, replayed := true } := by
      simp only [replayDispatch, hrecord, ok_bind, bind_eq_ok, require_eq_ok, pure_eq_ok]
      exact ⟨(), ⟨hby.planId.trans (loadPlan_eq_ok hplan).2.symm, hby.triggerType,
        decide_eq_true hby.extensions⟩, trivial⟩
    refine ⟨⟨run, jobs⟩, ?_, rfl⟩
    rw [dispatchManual, hplan, ok_bind, hsource, ok_bind, hconnector, ok_bind, htype, ok_bind, hkey,
      ok_bind, Option.bind_some, hrunKey]
    simp only [hreplay, ok_bind, pure_eq_ok]
  · intro hok
    simp only [dispatchManual, bind_eq_ok] at hok
    obtain ⟨plan, hplan, source, hsource, connector, hconnector, jobType, htype, found, hfound, hok⟩ :=
      hok
    obtain rfl : some key = found := Except.ok.inj (hkey.symm.trans hfound)
    obtain ⟨run, hrun, hrunKey, rfl⟩ := hfind plan hplan
    refine ⟨⟨plan, source, connector, jobType, hplan, hsource, hconnector, htype⟩, ?_⟩
    rw [Option.bind_some, hrunKey] at hok
    simp only [replayDispatch, bind_eq_ok, require_eq_ok, pure_eq_ok, Prod.mk.injEq] at hok
    obtain ⟨_, ⟨record, hrecord, _, ⟨hplanId, hmanual, hext⟩, -⟩, -⟩ := hok
    obtain rfl := recordFromRun_run hrecord
    rw [extensionsMatch, decide_eq_true_eq] at hext
    exact ⟨hplanId.trans (loadPlan_eq_ok hplan).2, hmanual, hused, hext⟩

end Collection

/-! ### The conversion ledger -/

section Conversion

open Conversion Recovery

variable {platform : ConversionPlatform} {db db' : ConversionDatabase}

/-- What the digest of a dispatch covers, for an artifact with this evidence. -/
def intentOf (input : ManualConversionDispatchInput) (evidence : ConversionInputEvidence) :
    ConversionIntent where
  workspaceId := input.workspaceId
  rawArtifactId := input.rawArtifactId
  conversionProfileId := input.conversionProfileId
  targetPathTemplate := input.targetPathTemplate
  trigger := input.trigger.getD .manual
  input := evidence

/-- Two calls ask for the same: the artifact, the profile, the output and the trigger. -/
structure SameIntent (input other : ManualConversionDispatchInput) : Prop where
  workspace : input.workspaceId = other.workspaceId
  artifact : input.rawArtifactId = other.rawArtifactId
  profile : input.conversionProfileId = other.conversionProfileId
  output : input.targetPathTemplate = other.targetPathTemplate
  trigger : input.trigger.getD .manual = other.trigger.getD .manual

theorem intentOf_eq_iff {input other : ManualConversionDispatchInput}
    {evidence evidence' : ConversionInputEvidence} :
    intentOf input evidence = intentOf other evidence' ↔ SameIntent input other ∧ evidence = evidence' := by
  simp only [intentOf, ConversionIntent.mk.injEq]
  constructor
  · rintro ⟨hworkspace, hartifact, hprofile, houtput, htrigger, hevidence⟩
    exact ⟨⟨hworkspace, hartifact, hprofile, houtput, htrigger⟩, hevidence⟩
  · rintro ⟨hsame, hevidence⟩
    exact ⟨hsame.workspace, hsame.artifact, hsame.profile, hsame.output, hsame.trigger, hevidence⟩

/-- The checks a dispatch makes before it stores a run with its first event: these are the two. -/
structure AcceptsRun (catalogue : ConversionCatalogue) (input : ManualConversionDispatchInput)
    (now : Timestamp) (newRunId newEventId : Id) (run : ConversionRun)
    (event : ConversionExecutionEvent) : Prop where
  checked : ∃ artifact profile manifest actor, availableArtifact catalogue input = .ok artifact ∧
    activeProfile catalogue input artifact = .ok profile ∧
    activeManifest catalogue profile.converter = .ok manifest ∧
    (profile.input.accepts artifact.artifactKind artifact.mimeType = true ∧
      converterAccepts manifest artifact.artifactKind artifact.mimeType = true) ∧
    input.targetPathTemplate = profile.targetPathTemplate ∧
    actorOf input.actor = .ok actor ∧
    dispatchedRun input artifact profile manifest (trim input.idempotencyKey) newRunId now = run ∧
    createdEvent run actor newEventId = event
  valid : isConversionRun run = true ∧ isConversionExecutionEvent event = true

/-- A dispatch passes the checks it makes before it looks for its key, and reads this evidence of the
    artifact. -/
def ArtifactDispatchable (catalogue : ConversionCatalogue) (input : ManualConversionDispatchInput)
    (now : Timestamp) (newRunId newEventId : Id) (evidence : ConversionInputEvidence) : Prop :=
  ∃ run event, AcceptsRun catalogue input now newRunId newEventId run event ∧ run.input = evidence

/-- A dispatch that returns the stored run `runId` and writes nothing. -/
def ReplaysConversionRun (platform : ConversionPlatform) (catalogue : ConversionCatalogue)
    (input : ManualConversionDispatchInput) (now : Timestamp) (newRunId newEventId : Id)
    (db : ConversionDatabase) (runId : Id) : Prop :=
  ∃ record, dispatchManual platform catalogue input now newRunId newEventId db =
    .ok ({ record, replayed := true }, db) ∧ record.run.id = runId

/-! ### The digests of the runs -/

/-- The columns of a row that no call rewrites. -/
def dispatchDigest (row : RunRow) : Id × Digest := (row.run.id, row.dispatchIntentDigest)

theorem digests_updateRun (db : ConversionDatabase) (run : ConversionRun) :
    (updateRun db run).runs.map dispatchDigest = db.runs.map dispatchDigest := by
  rw [updateRun, List.map_map]
  refine List.map_congr_left fun row _ => ?_
  by_cases hid : row.run.id = run.id <;> simp [dispatchDigest, hid]

/-- The digests of the runs of `db` are those of `db'`. -/
def SameDigests (db db' : ConversionDatabase) : Prop :=
  db'.runs.map dispatchDigest = db.runs.map dispatchDigest

theorem applyVerifierTransition_digests {request : VerifierRequest} {conversionRunId : Id}
    {occurredAt : Timestamp} {eventId : Id} {result : ConversionRuntimeTransitionResult}
    (h : applyVerifierTransition platform request conversionRunId occurredAt eventId db =
      .ok (result, db')) : SameDigests db db' := by
  simp only [applyVerifierTransition, bind_eq_ok] at h
  obtain ⟨_, -, h⟩ := h
  split at h
  · simp only [pure_eq_ok, Prod.mk.injEq] at h
    obtain ⟨-, rfl⟩ := h
    rfl
  · simp only [acceptRequest, bind_eq_ok, pure_eq_ok, Prod.mk.injEq] at h
    obtain ⟨_, -, _, -, _, -, _, -, _, -, ⟨_, _⟩, hstored, -, rfl⟩ := h
    obtain ⟨-, -, -, -, rfl⟩ := storeTransition_eq_ok.mp hstored
    exact digests_updateRun db _

/-- A dispatch may add a run; the digests of the stored runs stay as they are. -/
theorem body_digests {call : ConversionCall} {outcome : ConversionOutcome}
    (h : body platform call db = .ok (outcome, db')) :
    db.runs.map dispatchDigest <+: db'.runs.map dispatchDigest := by
  have hsame : SameDigests db db' → db.runs.map dispatchDigest <+: db'.runs.map dispatchDigest :=
    fun hsame => hsame ▸ List.prefix_refl _
  cases call <;> simp only [body, bind_eq_ok, pure_eq_ok, Prod.mk.injEq] at h <;>
    obtain ⟨⟨result, _⟩, h, rfl, rfl⟩ := h
  case dispatchManual =>
    rcases dispatchManual_cases h with ⟨rfl, -⟩ | hdispatched
    · exact List.prefix_refl _
    · obtain ⟨digest, hruns⟩ := hdispatched.runs
      rw [hruns, List.map_append]
      exact List.prefix_append _ _
  case cancel =>
    simp only [cancel, bind_eq_ok, pure_eq_ok, Prod.mk.injEq, insertEvent_eq_ok] at h
    obtain ⟨_, -, _, -, _, -, _, -, _, -, _, -, _, -, _, ⟨-, -, rfl⟩, -, rfl⟩ := h
    exact hsame (digests_updateRun db _)
  case claim =>
    rcases claim_cases h with ⟨-, rfl, -⟩ | ⟨-, rfl⟩ | ⟨_, _, _, -, hclaimed⟩
    · exact List.prefix_refl _
    · exact hsame rfl
    · obtain ⟨_, _, -, -, -, -, rfl⟩ := claimRun_eq_ok.mp hclaimed
      exact hsame rfl
  case renewLease =>
    simp only [renewLease, bind_eq_ok, pure_eq_ok, Prod.mk.injEq] at h
    obtain ⟨_, -, _, -, _, -, _, -, _, -, _, -, _, -, -, rfl⟩ := h
    exact hsame rfl
  case releaseBeforeStart =>
    simp only [releaseBeforeStart, closeBeforeStart, bind_eq_ok, pure_eq_ok, Prod.mk.injEq] at h
    obtain ⟨_, -, _, -, _, -, _, -, _, -, _, -, -, rfl⟩ := h
    exact hsame rfl
  case expireBeforeStart =>
    simp only [expireBeforeStart, closeBeforeStart, bind_eq_ok, pure_eq_ok, Prod.mk.injEq] at h
    obtain ⟨_, -, _, -, _, -, _, -, _, -, _, -, -, rfl⟩ := h
    exact hsame rfl
  case submitReport =>
    rcases submitReport_spec h with ⟨rfl, -⟩ | ⟨_, _, _, _, _, haccepted⟩
    · exact List.prefix_refl _
    · obtain ⟨-, -, -, rfl, rfl⟩ := storeTransition_eq_ok.mp haccepted.stored
      obtain ⟨-, -, rfl⟩ := insertReport_eq_ok.mp haccepted.fresh
      exact hsame (digests_updateRun db _)
  case completeVerification =>
    simp only [completeVerification, bind_eq_ok] at h
    obtain ⟨_, -, _, -, _, -, h⟩ := h
    exact hsame (applyVerifierTransition_digests h)
  case failVerification =>
    simp only [failVerification, bind_eq_ok] at h
    obtain ⟨_, -, _, -, _, -, h⟩ := h
    exact hsame (applyVerifierTransition_digests h)
  case reconcileExpiredStartedLease =>
    simp only [reconcileExpiredStartedLease, bind_eq_ok] at h
    obtain ⟨_, -, _, -, _, -, h⟩ := h
    exact hsame (applyVerifierTransition_digests h)

/-- A run of the store, and the digest of the dispatch that stored it. -/
def RunUnder (platform : ConversionPlatform) (db : ConversionDatabase) (intent : ConversionIntent)
    (idempotencyKey : String) (runId : Id) : Prop :=
  ∃ row ∈ db.runs, row.run.id = runId ∧ row.run.workspaceId = intent.workspaceId ∧
    row.run.idempotencyKey = idempotencyKey ∧ row.dispatchIntentDigest = platform.hashIntent intent

theorem runUnder_perform (hs : Sound db) {intent : ConversionIntent} {idempotencyKey : String}
    {runId : Id} (h : RunUnder platform db intent idempotencyKey runId) (call : ConversionCall) :
    RunUnder platform (perform platform db call).2 intent idempotencyKey runId := by
  obtain ⟨row, hrow, rfl, hworkspace, hkey, hdigest⟩ := h
  have hleading : db.runs.map dispatchDigest <+: (perform platform db call).2.runs.map dispatchDigest :=
    commit_rel (R := fun s s' : ConversionDatabase =>
      s.runs.map dispatchDigest <+: s'.runs.map dispatchDigest) (List.prefix_refl _)
      fun _ _ hbody => body_digests hbody
  obtain ⟨row', hrow', hsame⟩ := List.mem_map.mp (hleading.subset (List.mem_map_of_mem hrow))
  obtain ⟨hid, hsameDigest⟩ := Prod.mk.inj hsame
  have hadvances : Advances db (perform platform db call).2 := perform_advances hs call
  obtain ⟨run, hrun, hkept⟩ := runsKept_advances hadvances _ _ (hs.stored.run? hrow)
  have hrun' := (hs.advances hadvances).stored.run? hrow'
  rw [hid, hrun, Option.some.injEq] at hrun'
  subst hrun'
  exact ⟨row', hrow', hid, hkept.workspace.trans hworkspace, hkept.key.trans hkey,
    hsameDigest.trans hdigest⟩

/-- What a run of the store keeps, as far as a replay needs it. -/
theorem runUnder_runFrom (hs : Sound db) (hkeys : KeysOnce db) {intent : ConversionIntent}
    {idempotencyKey : String} {runId : Id} (h : RunUnder platform db intent idempotencyKey runId)
    (calls : List ConversionCall) :
    Sound ((store platform).runFrom db calls) ∧ KeysOnce ((store platform).runFrom db calls) ∧
      RunUnder platform ((store platform).runFrom db calls) intent idempotencyKey runId :=
  Machine.runFrom_invariant (P := fun current => Sound current ∧ KeysOnce current ∧
      RunUnder platform current intent idempotencyKey runId)
    (fun _ call hcurrent => ⟨hcurrent.1.advances (perform_advances hcurrent.1 call),
      keysOnce_perform hcurrent.1 hcurrent.2.1 call, runUnder_perform hcurrent.1 hcurrent.2.2 call⟩)
    ⟨hs, hkeys, h⟩ calls

theorem sound_keysOnce_run (calls : List ConversionCall) :
    Sound ((store platform).run calls) ∧ KeysOnce ((store platform).run calls) :=
  Machine.run_invariant (M := store platform) (P := fun current => Sound current ∧ KeysOnce current)
    ⟨sound_empty, fun _ _ _ _ hrun => by cases hrun⟩
    (fun _ call hcurrent => ⟨hcurrent.1.advances (perform_advances hcurrent.1 call),
      keysOnce_perform hcurrent.1 hcurrent.2 call⟩) calls

variable {catalogue : ConversionCatalogue} {input : ManualConversionDispatchInput} {now : Timestamp}
  {newRunId newEventId : Id} {result : ManualConversionDispatchResult}
  {evidence : ConversionInputEvidence}

theorem availableArtifact_id {artifact : ConvertibleArtifact}
    (h : availableArtifact catalogue input = .ok artifact) : artifact.id = input.rawArtifactId := by
  simp only [availableArtifact, bind_eq_ok, orThrow_eq_ok, pure_eq_ok] at h
  obtain ⟨_, hfind, _, -, _, -, rfl⟩ := h
  simpa using List.find?_some hfind

theorem activeProfile_id {artifact : ConvertibleArtifact} {profile : ConversionProfile}
    (h : activeProfile catalogue input artifact = .ok profile) :
    profile.id = input.conversionProfileId := by
  simp only [activeProfile, bind_eq_ok, orThrow_eq_ok, pure_eq_ok] at h
  obtain ⟨_, hfind, _, -, _, -, _, -, _, -, rfl⟩ := h
  simpa using List.find?_some hfind

/-- The run a dispatch stores has the identity and the intent of the call. -/
theorem AcceptsRun.run {run : ConversionRun} {event : ConversionExecutionEvent}
    (h : AcceptsRun catalogue input now newRunId newEventId run event) :
    run.id = newRunId ∧ run.workspaceId = input.workspaceId ∧
      run.idempotencyKey = trim input.idempotencyKey ∧ run.status = .pending := by
  obtain ⟨_, _, _, _, -, -, -, -, -, -, rfl, -⟩ := h.checked
  exact ⟨rfl, rfl, rfl, rfl⟩

/-- A dispatch is its checks, followed by the insertion of its rows or the search for its key. -/
theorem dispatchManual_eq_ok (hkey : isIdempotencyKey (trim input.idempotencyKey) = true) :
    dispatchManual platform catalogue input now newRunId newEventId db = .ok (result, db') ↔
      ∃ run event, AcceptsRun catalogue input now newRunId newEventId run event ∧
        let digest := platform.hashIntent (intentOf input run.input)
        (insertDispatch db ⟨run, digest⟩ event = .ok db' ∧
            result = { record := { run, events := [event] }, replayed := false } ∨
          ∃ error, insertDispatch db ⟨run, digest⟩ event = .error error ∧ db' = db ∧
            replayDispatch db input.workspaceId (trim input.idempotencyKey) digest error =
              .ok result) := by
  have hintent : ∀ {artifact profile manifest}, availableArtifact catalogue input = .ok artifact →
      activeProfile catalogue input artifact = .ok profile →
      let run := dispatchedRun input artifact profile manifest (trim input.idempotencyKey) newRunId now
      ({ workspaceId := run.workspaceId, rawArtifactId := run.rawArtifactId
         conversionProfileId := profile.id, targetPathTemplate := run.targetPathTemplate
         trigger := run.trigger, input := run.input } : ConversionIntent) =
        intentOf input run.input := by
    intro artifact profile manifest hartifact hprofile
    simp [intentOf, dispatchedRun, availableArtifact_id hartifact, activeProfile_id hprofile]
  simp only [dispatchManual, idempotencyKeyOf, bind_eq_ok, require_eq_ok, pure_eq_ok]
  constructor
  · rintro ⟨_, ⟨_, -, rfl⟩, artifact, hartifact, profile, hprofile, manifest, hmanifest, _, haccepts, _,
      htarget, actor, hactor, _, hvalid, h⟩
    refine ⟨_, _, ⟨⟨artifact, profile, manifest, actor, hartifact, hprofile, hmanifest, haccepts,
      htarget, hactor, rfl, rfl⟩, hvalid⟩, ?_⟩
    rw [hintent hartifact hprofile] at h
    split at h
    · rename_i hinsert
      simp only [pure_eq_ok, Prod.mk.injEq] at h
      obtain ⟨rfl, rfl⟩ := h
      exact Or.inl ⟨hinsert, rfl⟩
    · rename_i error hinsert
      simp only [bind_eq_ok, pure_eq_ok, Prod.mk.injEq] at h
      obtain ⟨_, hreplay, rfl, rfl⟩ := h
      exact Or.inr ⟨error, hinsert, rfl, hreplay⟩
  · rintro ⟨_, _, ⟨⟨artifact, profile, manifest, actor, hartifact, hprofile, hmanifest, haccepts,
      htarget, hactor, rfl, rfl⟩, hvalid⟩, h⟩
    refine ⟨_, ⟨(), hkey, rfl⟩, artifact, hartifact, profile, hprofile, manifest, hmanifest, (),
      haccepts, (), htarget, actor, hactor, (), hvalid, ?_⟩
    rw [hintent hartifact hprofile]
    rcases h with ⟨hinsert, rfl⟩ | ⟨error, hinsert, rfl, hreplay⟩
    · rw [hinsert]
      rfl
    · simp only [hinsert, hreplay, ok_bind]
      rfl

theorem isIdempotencyKey_of_dispatched
    (h : dispatchManual platform catalogue input now newRunId newEventId db = .ok (result, db')) :
    isIdempotencyKey (trim input.idempotencyKey) = true := by
  simp only [dispatchManual, idempotencyKeyOf, bind_eq_ok, require_eq_ok] at h
  obtain ⟨_, ⟨_, hkey, -⟩, -⟩ := h
  exact hkey

theorem parseEvent_eq_ok {event event' : ConversionExecutionEvent} :
    parseEvent event = .ok event' ↔ isConversionExecutionEvent event = true ∧ event = event' := by
  simp [parseEvent]

/-- The events of a run can be read. -/
theorem Stored.listEvents (h : Stored db) (runId : Id) : ∃ events, listEvents db runId = .ok events := by
  simp only [Conversion.listEvents, mapM_guarded (fun _ _ => parseEvent_eq_ok), List.map_id']
  refine ⟨_, fun event hevent => ?_, rfl⟩
  rw [List.mem_insertionSort] at hevent
  exact h.events event (mem_eventsOfRun.mp hevent).1

/-- The run a successful dispatch returns is stored under its key, with the digest of its intent. -/
theorem dispatchManual_under
    (h : dispatchManual platform catalogue input now newRunId newEventId db = .ok (result, db')) :
    ∃ evidence, ArtifactDispatchable catalogue input now newRunId newEventId evidence ∧
      RunUnder platform db' (intentOf input evidence) (trim input.idempotencyKey)
        result.record.run.id := by
  obtain ⟨run, event, haccepts, h⟩ :=
    (dispatchManual_eq_ok (isIdempotencyKey_of_dispatched h)).mp h
  refine ⟨run.input, ⟨run, event, haccepts, rfl⟩, ?_⟩
  obtain ⟨-, hworkspace, hkey, -⟩ := haccepts.run
  rcases h with ⟨hinsert, rfl⟩ | ⟨error, -, rfl, hreplay⟩
  · obtain ⟨-, -, rfl⟩ := insertDispatch_eq_ok hinsert
    exact ⟨_, List.mem_append_right _ List.mem_cons_self, rfl, hworkspace, hkey, rfl⟩
  · simp only [replayDispatch, bind_eq_ok, orThrow_eq_ok, require_eq_ok, pure_eq_ok] at hreplay
    obtain ⟨row, hfind, _, hdigest, _, -, _, -, rfl⟩ := hreplay
    have hkeyed := List.find?_some hfind
    simp only [Bool.and_eq_true, decide_eq_true_eq] at hkeyed
    exact ⟨row, List.mem_of_find?_eq_some hfind, rfl, hkeyed.1, hkeyed.2, hdigest⟩

/-- A dispatch under a key that is taken in its workspace. -/
theorem dispatchManual_again (hs : Sound db) (hkeys : KeysOnce db) {intent : ConversionIntent}
    {runId : Id} (hworkspace : intent.workspaceId = input.workspaceId)
    (hkey : isIdempotencyKey (trim input.idempotencyKey) = true)
    (hunder : RunUnder platform db intent (trim input.idempotencyKey) runId) :
    (ArtifactDispatchable catalogue input now newRunId newEventId evidence →
      platform.hashIntent intent = platform.hashIntent (intentOf input evidence) →
      ReplaysConversionRun platform catalogue input now newRunId newEventId db runId) ∧
    (dispatchManual platform catalogue input now newRunId newEventId db = .ok (result, db') →
      ∃ evidence, ArtifactDispatchable catalogue input now newRunId newEventId evidence ∧
        platform.hashIntent intent = platform.hashIntent (intentOf input evidence)) := by
  obtain ⟨row, hrow, rfl, hrowWorkspace, hrowKey, hdigest⟩ := hunder
  -- The row is the only one under the key, so no other run can be inserted under it.
  have hfind : (db.runs.find? fun stored => decide (stored.run.workspaceId = input.workspaceId) &&
      decide (stored.run.idempotencyKey = trim input.idempotencyKey)) = some row := by
    have hsome : (db.runs.find? fun stored => decide (stored.run.workspaceId = input.workspaceId) &&
        decide (stored.run.idempotencyKey = trim input.idempotencyKey)).isSome = true := by
      refine List.find?_isSome.mpr ⟨row, hrow, ?_⟩
      simp [hrowWorkspace, hrowKey, hworkspace]
    obtain ⟨found, hfound⟩ := Option.isSome_iff_exists.mp hsome
    have hkeyed := List.find?_some hfound
    simp only [Bool.and_eq_true, decide_eq_true_eq] at hkeyed
    have hmem := List.mem_of_find?_eq_some hfound
    have hid := hkeys _ _ _ _ (hs.stored.run? hmem) (hs.stored.run? hrow)
      (hkeyed.1.trans (hrowWorkspace.trans hworkspace).symm) (hkeyed.2.trans hrowKey.symm)
    rw [hfound, hs.stored.runKeys.eq_of_key hmem hrow hid]
  have hblocked : ∀ {run event digest next}, AcceptsRun catalogue input now newRunId newEventId run event →
      insertDispatch db ⟨run, digest⟩ event ≠ .ok next := by
    intro run event digest next haccepts hinsert
    obtain ⟨-, hfree, -⟩ := insertDispatch_eq_ok hinsert
    obtain ⟨-, hrunWorkspace, hrunKey, -⟩ := haccepts.run
    exact hfree row hrow ((hrowWorkspace.trans hworkspace).trans hrunWorkspace.symm)
      (hrowKey.trans hrunKey.symm)
  constructor
  · rintro ⟨run, event, haccepts, rfl⟩ hsame
    obtain ⟨error, hinsert⟩ := exists_error fun next =>
      @hblocked run event (platform.hashIntent (intentOf input run.input)) next haccepts
    obtain ⟨events, hevents⟩ := Stored.listEvents hs.stored row.run.id
    refine ⟨⟨row.run, events⟩, (dispatchManual_eq_ok hkey).mpr
      ⟨run, event, haccepts, Or.inr ⟨error, hinsert, rfl, ?_⟩⟩, rfl⟩
    simp only [replayDispatch, bind_eq_ok, orThrow_eq_ok, require_eq_ok, pure_eq_ok]
    exact ⟨row, hfind, (), hdigest.trans hsame, (), hs.stored.runs row hrow, events, hevents, rfl⟩
  · intro hok
    obtain ⟨run, event, haccepts, h⟩ := (dispatchManual_eq_ok hkey).mp hok
    refine ⟨run.input, ⟨run, event, haccepts, rfl⟩, ?_⟩
    rcases h with ⟨hinsert, -⟩ | ⟨error, -, -, hreplay⟩
    · exact absurd hinsert (hblocked haccepts)
    · simp only [replayDispatch, bind_eq_ok, orThrow_eq_ok, require_eq_ok, pure_eq_ok] at hreplay
      obtain ⟨found, hfound, _, hsame, -⟩ := hreplay
      obtain rfl := Option.some.inj (hfind.symm.trans hfound)
      exact hdigest.symm.trans hsame

end Conversion

/-! ### Replay over a run -/

open Execution (Platform WorkerProtocolOptions) in
/-- In every run of either machine, a dispatch that repeats an earlier one, under its key and with its
    intent, is replayed if and only if it still passes the checks made before the key is looked up;
    if not, it fails, and so does any other dispatch under the key. -/
theorem dispatch_replay_iff (platform : Platform) (options : WorkerProtocolOptions)
    (digests : Conversion.ConversionPlatform) (hdigest : Function.Injective digests.hashIntent) :
    (∀ (before later : List Execution.Op) (first second : Execution.ManualDispatchInput)
        (now now' : Timestamp) (runId jobId runId' jobId' : Id)
        (result : Execution.ManualDispatchResult) (db : Execution.Database) (key : String),
      Execution.dispatchManual first now runId jobId ((Execution.machine platform options).run before) =
        .ok (result, db) →
      first.idempotencyKey.mapM Execution.normalizeIdempotencyKey = .ok (some key) →
      second.idempotencyKey.mapM Execution.normalizeIdempotencyKey = .ok (some key) →
      let db' := (Execution.machine platform options).runFrom db later
      (second.planId = first.planId → extensionsMatch second.extensions first.extensions = true →
        (ReplaysCollectionRun second now' runId' jobId' db' result.record.run.id ↔
          PlanDispatchable db' second.planId) ∧
        (¬ PlanDispatchable db' second.planId →
          ∃ error, Execution.dispatchManual second now' runId' jobId' db' = .error error)) ∧
      ((second.planId ≠ first.planId ∨ extensionsMatch second.extensions first.extensions = false) →
        (∀ plan, Execution.loadPlan db' second.planId = .ok plan →
          plan.workspaceId = result.record.run.workspaceId) →
        ∃ error, Execution.dispatchManual second now' runId' jobId' db' = .error error)) ∧
    (∀ (before later : List Conversion.ConversionCall)
        (catalogue catalogue' : Conversion.ConversionCatalogue)
        (first second : Conversion.ManualConversionDispatchInput) (now now' : Timestamp)
        (runId eventId runId' eventId' : Id) (result : Conversion.ManualConversionDispatchResult)
        (db : Conversion.ConversionDatabase),
      Conversion.dispatchManual digests catalogue first now runId eventId
        ((Conversion.store digests).run before) = .ok (result, db) →
      second.workspaceId = first.workspaceId →
      trim second.idempotencyKey = trim first.idempotencyKey →
      let db' := (Conversion.store digests).runFrom db later
      ∃ evidence, ArtifactDispatchable catalogue first now runId eventId evidence ∧
        (SameIntent second first →
          (ReplaysConversionRun digests catalogue' second now' runId' eventId' db' result.record.run.id ↔
            ArtifactDispatchable catalogue' second now' runId' eventId' evidence) ∧
          (¬ ArtifactDispatchable catalogue' second now' runId' eventId' evidence →
            ∃ error, Conversion.dispatchManual digests catalogue' second now' runId' eventId' db' =
              .error error)) ∧
        (¬ SameIntent second first →
          ∃ error, Conversion.dispatchManual digests catalogue' second now' runId' eventId' db' =
            .error error)) := by
  refine ⟨?_, ?_⟩
  · intro before later first second now now' runId jobId runId' jobId' result db key hfirst hkey hkey' db'
    -- The first dispatch is itself a call of the machine.
    have hready : Ready options ((Execution.machine platform options).run before) :=
      (ready_keeps_runFrom platform options (ready_empty options) before).1
    have hdb : Execution.step platform options ((Execution.machine platform options).run before)
        (.dispatchManual first now runId jobId) = db := by
      rw [Execution.step, commit_of_ok hfirst]
    have hready₁ : Ready options db := hdb ▸ hready.step platform options _
    obtain ⟨hrun, hby, plan, hplan, hplanId, hworkspace⟩ := dispatchManual_stored hkey hfirst
    obtain ⟨hready', hkeeps⟩ := ready_keeps_runFrom platform options hready₁ later
    have hstored := hkeeps.runs.subset (List.mem_map_of_mem hrun)
    have hused : (Execution.runIdentity result.record.run).idempotencyKey = some key := hby.key
    constructor
    · intro hsamePlan hsameExt
      have hsameExt : second.extensions = first.extensions := of_decide_eq_true hsameExt
      have hby' : DispatchedBy second key (Execution.runIdentity result.record.run) :=
        ⟨hby.planId.trans hsamePlan.symm, hby.triggerType, hby.key, hby.extensions.trans hsameExt.symm⟩
      have hplaces : ∀ plan', Execution.loadPlan db' second.planId = .ok plan' →
          plan'.workspaceId = (Execution.runIdentity result.record.run).workspaceId := by
        intro plan' hload
        obtain ⟨hmem, hid⟩ := loadPlan_eq_ok hload
        obtain ⟨kept, hkept, hkeptId, hkeptWorkspace⟩ := hkeeps.plans plan hplan
        have hsame : plan' = kept := hready'.slotted.planKeys.eq_of_key hmem hkept
          ((hid.trans hsamePlan).trans (hkeptId.trans hplanId).symm)
        rw [hsame]
        exact hkeptWorkspace.trans hworkspace
      refine ⟨⟨?_, fun h => ?_⟩, fun h => exists_error ?_⟩
      · rintro ⟨record, hreplay, -⟩
        exact ((dispatchManual_repeated hready' hstored hused hkey' hplaces).2 hreplay).1
      · exact (@dispatchManual_repeated options db' db' second now' runId' jobId' result key hready' _
          hstored hused hkey' hplaces).1 h hby'
      · rintro ⟨_, _⟩ hok
        exact h ((dispatchManual_repeated hready' hstored hused hkey' hplaces).2 hok).1
    · intro hother hplaces
      refine exists_error ?_
      rintro ⟨_, _⟩ hok
      have hby' := ((dispatchManual_repeated hready' hstored hused hkey' hplaces).2 hok).2
      rcases hother with hother | hother
      · exact hother (hby'.planId.symm.trans hby.planId)
      · rw [extensionsMatch, decide_eq_false_iff_not] at hother
        exact hother (hby'.extensions.symm.trans hby.extensions)
  · intro before later catalogue catalogue' first second now now' runId eventId runId' eventId' result db
      hfirst hworkspace hkey db'
    obtain ⟨hs, hkeys⟩ := @sound_keysOnce_run digests before
    have hdb : (Conversion.perform digests ((Conversion.store digests).run before)
        (.dispatchManual catalogue first now runId eventId)).2 = db := by
      have hbody : Conversion.body digests (.dispatchManual catalogue first now runId eventId)
          ((Conversion.store digests).run before) = .ok (.dispatched result, db) := by
        simp only [Conversion.body, hfirst, ok_bind]
        rfl
      rw [Conversion.perform, commit_of_ok hbody]
    have hs₁ : Conversion.Sound db := hdb ▸ hs.advances (Conversion.perform_advances hs _)
    have hkeys₁ : Recovery.KeysOnce db := hdb ▸ Recovery.keysOnce_perform hs hkeys _
    obtain ⟨evidence, haccepted, hunder⟩ := dispatchManual_under hfirst
    obtain ⟨hs', hkeys', hunder'⟩ := runUnder_runFrom hs₁ hkeys₁ hunder later
    rw [← hkey] at hunder'
    have hvalid : isIdempotencyKey (trim second.idempotencyKey) = true :=
      hkey ▸ isIdempotencyKey_of_dispatched hfirst
    refine ⟨evidence, haccepted, fun hsame => ?_, fun hother => exists_error ?_⟩
    · have hiff : (∃ replay, Conversion.dispatchManual digests catalogue' second now' runId' eventId' db' =
          .ok replay) → ArtifactDispatchable catalogue' second now' runId' eventId' evidence := by
        rintro ⟨⟨_, _⟩, hok⟩
        obtain ⟨evidence', haccepted', hhash⟩ :=
          (@dispatchManual_again digests db' _ catalogue' second now' runId' eventId' _ evidence hs' hkeys'
            _ _ hworkspace.symm hvalid hunder').2 hok
        obtain ⟨-, rfl⟩ := intentOf_eq_iff.mp (hdigest hhash)
        exact haccepted'
      refine ⟨⟨?_, fun h => ?_⟩, fun h => exists_error fun replay hok => h (hiff ⟨replay, hok⟩)⟩
      · rintro ⟨record, hreplay, -⟩
        exact hiff ⟨_, hreplay⟩
      · exact (@dispatchManual_again digests db' db' catalogue' second now' runId' eventId' result evidence
          hs' hkeys' _ _ hworkspace.symm hvalid hunder').1 h
            (congrArg _ (intentOf_eq_iff.mpr ⟨hsame, rfl⟩).symm)
    · rintro ⟨_, _⟩ hok
      obtain ⟨evidence', -, hhash⟩ :=
        (@dispatchManual_again digests db' _ catalogue' second now' runId' eventId' _ evidence hs' hkeys'
          _ _ hworkspace.symm hvalid hunder').2 hok
      exact hother (intentOf_eq_iff.mp (hdigest hhash).symm).1

/-! ### A repeated dispatch of each ledger -/

/-- A digest without collisions. -/
def intentNumber (intent : Conversion.ConversionIntent) : Digest :=
  Encodable.encode
    [intent.workspaceId, intent.rawArtifactId, intent.conversionProfileId, intent.trigger.ctorIdx,
      intent.input.artifactId, intent.input.artifactKind.ctorIdx, intent.input.sha256,
      intent.input.sizeBytes, Encodable.encode (intent.targetPathTemplate.toList.map Char.toNat),
      Encodable.encode (intent.input.mimeType.toList.map Char.toNat)]

theorem text_injective {s t : String} (h : s.toList.map Char.toNat = t.toList.map Char.toNat) : s = t :=
  String.toList_inj.mp (List.map_injective_iff.mpr (fun _ _ => Char.toNat_inj.mp) h)

theorem intentNumber_injective : Function.Injective intentNumber := by
  rintro ⟨workspace, artifact, profile, template, trigger, ⟨id, kind, mime, hash, size⟩⟩
    ⟨workspace', artifact', profile', template', trigger', ⟨id', kind', mime', hash', size'⟩⟩ h
  simp only [intentNumber, Encodable.encode_inj, List.cons.injEq, and_true] at h
  obtain ⟨rfl, rfl, rfl, htrigger, rfl, hkind, rfl, rfl, htemplate, hmime⟩ := h
  obtain rfl := Function.LeftInverse.injective ConversionTrigger.ofNat_ctorIdx htrigger
  obtain rfl := Function.LeftInverse.injective ArtifactKind.ofNat_ctorIdx hkind
  rw [text_injective htemplate, text_injective hmime]

def keyedDispatch : Execution.ManualDispatchInput :=
  { Execution.manualDispatch with idempotencyKey := some "nightly" }

/-- A plan that may be dispatched. -/
def webPlanStored : List Execution.Op :=
  [.saveCatalogue [Execution.webSource "https://example.org"] [Execution.webConnector],
    .savePlan Execution.webPlan]

def samplePdf : Conversion.ManualConversionDispatchInput where
  workspaceId := 1
  rawArtifactId := 7
  conversionProfileId := 5
  targetPathTemplate := "staging/out.md"
  trigger := none
  actor := none
  idempotencyKey := "dispatch"

def intentDigests : Conversion.ConversionPlatform :=
  { Conversion.sampleDigests with hashIntent := intentNumber }

/-- The catalogue after the artifact was converted. -/
def convertedCatalogue : Conversion.ConversionCatalogue :=
  { Conversion.sampleCatalogue with
    artifacts := Conversion.sampleCatalogue.artifacts.map fun artifact =>
      { artifact with status := .converted } }

/-- A later dispatch is replayed, in both ledgers. -/
theorem sample_dispatches_replayed :
    (let m := Execution.machine (Execution.samplePlatform fun _ => none) .default
     ReplaysCollectionRun keyedDispatch 5 2 2
      (m.run (webPlanStored ++ [.dispatchManual keyedDispatch 0 1 1, .reapExpired 3])) 1) ∧
    ReplaysConversionRun intentDigests Conversion.sampleCatalogue samplePdf 5 21 9
      ((Conversion.store intentDigests).run [Conversion.sampleDispatch, Conversion.sampleCancel]) 20 := by
  have hiff := dispatch_replay_iff (Execution.samplePlatform fun _ => none) .default intentDigests
    intentNumber_injective
  constructor
  · have hfirst : ∃ result db, Execution.dispatchManual keyedDispatch 0 1 1
        ((Execution.machine (Execution.samplePlatform fun _ => none) .default).run webPlanStored) =
          .ok (result, db) ∧ result.record.run.id = 1 ∧
        Execution.step (Execution.samplePlatform fun _ => none) .default
          ((Execution.machine (Execution.samplePlatform fun _ => none) .default).run webPlanStored)
          (.dispatchManual keyedDispatch 0 1 1) = db := ⟨_, _, rfl, rfl, rfl⟩
    obtain ⟨result, db, hok, hid, rfl⟩ := hfirst
    have hreplay := (hiff.1 webPlanStored [.reapExpired 3] keyedDispatch keyedDispatch 0 5 1 1 2 2 result _
      "nightly" hok rfl rfl).1 rfl rfl
    rw [hid] at hreplay
    exact hreplay.1.mpr ⟨Execution.webPlan, Execution.webSource "https://example.org",
      Execution.webConnector, .webCrawl, rfl, rfl, rfl, rfl⟩
  · have hfirst : ∃ result db, Conversion.dispatchManual intentDigests Conversion.sampleCatalogue samplePdf
        0 20 1 ((Conversion.store intentDigests).run []) = .ok (result, db) ∧ result.record.run.id = 20 ∧
        (Conversion.perform intentDigests ((Conversion.store intentDigests).run [])
          Conversion.sampleDispatch).2 = db := ⟨_, _, rfl, rfl, rfl⟩
    obtain ⟨result, db, hok, hid, rfl⟩ := hfirst
    obtain ⟨evidence, ⟨run, event, haccepts, rfl⟩, hsame, -⟩ := hiff.2 [] [Conversion.sampleCancel]
      Conversion.sampleCatalogue Conversion.sampleCatalogue samplePdf samplePdf 0 5 20 1 21 9 result _ hok
      rfl rfl
    obtain ⟨artifact, _, _, _, hartifact, -, -, -, -, -, rfl, -⟩ := haccepts.checked
    obtain rfl : ({ id := 7, workspaceId := 1, sourceId := 2, status := .readyForConversion
                    artifactKind := .pdf, mimeType := "application/pdf", binaryHash := 11
                    sizeBytes := 4 } : Conversion.ConvertibleArtifact) = artifact :=
      Except.ok.inj hartifact
    have hreplay := (hsame ⟨rfl, rfl, rfl, rfl, rfl⟩).1
    rw [hid] at hreplay
    exact hreplay.mpr ⟨_, _, ⟨⟨_, _, _, _, rfl, rfl, rfl, ⟨rfl, rfl⟩, rfl, rfl, rfl, rfl⟩, by decide⟩, rfl⟩

/-- A dispatch that is repeated after the plan was paused, or after the artifact was converted, throws. -/
theorem later_dispatches_refused :
    (let m := Execution.machine (Execution.samplePlatform fun _ => none) .default
     let db := m.run (webPlanStored ++ [.dispatchManual keyedDispatch 0 1 1,
       .savePlan { Execution.webPlan with status := .paused }])
     db.runs.map (·.trigger.idempotencyKey) = [some "nightly"] ∧
       Execution.dispatchManual keyedDispatch 5 2 2 db =
        .error (.conflict "EXECUTION_PLAN_NOT_ACTIVE" "Only an active plan can be dispatched")) ∧
    (let db := (Conversion.store intentDigests).run [Conversion.sampleDispatch]
     db.runs.map (·.run.idempotencyKey) = ["dispatch"] ∧
       Conversion.dispatchManual intentDigests convertedCatalogue samplePdf 5 21 9 db =
        .error (.conflict "CONVERSION_ARTIFACT_NOT_AVAILABLE"
          "RawArtifact is not available for conversion")) := by
  exact ⟨⟨rfl, rfl⟩, rfl, rfl⟩

end MarkorbitKnowledge.Dispatch
