import MarkorbitKnowledge.Conversion.Agreement
import Mathlib.Data.List.ReduceOption

/-!
# When a started attempt can report its output

A claim fixes two expiries, that of the lease and that of the upload grant, and a renewal moves only
the first.  `outputReady_accepted_iff` says exactly when the report of a finished output is taken: its
instant lies between the start of the run and the expiry of the grant, however often the lease was
renewed.
-/

namespace MarkorbitKnowledge.Conversion

open Contracts Fallible Tables Transitions EventLog
open Execution (RegistryError)

/-! ### The actor of a report -/

theorem workerActor_isValid (workerId : Id) : (workerActor workerId).isValid = true := by
  have htext : (idText "wrk" workerId).toList = 'w' :: 'r' :: 'k' :: '_' :: encodeBase32 workerId 26 :=
    toList_idText "wrk" workerId
  have hlength := length_encodeBase32 workerId 26
  have hchars : ∀ c ∈ encodeBase32 workerId 26, c ∈ CROCKFORD := mem_encodeBase32
  have hactor : isActorId (idText "wrk" workerId) = true := by
    simp only [isActorId, htext, Bool.and_eq_true, List.all_cons, List.all_eq_true]
    refine ⟨⟨by decide, by simp [hlength]⟩, by decide, by decide, by decide, fun c hc => ?_⟩
    simp [isAlnum_of_crockford (hchars c hc)]
  have hworker : isWorkerId (idText "wrk" workerId) = true := by
    have hprefix : "wrk_".toList = ['w', 'r', 'k', '_'] := rfl
    simp only [isWorkerId, htext, hprefix, Bool.and_eq_true, List.all_eq_true, decide_eq_true_eq]
    exact ⟨⟨by simp, by simp [hlength]⟩, hchars⟩
  simp [ConversionActor.isValid, workerActor, hactor, hworker]

/-! ### The grants -/

/-- The attempt an upload grant was issued for. -/
structure GrantOf (grant : StagingOutputUploadGrant) (attempt : ConversionAttempt) : Prop where
  issuedFor : grant.conversionAttemptId = attempt.id
  worker : grant.workerId = attempt.workerId
  workspace : grant.workspaceId = attempt.workspaceId

/-- Every upload grant of a run was issued for an attempt at it. -/
def GrantsAgree (h : RunHistory) : Prop :=
  ∀ grant ∈ h.uploadGrants, ∃ attempt ∈ h.attempts, GrantOf grant attempt

/-- An update that keeps who an attempt belongs to keeps the grants. -/
theorem grantOf_update {attempts : List ConversionAttempt} (hkeys : KeysUnique attempts)
    {attempt next : ConversionAttempt} (hattempt : attempt ∈ attempts)
    (hsame : next.id = attempt.id ∧ next.workerId = attempt.workerId ∧
      next.workspaceId = attempt.workspaceId) {grant : StagingOutputUploadGrant}
    (hgrant : ∃ attempt ∈ attempts, GrantOf grant attempt) :
    ∃ attempt ∈ update attempts next, GrantOf grant attempt := by
  refine exists_mem_update (fun stored hstored hk hof => ?_) hgrant
  obtain ⟨hid, hworker, hworkspace⟩ := hsame
  obtain rfl := hkeys.eq_of_key hstored hattempt (hk.trans hid)
  exact ⟨hof.issuedFor.trans hid.symm, hof.worker.trans hworker.symm,
    hof.workspace.trans hworkspace.symm⟩

theorem moved_owner {run : ConversionRun} {attempt : ConversionAttempt} {lease : ConversionLease}
    {t : Transition} (h : Moved run attempt lease t) : t.attempt.id = attempt.id ∧
      t.attempt.workerId = attempt.workerId ∧ t.attempt.workspaceId = attempt.workspaceId := by
  cases h <;> exact ⟨rfl, rfl, rfl⟩

theorem grantsAgree_step {h h' : RunHistory} (hkeys : KeysUnique h.attempts) (hstep : RunStep h h')
    (hgrants : GrantsAgree h) : GrantsAgree h' := by
  cases hstep with
  | dispatched => exact hgrants
  | cancelled => exact hgrants
  | @claimed run attempt lease issued _ _ _ _ _ _ _ _ hissued =>
    intro grant hgrant
    rcases List.mem_append.mp hgrant with hgrant | hgrant
    · obtain ⟨attempt, hattempt, hof⟩ := hgrants grant hgrant
      exact ⟨attempt, List.mem_append_left _ hattempt, hof⟩
    · obtain rfl := List.mem_singleton.mp hgrant
      exact ⟨attempt, by simp, hissued.1, hissued.2.1, hissued.2.2⟩
  | renewed => exact hgrants
  | @closed lease attempt closing code now _ _ hattempt =>
    intro grant hgrant
    have hsame : (closing.endedAttempt attempt code now).id = attempt.id ∧
        (closing.endedAttempt attempt code now).workerId = attempt.workerId ∧
        (closing.endedAttempt attempt code now).workspaceId = attempt.workspaceId := ⟨rfl, rfl, rfl⟩
    exact grantOf_update hkeys hattempt hsame (hgrants grant hgrant)
  | moved _ hattempt _ _ hmoved =>
    intro grant hgrant
    exact grantOf_update hkeys hattempt (moved_owner hmoved) (hgrants grant hgrant)

theorem grantsAgree_run (platform : ConversionPlatform) (calls : List ConversionCall) (runId : Id) :
    GrantsAgree (history ((store platform).run calls) runId) :=
  history_runFrom grantsAgree_step sound_empty (fun grant hgrant => by cases hgrant) calls

/-! ### The report -/

/-- A report of a finished output, made at `t` by the worker that holds the active lease of a started
    attempt: it carries what the lease holds, and an output within the grant issued for the attempt.
    Its id, its key and the id of its event were not used before. -/
@[mk_iff]
structure DeliversOutput (db : ConversionDatabase) (attempt : ConversionAttempt)
    (lease : ConversionLease) (grant : StagingOutputUploadGrant) (t : Timestamp)
    (report : RuntimeReport) (output : OutputEvidence) (values : ReportValues) : Prop where
  stored : attempt ∈ db.attempts ∧ lease ∈ db.leases ∧ grant ∈ db.uploadGrants
  started : attempt.status = .started
  owner : attempt.conversionLeaseId = lease.id
  active : lease.status = .active
  unexpired : t < lease.expiresAt
  issued : grant.conversionAttemptId = attempt.id
  valid : isRuntimeReport report = true
  carried : reportMatchesLease report lease = true
  ready : report.body = .outputReady output
  occurred : report.occurredAt = t
  granted : output.uploadGrantId = grant.id ∧ output.targetPath = grant.normalizedTargetPath ∧
    output.sizeBytes ≤ grant.maximumBytes
  worker : values.worker = .ok report.workspaceId
  clock : values.now = t
  freshReport : ∀ row ∈ db.reports, row.report.id ≠ report.id
  freshKey : ∀ row ∈ db.reports, reportKeyed report row = false
  freshEvent : ∀ event ∈ db.events, event.id ≠ values.eventId

/-- When such a report can be stored: the clock has not gone back behind the lease and the start of
    the run, the grant has not run out, and the run has room for one event more. -/
@[mk_iff]
structure InWindow (db : ConversionDatabase) (lease : ConversionLease)
    (grant : StagingOutputUploadGrant) (t : Timestamp) : Prop where
  leased : lease.issuedAt ≤ t
  started : ∀ run ∈ db.run? lease.conversionRunId, ∀ startedAt ∈ run.startedAt, startedAt ≤ t
  granted : t < grant.expiresAt
  room : (eventsOfRun db lease.conversionRunId).length + 1 ≤ 2 ^ 53 - 1

instance (db : ConversionDatabase) (attempt : ConversionAttempt) (lease : ConversionLease)
    (grant : StagingOutputUploadGrant) (t : Timestamp) (report : RuntimeReport)
    (output : OutputEvidence) (values : ReportValues) :
    Decidable (DeliversOutput db attempt lease grant t report output values) :=
  decidable_of_iff _ (deliversOutput_iff db attempt lease grant t report output values).symm

instance (db : ConversionDatabase) (lease : ConversionLease) (grant : StagingOutputUploadGrant)
    (t : Timestamp) : Decidable (InWindow db lease grant t) :=
  decidable_of_iff _ (inWindow_iff db lease grant t).symm

/-- The run of a started attempt, found with what its claim says. -/
structure RunningRun (db : ConversionDatabase) (attempt : ConversionAttempt) (lease : ConversionLease)
    (run : ConversionRun) : Prop where
  found : db.run? lease.conversionRunId = some run
  id : run.id = lease.conversionRunId
  status : run.status = .running
  attemptRun : attempt.conversionRunId = run.id
  tenure : Tenure run attempt lease

section Report

variable {platform : ConversionPlatform} {db : ConversionDatabase} {attempt : ConversionAttempt}
  {lease : ConversionLease} {grant : StagingOutputUploadGrant} {t : Timestamp}
  {report : RuntimeReport} {output : OutputEvidence} {values : ReportValues} {run : ConversionRun}

/-- A started attempt belongs to a running run. -/
theorem Claims.running_of_started {status : ConversionRunStatus}
    {claims : List (ConversionAttempt × ConversionLease)} (h : Claims status claims)
    (hmem : (attempt, lease) ∈ claims) (hstarted : attempt.status = .started) : status = .running := by
  cases h with
  | waiting hearlier _ => exact absurd hstarted (hearlier _ hmem).not_held.2
  | held hearlier hphase =>
    rcases List.mem_append.mp hmem with hmem | hmem
    · exact absurd hstarted (hearlier _ hmem).not_held.2
    · obtain ⟨rfl, rfl⟩ := Prod.mk.inj (List.mem_singleton.mp hmem)
      cases hphase <;> simp_all

theorem DeliversOutput.running (h : DeliversOutput db attempt lease grant t report output values)
    (hs : Sound db) : ∃ run, RunningRun db attempt lease run := by
  obtain ⟨hattempt, hlease, -⟩ := h.stored
  have hfind : find? db.leases attempt.conversionLeaseId = some lease :=
    hs.stored.leaseKeys.find?_eq_some_iff.mpr ⟨hlease, h.owner.symm⟩
  have hrunId := lease_of_attempt hs hattempt hfind
  have hmem : attempt ∈ (history db lease.conversionRunId).attempts :=
    mem_attemptsOfRun.mpr ⟨hattempt, hrunId.symm⟩
  have hagrees := hs.agrees lease.conversionRunId
  cases hrun : (history db lease.conversionRunId).run with
  | none =>
    rw [hagrees.absent hrun] at hmem
    cases hmem
  | some run =>
    obtain ⟨claims, hclaimed⟩ := hagrees.claimed run hrun
    have hclaim := hclaimed.mem_of_leaseId (hs.stored.leaseKeys.filter _) hmem
      (mem_leasesOfRun.mpr ⟨hlease, rfl⟩) h.owner
    have hid := id_of_run? hrun
    exact ⟨run, hrun, hid, hclaimed.phase.running_of_started hclaim h.started,
      hrunId.symm.trans hid.symm, hclaimed.tenure _ hclaim⟩

/-! ### What the transition stores -/

/-- The instants of a run that is running. -/
theorem running_instants (hvalid : isConversionRun run = true) (hstatus : run.status = .running) :
    ∃ startedAt, run.startedAt = some startedAt ∧ isRfc3339 startedAt = true ∧
      run.createdAt ≤ startedAt ∧ run.verifyingAt = none ∧ run.completedAt = none ∧
      run.failedAt = none ∧ run.cancelledAt = none ∧ run.failure = none ∧
      run.stagingDocument = none := by
  simp only [isConversionRun, runLifecycle, hstatus, timestampsOrdered, ConversionRun.instants,
    Bool.and_eq_true, Option.isNone_iff_eq_none, Option.any_eq_true] at hvalid
  obtain ⟨⟨⟨-, hordered⟩, ⟨⟨startedAt, hstarted, hrfc⟩, hverifying⟩, ⟨⟨⟨hcompleted, hfailed⟩,
    hcancelled⟩, hfailure⟩, hdocument⟩, -⟩ := hvalid
  refine ⟨startedAt, hstarted, hrfc, ?_, hverifying, hcompleted, hfailed, hcancelled, hfailure,
    hdocument⟩
  simp [hstarted, hverifying, hcompleted, hfailed, hcancelled] at hordered
  exact hordered.1

theorem outputReady_run_valid (hvalid : isConversionRun run = true) (hstatus : run.status = .running)
    (hoccurred : isRfc3339 report.occurredAt = true) :
    isConversionRun (outputReadyTransition report run attempt lease).run = true ↔
      ∀ startedAt ∈ run.startedAt, startedAt ≤ report.occurredAt := by
  obtain ⟨startedAt, hstarted, hrfc, hcreated, hverifying, hcompleted, hfailed, hcancelled, hfailure,
    hdocument⟩ := running_instants hvalid hstatus
  simp only [isConversionRun, Bool.and_eq_true] at hvalid
  obtain ⟨⟨⟨⟨⟨hfields, hcreatedAt⟩, -⟩, -⟩, -⟩, -⟩ := hvalid
  have hsnapshots : snapshotsMatch (outputReadyTransition report run attempt lease).run =
      snapshotsMatch run := rfl
  rw [isConversionRun, hsnapshots]
  simp [outputReadyTransition, runLifecycle, timestampsOrdered,
    ConversionRun.instants, hstarted, hrfc, hoccurred, hcompleted, hfailed,
    hcancelled, hfailure, hdocument, hcreated, hcreatedAt, hfields]

theorem outputReady_attempt_valid (hvalid : isConversionAttempt attempt = true)
    (hoccurred : isRfc3339 report.occurredAt = true) :
    isConversionAttempt (outputReadyTransition report run attempt lease).attempt = true := by
  simp only [isConversionAttempt, Bool.and_eq_true] at hvalid ⊢
  obtain ⟨⟨⟨⟨hfields, -⟩, -⟩, hfailure⟩, hreconciliation⟩ := hvalid
  exact ⟨⟨⟨⟨hfields, by simpa [outputReadyTransition] using hoccurred⟩, by simp [outputReadyTransition]⟩,
    hfailure⟩, hreconciliation⟩

/-- An active lease has no closing instant. -/
theorem closing_instants_none (hvalid : isConversionLease lease = true)
    (hactive : lease.status = .active) :
    lease.releasedAt = none ∧ lease.expiredAt = none ∧ lease.supersededAt = none := by
  simp only [isConversionLease, hactive, Bool.and_eq_true, List.isEmpty_iff] at hvalid
  have hmem : ∀ instant ∈ [lease.releasedAt, lease.expiredAt, lease.supersededAt], instant = none := by
    intro instant hinstant
    cases instant with
    | none => rfl
    | some t =>
      have hreduced := List.reduceOption_mem_iff.mpr hinstant
      rw [hvalid.2] at hreduced
      cases hreduced
  exact ⟨hmem _ (by simp), hmem _ (by simp), hmem _ (by simp)⟩

theorem outputReady_lease_valid (hvalid : isConversionLease lease = true)
    (hactive : lease.status = .active) (hoccurred : isRfc3339 report.occurredAt = true)
    (hissued : lease.issuedAt ≤ report.occurredAt) :
    isConversionLease (outputReadyTransition report run attempt lease).lease = true := by
  obtain ⟨-, hexpired, hsuperseded⟩ := closing_instants_none hvalid hactive
  simp only [isConversionLease, Bool.and_eq_true] at hvalid
  obtain ⟨⟨hfields, -⟩, -⟩ := hvalid
  simp only [isConversionLease, outputReadyTransition, Bool.and_eq_true]
  refine ⟨⟨hfields, ?_⟩, ?_⟩
  · simp [hexpired, hsuperseded]
  · simp [hoccurred, hissued]

theorem outputReady_event_valid (hstatus : run.status = .running)
    (hoccurred : isRfc3339 report.occurredAt = true) (eventId : Id) :
    isConversionExecutionEvent ((outputReadyTransition report run attempt lease).event db run eventId) =
        true ↔ maxSequence db run.id + 1 ≤ 2 ^ 53 - 1 := by
  have hactor := workerActor_isValid report.workerId
  have hmessage : "Output evidence accepted for control-plane verification" ≠ "" := by decide
  have hlength : 0 < jsLength "Output evidence accepted for control-plane verification" ∧
      jsLength "Output evidence accepted for control-plane verification" ≤ 500 := by decide
  simp [isConversionExecutionEvent, outputReadyTransition, Transition.event, hstatus, hoccurred,
    canTransitionConversionRun, eventTransition, eventPayload, positiveInteger, isSafeInteger, hactor,
    hmessage, hlength]

/-! ### Acceptance -/

theorem DeliversOutput.occurred_valid (h : DeliversOutput db attempt lease grant t report output values) :
    isRfc3339 report.occurredAt = true := by
  have hvalid := h.valid
  simp only [isRuntimeReport, baseReport, Bool.and_eq_true] at hvalid
  exact hvalid.1.2

theorem DeliversOutput.expected (h : DeliversOutput db attempt lease grant t report output values) :
    report.expectedCurrentStatus = .running := by
  have hvalid := h.valid
  simp only [isRuntimeReport, h.ready, Bool.and_eq_true, beq_iff_eq] at hvalid
  exact hvalid.2.2

/-- The report is no repetition, so it goes through its transaction. -/
theorem DeliversOutput.submitReport_eq_ok
    (h : DeliversOutput db attempt lease grant t report output values)
    {result : ConversionRuntimeTransitionResult} {db' : ConversionDatabase} :
    submitReport platform report values db = .ok (result, db') ↔
      acceptReport report (platform.hashReport report) values db = .ok (result, db') := by
  have hfind : db.reports.find? (reportKeyed report) = none :=
    List.find?_eq_none.mpr fun row hrow => by simp [h.freshKey row hrow]
  simp only [submitReport, h.valid, h.ready, validateReportFailure, applyWorkerReport, h.worker,
    workerReplay, hfind, bind_eq_ok, require_eq_ok, pure_eq_ok, Except.ok.injEq]
  constructor
  · rintro ⟨_, -, _, -, _, rfl, _, -, _, rfl, haccepted⟩
    exact haccepted
  · intro haccepted
    exact ⟨(), trivial, (), trivial, _, rfl, (), rfl, _, rfl, haccepted⟩

theorem DeliversOutput.authorized_iff (h : DeliversOutput db attempt lease grant t report output values)
    (hrun : RunningRun db attempt lease run) :
    authorizeReport report run lease attempt values.now = .ok () ↔ lease.issuedAt ≤ t := by
  have hcarried := h.carried
  simp only [reportMatchesLease, Bool.and_eq_true, beq_iff_eq] at hcarried
  obtain ⟨⟨⟨⟨⟨⟨⟨hworkspace, hworker⟩, hrunId⟩, hattemptId⟩, hleaseId⟩, -⟩, -⟩, -⟩ := hcarried
  obtain ⟨-, hid, hstatus, hattemptRun, htenure⟩ := hrun
  have hoccurred : report.occurredAt ≤ values.now := by rw [h.occurred, h.clock]
  rw [authorizeReport, require_eq_ok]
  constructor
  · rintro ⟨-, -, -, -, -, -, -, -, -, -, hauthorized⟩
    simp only [authorizeRuntimeReport, isConversionLeaseActive, Bool.and_eq_true,
      decide_eq_true_eq] at hauthorized
    rw [← h.clock]
    exact hauthorized.2.1.2
  · intro hissued
    refine ⟨htenure.leaseWorkspace.symm.trans hworkspace.symm, hworkspace.symm, ?_, hattemptRun,
      hid.symm, htenure.leaseId, htenure.attemptId, htenure.worker.trans hworker.symm,
      htenure.converter, hoccurred, ?_⟩
    · exact (htenure.workspace.trans htenure.leaseWorkspace.symm).trans hworkspace.symm
    · simp [authorizeRuntimeReport, hstatus, h.expected, h.carried, isConversionLeaseActive, h.active,
        h.clock, hissued, h.unexpired]

/-- The grant a report names is the one that was issued for the attempt. -/
theorem DeliversOutput.grant_of (h : DeliversOutput db attempt lease grant t report output values)
    (hs : Sound db) (hgrants : ∀ runId, GrantsAgree (history db runId)) :
    find? db.uploadGrants output.uploadGrantId = some grant ∧
      isStagingOutputUploadGrant grant = true ∧ GrantOf grant attempt ∧
      grant.conversionRunId = attempt.conversionRunId := by
  obtain ⟨hattempt, -, hgrant⟩ := h.stored
  obtain ⟨owner, howner, hof⟩ := hgrants grant.conversionRunId grant (by simp [history, hgrant])
  obtain ⟨howner, hownerRun⟩ := mem_attemptsOfRun.mp howner
  have hid : owner.id = attempt.id := hof.issuedFor.symm.trans h.issued
  obtain rfl := hs.stored.attemptKeys.eq_of_key howner hattempt hid
  refine ⟨?_, hs.stored.uploadGrants grant hgrant, hof, hownerRun.symm⟩
  exact hs.stored.grantKeys.find?_eq_some_iff.mpr ⟨hgrant, h.granted.1.symm⟩

theorem DeliversOutput.transition_iff (h : DeliversOutput db attempt lease grant t report output values)
    (hs : Sound db) (hgrants : ∀ runId, GrantsAgree (history db runId))
    (hrun : RunningRun db attempt lease run) {transition : Transition} :
    workerTransition db report run attempt lease = .ok transition ↔
      t < grant.expiresAt ∧ outputReadyTransition report run attempt lease = transition := by
  obtain ⟨hfind, hvalid, hof, hrunId⟩ := h.grant_of hs hgrants
  have hload : ∀ loaded, db.loadUploadGrant output.uploadGrantId = .ok loaded ↔ loaded = grant := by
    intro loaded
    rw [ConversionDatabase.loadUploadGrant, load_eq_ok, hfind]
    constructor
    · rintro ⟨heq, -⟩
      exact (Option.some.inj heq).symm
    · rintro rfl
      exact ⟨rfl, hvalid⟩
  have hgranted : validateOutput output report.occurredAt grant run lease attempt = .ok () ↔
      t < grant.expiresAt := by
    rw [validateOutput, require_eq_ok, h.occurred]
    constructor
    · rintro ⟨-, -, -, -, -, -, hexpires⟩
      exact hexpires
    · intro hexpires
      exact ⟨hof.workspace.trans hrun.tenure.workspace, hrunId.trans hrun.attemptRun, hof.issuedFor,
        hof.worker.trans hrun.tenure.worker, h.granted.2.1, h.granted.2.2, hexpires⟩
  simp only [workerTransition, h.ready, bind_eq_ok, require_eq_ok, pure_eq_ok, hload, h.started,
    hrun.status]
  constructor
  · rintro ⟨_, -, _, rfl, _, hvalidated, rfl⟩
    exact ⟨hgranted.mp hvalidated, rfl⟩
  · rintro ⟨hexpires, rfl⟩
    exact ⟨(), ⟨trivial, rfl⟩, grant, rfl, (), hgranted.mpr hexpires, rfl⟩

/-- The number of the next event of a run is one more than the number of its events. -/
theorem Sound.maxSequence_eq (hs : Sound db) (runId : Id) :
    maxSequence db runId = (eventsOfRun db runId).length :=
  (hs.agrees runId).log.maxSequence

theorem Sound.sequence_fresh (hs : Sound db) (runId : Id) :
    ∀ stored ∈ db.events, stored.runId = runId → stored.sequence ≠ maxSequence db runId + 1 := by
  intro stored hstored hof heq
  have hle : stored.sequence ≤ (eventsOfRun db runId).length :=
    (hs.agrees runId).log.sequence_le stored (mem_eventsOfRun.mpr ⟨hstored, hof⟩)
  rw [heq, hs.maxSequence_eq runId] at hle
  omega

theorem DeliversOutput.stored_iff (h : DeliversOutput db attempt lease grant t report output values)
    (hs : Sound db) (hrun : RunningRun db attempt lease run) (hissued : lease.issuedAt ≤ t) :
    (∃ result mid, storeTransition db run (outputReadyTransition report run attempt lease)
        values.eventId = .ok (result, mid)) ↔
      (∀ startedAt ∈ run.startedAt, startedAt ≤ t) ∧
        (eventsOfRun db lease.conversionRunId).length + 1 ≤ 2 ^ 53 - 1 := by
  obtain ⟨hattempt, hlease, -⟩ := h.stored
  obtain ⟨row, hrow, heq⟩ := run?_eq_some.mp hrun.found
  have hrunValid : isConversionRun run = true := heq ▸ hs.stored.runs row (mem_of_find? hrow)
  have hoccurred := h.occurred_valid
  have hnextRun : isConversionRun (outputReadyTransition report run attempt lease).run = true ↔ _ :=
    outputReady_run_valid hrunValid hrun.status hoccurred
  have hevent : isConversionExecutionEvent ((outputReadyTransition report run attempt lease).event db
      run values.eventId) = true ↔ _ :=
    outputReady_event_valid hrun.status hoccurred values.eventId
  rw [h.occurred] at hnextRun
  rw [hs.maxSequence_eq run.id, hrun.id] at hevent
  have hnextLease : isConversionLease (outputReadyTransition report run attempt lease).lease = true :=
    outputReady_lease_valid (hs.stored.leases lease hlease) h.active hoccurred
      (h.occurred.symm ▸ hissued)
  have hnextAttempt :
      isConversionAttempt (outputReadyTransition report run attempt lease).attempt = true :=
    outputReady_attempt_valid (hs.stored.attempts attempt hattempt) hoccurred
  constructor
  · rintro ⟨result, mid, hstored⟩
    obtain ⟨⟨hnext, -, -, hnextEvent⟩, -⟩ := storeTransition_eq_ok.mp hstored
    exact ⟨hnextRun.mp hnext, hevent.mp hnextEvent⟩
  · rintro ⟨hstarted, hroom⟩
    exact ⟨_, _, storeTransition_eq_ok.mpr ⟨⟨hnextRun.mpr hstarted, hnextAttempt, hnextLease,
      hevent.mpr hroom⟩, h.freshEvent, hs.sequence_fresh run.id, rfl, rfl⟩⟩

theorem DeliversOutput.accepted_iff (h : DeliversOutput db attempt lease grant t report output values)
    (hs : Sound db) (hgrants : ∀ runId, GrantsAgree (history db runId)) {reportDigest : Digest} :
    (∃ result db', acceptReport report reportDigest values db = .ok (result, db')) ↔
      InWindow db lease grant t := by
  obtain ⟨run, hrun⟩ := h.running hs
  obtain ⟨hattempt, hlease, -⟩ := h.stored
  have hcarried := h.carried
  simp only [reportMatchesLease, Bool.and_eq_true, beq_iff_eq] at hcarried
  obtain ⟨⟨⟨⟨⟨⟨-, hrunId⟩, hattemptId⟩, hleaseId⟩, -⟩, -⟩, -⟩ := hcarried
  have hfindRun : db.run? report.conversionRunId = some run := hrunId ▸ hrun.found
  have hfindLease : find? db.leases report.conversionLeaseId = some lease :=
    hs.stored.leaseKeys.find?_eq_some_iff.mpr ⟨hlease, hleaseId.symm⟩
  have hfindAttempt : find? db.attempts report.conversionAttemptId = some attempt :=
    hs.stored.attemptKeys.find?_eq_some_iff.mpr
      ⟨hattempt, (hattemptId.trans hrun.tenure.attemptId).symm⟩
  constructor
  · rintro ⟨result, db', haccepted⟩
    obtain ⟨run', lease', attempt', transition, mid, haccepted⟩ := acceptReport_spec haccepted
    obtain rfl := Option.some.inj (hfindRun.symm.trans haccepted.findRun)
    obtain rfl := Option.some.inj (hfindLease.symm.trans haccepted.findLease)
    obtain rfl := Option.some.inj (hfindAttempt.symm.trans haccepted.findAttempt)
    have hissued := (h.authorized_iff hrun).mp haccepted.authorized
    obtain ⟨hgranted, rfl⟩ := (h.transition_iff hs hgrants hrun).mp haccepted.transition
    obtain ⟨hstarted, hroom⟩ := (h.stored_iff hs hrun hissued).mp ⟨result, mid, haccepted.stored⟩
    refine ⟨hissued, fun other hother => ?_, hgranted, hroom⟩
    obtain rfl := Option.some.inj (hrun.found.symm.trans hother)
    exact hstarted
  · rintro ⟨hissued, hstarted, hgranted, hroom⟩
    obtain ⟨result, mid, hstored⟩ :=
      (h.stored_iff hs hrun hissued).mpr ⟨hstarted run hrun.found, hroom⟩
    obtain ⟨-, -, -, -, hmid⟩ := storeTransition_eq_ok.mp hstored
    have hinsert : ∃ db', insertReport mid
        ⟨report, reportDigest, result.event.id, values.storedAt⟩ = .ok db' := by
      refine ⟨_, insertReport_eq_ok.mpr ⟨?_, ?_, rfl⟩⟩
      · rw [hmid]
        exact h.freshReport
      · rw [hmid]
        intro row hrow hworkspace hworker hkey
        have hfresh := h.freshKey row hrow
        simp [reportKeyed, hworkspace, hworker, hkey] at hfresh
    obtain ⟨db', hinsert⟩ := hinsert
    refine ⟨result, db', ?_⟩
    simp only [acceptReport, bind_eq_ok, loadRun_eq_ok, loadLease_eq_ok, loadAttempt_eq_ok]
    obtain ⟨row, hrow, heq⟩ := run?_eq_some.mp hrun.found
    exact ⟨run, ⟨hfindRun, heq ▸ hs.stored.runs row (mem_of_find? hrow)⟩, lease,
      ⟨hfindLease, hs.stored.leases lease hlease⟩, attempt,
      ⟨hfindAttempt, hs.stored.attempts attempt hattempt⟩, (), (h.authorized_iff hrun).mpr hissued, _,
      (h.transition_iff hs hgrants hrun).mpr ⟨hgranted, rfl⟩, (result, mid), hstored, _, hinsert, rfl⟩

/-- An accepted report of a finished output leaves its run verifying. -/
theorem DeliversOutput.verifying (h : DeliversOutput db attempt lease grant t report output values)
    {reportDigest : Digest} {result : ConversionRuntimeTransitionResult} {db' : ConversionDatabase}
    (haccepted : acceptReport report reportDigest values db = .ok (result, db')) :
    result.run.status = .verifying ∧ db'.run? report.conversionRunId = some result.run := by
  obtain ⟨run, lease, attempt, transition, mid, haccepted⟩ := acceptReport_spec haccepted
  have htransition := haccepted.transition
  simp only [workerTransition, h.ready, bind_eq_ok, require_eq_ok, pure_eq_ok] at htransition
  obtain ⟨_, -, _, -, _, -, rfl⟩ := htransition
  obtain ⟨-, -, -, rfl, rfl⟩ := storeTransition_eq_ok.mp haccepted.stored
  obtain ⟨-, -, rfl⟩ := insertReport_eq_ok.mp haccepted.fresh
  have hfound := haccepted.findRun
  have hid := id_of_run? hfound
  rw [← hid] at hfound
  refine ⟨rfl, ?_⟩
  rw [← hid]
  have hsame : (outputReadyTransition report run attempt lease).run.id = run.id := rfl
  exact run?_updateRun_self hsame hfound

end Report

/-- In every state in which a worker may report its output, the report is accepted and moves its run
    to verifying exactly when its instant lies in the window of the grant. -/
theorem outputReady_accepted_iff (platform : ConversionPlatform) (calls : List ConversionCall)
    {attempt : ConversionAttempt} {lease : ConversionLease} {grant : StagingOutputUploadGrant}
    {t : Timestamp} {report : RuntimeReport} {output : OutputEvidence} {values : ReportValues}
    (h : DeliversOutput ((store platform).run calls) attempt lease grant t report output values) :
    (∃ result, (perform platform ((store platform).run calls) (.submitReport report values)).1 =
          .ok (.transitioned result) ∧ result.run.status = .verifying ∧
        (perform platform ((store platform).run calls) (.submitReport report values)).2.run?
          report.conversionRunId = some result.run) ↔
      InWindow ((store platform).run calls) lease grant t := by
  have hs : Sound ((store platform).run calls) := sound_run calls
  have haccepted : (∃ result db', acceptReport report (platform.hashReport report) values
      ((store platform).run calls) = .ok (result, db')) ↔ _ :=
    h.accepted_iff hs (grantsAgree_run platform calls)
  constructor
  · rintro ⟨result, hok, -⟩
    obtain ⟨db', hbody⟩ := commit_fst_ok hok
    simp only [body, bind_eq_ok, pure_eq_ok, Prod.mk.injEq] at hbody
    obtain ⟨⟨result', next⟩, hsubmit, -⟩ := hbody
    exact haccepted.mp ⟨result', next, h.submitReport_eq_ok.mp hsubmit⟩
  · intro hwindow
    obtain ⟨result, db', hresult⟩ := haccepted.mpr hwindow
    have hbody : body platform (.submitReport report values) ((store platform).run calls) =
        .ok (.transitioned result, db') := by
      simp only [body, bind_eq_ok, pure_eq_ok, Prod.mk.injEq]
      exact ⟨(result, db'), h.submitReport_eq_ok.mpr hresult, rfl, rfl⟩
    obtain ⟨hstatus, hrun⟩ := h.verifying hresult
    rw [perform, commit_of_ok hbody]
    exact ⟨result, rfl, hstatus, hrun⟩

/-! ### A renewed lease -/

/-- Renews the lease of the sample claim after half a minute, for two minutes more. -/
def sampleRenew : ConversionCall :=
  .renewLease 31 { workspaceId := 1, workerId := 3, requestedDurationSeconds := 120 } 30000
    { tokenReference := 35, tokenDigest := 36 }

def sampleRenewed : ConversionDatabase :=
  (store sampleDigests).run [sampleDispatch, sampleClaim, sampleStart, sampleRenew]

def sampleOutput : OutputEvidence where
  uploadGrantId := 34
  targetPath := "staging/out.md"
  sha256 := 12
  sizeBytes := 9

def sampleDelivery (t : Timestamp) : RuntimeReport :=
  { sampleReport (.outputReady sampleOutput) with
    id := 41, leaseGeneration := 2, leaseTokenReference := 35, leaseTokenDigest := 36
    idempotencyKey := "output", occurredAt := t, expectedCurrentStatus := .running }

def sampleDelivered (t : Timestamp) : ReportValues where
  worker := .ok 1
  now := t
  eventId := 4
  storedAt := t

/-- What a call throws. -/
def thrown : Except RegistryError ConversionOutcome → Option RegistryError
  | .ok _ => none
  | .error error => some error

/-- A report within the renewed lease, but after the expiry its grant was issued with, is refused. -/
theorem renewed_lease_refused :
    (∃ attempt ∈ sampleRenewed.attempts, ∃ lease ∈ sampleRenewed.leases,
      ∃ grant ∈ sampleRenewed.uploadGrants, DeliversOutput sampleRenewed attempt lease grant 100000
        (sampleDelivery 100000) sampleOutput (sampleDelivered 100000)) ∧
      thrown (perform sampleDigests sampleRenewed
          (.submitReport (sampleDelivery 100000) (sampleDelivered 100000))).1 =
        some (.conflict "CONVERSION_OUTPUT_GRANT_MISMATCH"
          "Output evidence does not match the active upload grant") := by
  decide +kernel

/-- The same report before that expiry is accepted. -/
theorem renewed_lease_delivers :
    ∃ result, (perform sampleDigests sampleRenewed
        (.submitReport (sampleDelivery 40000) (sampleDelivered 40000))).1 =
          .ok (.transitioned result) ∧ result.run.status = .verifying ∧
      (perform sampleDigests sampleRenewed
        (.submitReport (sampleDelivery 40000) (sampleDelivered 40000))).2.run?
          (sampleDelivery 40000).conversionRunId = some result.run := by
  have hdelivers : ∃ attempt ∈ sampleRenewed.attempts, ∃ lease ∈ sampleRenewed.leases,
      ∃ grant ∈ sampleRenewed.uploadGrants, DeliversOutput sampleRenewed attempt lease grant 40000
        (sampleDelivery 40000) sampleOutput (sampleDelivered 40000) ∧
        InWindow sampleRenewed lease grant 40000 := by
    decide +kernel
  obtain ⟨attempt, -, lease, -, grant, -, hdelivers, hwindow⟩ := hdelivers
  exact (outputReady_accepted_iff sampleDigests _ hdelivers).mpr hwindow

end MarkorbitKnowledge.Conversion
