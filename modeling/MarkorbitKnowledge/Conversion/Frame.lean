import MarkorbitKnowledge.Conversion.Refinement

/-!
# What a call leaves alone

Of all calls only a dispatch stores a run, only a report adds to the reports, and no call removes a
run or changes what identifies it.
-/

namespace MarkorbitKnowledge.Conversion

open Contracts Fallible Tables
open Execution (RegistryError)

section Calls

variable {platform : ConversionPlatform} {db db' : ConversionDatabase}

/-- The runs are the same but for their contents, and the reports are the same. -/
structure Frame (db db' : ConversionDatabase) : Prop where
  runs : db'.runs.map key = db.runs.map key
  reports : db'.reports = db.reports

theorem Frame.refl (db : ConversionDatabase) : Frame db db := ⟨rfl, rfl⟩

theorem keys_updateRun (db : ConversionDatabase) (run : ConversionRun) :
    (updateRun db run).runs.map key = db.runs.map key := by
  rw [updateRun, List.map_map]
  refine List.map_congr_left fun row _ => ?_
  by_cases hid : row.run.id = run.id <;> simp [hid]

/-! ### Dispatch -/

/-- The run a dispatch has stored. -/
structure Dispatched (db db' : ConversionDatabase) (input : ManualConversionDispatchInput)
    (runId : Id) (run : ConversionRun) : Prop where
  runs : ∃ digest, db'.runs = db.runs ++ [⟨run, digest⟩]
  reports : db'.reports = db.reports
  id : run.id = runId
  workspace : run.workspaceId = input.workspaceId
  key : run.idempotencyKey = trim input.idempotencyKey
  status : run.status = .pending
  fresh : ∀ stored ∈ db.runs, stored.run.id ≠ run.id
  freshKey : ∀ stored ∈ db.runs, stored.run.workspaceId = run.workspaceId →
    stored.run.idempotencyKey ≠ run.idempotencyKey

/-- The run a dispatch has found under its key. -/
structure Replayed (db : ConversionDatabase) (input : ManualConversionDispatchInput)
    (run : ConversionRun) : Prop where
  stored : ∃ row ∈ db.runs, row.run = run
  workspace : run.workspaceId = input.workspaceId
  key : run.idempotencyKey = trim input.idempotencyKey

theorem insertDispatch_eq_ok {row : RunRow} {event : ConversionExecutionEvent}
    (h : insertDispatch db row event = .ok db') :
    (∀ stored ∈ db.runs, stored.run.id ≠ row.run.id) ∧
      (∀ stored ∈ db.runs, stored.run.workspaceId = row.run.workspaceId →
        stored.run.idempotencyKey ≠ row.run.idempotencyKey) ∧
      db' = { db with runs := db.runs ++ [row], events := db.events ++ [event] } := by
  simp only [insertDispatch, insertRun, bind_eq_ok, require_eq_ok, pure_eq_ok, insertEvent_eq_ok] at h
  obtain ⟨_, ⟨_, hid, _, hkey, rfl⟩, -, -, rfl⟩ := h
  exact ⟨hid, hkey, rfl⟩

/-- A successful dispatch stores a run, or finds the one its key was used for. -/
theorem dispatchManual_cases {catalogue : ConversionCatalogue}
    {input : ManualConversionDispatchInput} {now : Timestamp} {runId eventId : Id}
    {result : ManualConversionDispatchResult}
    (h : dispatchManual platform catalogue input now runId eventId db = .ok (result, db')) :
    (db' = db ∧ Replayed db input result.record.run) ∨
      Dispatched db db' input runId result.record.run := by
  simp only [dispatchManual, idempotencyKeyOf, bind_eq_ok, require_eq_ok, pure_eq_ok] at h
  obtain ⟨_, ⟨_, -, rfl⟩, artifact, -, profile, -, _, -, _, -, _, -, actor, -, _, -, h⟩ := h
  split at h
  · rename_i hinsert
    simp only [pure_eq_ok, Prod.mk.injEq] at h
    obtain ⟨rfl, rfl⟩ := h
    obtain ⟨hid, hkey, rfl⟩ := insertDispatch_eq_ok hinsert
    exact Or.inr ⟨⟨_, rfl⟩, rfl, rfl, rfl, rfl, rfl, hid, hkey⟩
  · simp only [bind_eq_ok, pure_eq_ok, Prod.mk.injEq, replayDispatch, orThrow_eq_ok] at h
    obtain ⟨_, ⟨row, hfind, _, -, _, -, _, -, rfl⟩, rfl, rfl⟩ := h
    have hkeyed := List.find?_some hfind
    simp only [Bool.and_eq_true, decide_eq_true_eq] at hkeyed
    exact Or.inl ⟨rfl, ⟨row, List.mem_of_find?_eq_some hfind, rfl⟩, hkeyed.1, hkeyed.2⟩

/-! ### The other calls -/

theorem cancel_frame {runId : Id} {input : CancelConversionRunInput} {now : Timestamp} {eventId : Id}
    {record : ConversionRunRecord} (h : cancel runId input now eventId db = .ok (record, db')) :
    Frame db db' := by
  simp only [cancel, bind_eq_ok, pure_eq_ok, Prod.mk.injEq, insertEvent_eq_ok] at h
  obtain ⟨_, -, _, -, _, -, _, -, _, -, _, -, _, -, _, ⟨-, -, rfl⟩, -, rfl⟩ := h
  exact ⟨keys_updateRun db _, rfl⟩

theorem claim_frame {request : ConversionClaimRequest}
    {capability : Except RegistryError ConversionWorkerCapability} {values : ConversionClaimValues}
    {result : ConversionClaimPersistenceResult}
    (h : claim platform request capability values db = .ok (result, db')) : Frame db db' := by
  rcases claim_cases h with ⟨-, rfl, -⟩ | ⟨-, rfl⟩ | ⟨supported, run, path, -, hclaimed⟩
  · exact .refl _
  · exact ⟨rfl, rfl⟩
  · obtain ⟨_, _, -, -, -, -, rfl⟩ := claimRun_eq_ok.mp hclaimed
    exact ⟨rfl, rfl⟩

theorem renewLease_frame {leaseId : Id} {input : RenewConversionLeaseInput} {now : Timestamp}
    {token : RuntimeToken} {lease : ConversionLease}
    (h : renewLease leaseId input now token db = .ok (lease, db')) : Frame db db' := by
  simp only [renewLease, bind_eq_ok, pure_eq_ok, Prod.mk.injEq] at h
  obtain ⟨_, -, _, -, _, -, _, -, _, -, _, -, _, -, -, rfl⟩ := h
  exact ⟨rfl, rfl⟩

theorem closeBeforeStart_frame {leaseId : Id} {input : CloseConversionLeaseInput}
    {closing : PreStartClosing} {now : Timestamp} {lease : ConversionLease}
    (h : closeBeforeStart leaseId input closing now db = .ok (lease, db')) : Frame db db' := by
  simp only [closeBeforeStart, bind_eq_ok, pure_eq_ok, Prod.mk.injEq] at h
  obtain ⟨_, -, _, -, _, -, _, -, _, -, _, -, -, rfl⟩ := h
  exact ⟨rfl, rfl⟩

theorem storeTransition_frame {run : ConversionRun} {t : Transition} {eventId : Id}
    {result : ConversionRuntimeTransitionResult}
    (h : storeTransition db run t eventId = .ok (result, db')) : Frame db db' := by
  obtain ⟨-, -, -, -, rfl⟩ := storeTransition_eq_ok.mp h
  exact ⟨keys_updateRun db t.run, rfl⟩

theorem applyVerifierTransition_frame {request : VerifierRequest} {conversionRunId : Id}
    {occurredAt : Timestamp} {eventId : Id} {result : ConversionRuntimeTransitionResult}
    (h : applyVerifierTransition platform request conversionRunId occurredAt eventId db =
      .ok (result, db')) : Frame db db' := by
  simp only [applyVerifierTransition, bind_eq_ok] at h
  obtain ⟨_, -, h⟩ := h
  split at h
  · simp only [pure_eq_ok, Prod.mk.injEq] at h
    exact h.2 ▸ .refl db
  · simp only [acceptRequest, bind_eq_ok, pure_eq_ok, Prod.mk.injEq] at h
    obtain ⟨_, -, _, -, _, -, _, -, _, -, ⟨_, _⟩, hstored, -, rfl⟩ := h
    exact ⟨(storeTransition_frame hstored).runs, (storeTransition_frame hstored).reports⟩

/-! ### Reports -/

/-- A report whose answer was stored before: the answer names the event of that acceptance. -/
structure RepeatsRow (platform : ConversionPlatform) (db : ConversionDatabase) (report : RuntimeReport)
    (result : ConversionRuntimeTransitionResult) (row : ReportRow) : Prop where
  stored : row ∈ db.reports
  keyed : reportKeyed report row = true
  digest : row.reportDigest = platform.hashReport report
  event : find? db.events row.eventId = some result.event
  replayed : result.replayed = true

theorem workerReplay_spec {report : RuntimeReport} {result : ConversionRuntimeTransitionResult}
    (h : workerReplay db report (platform.hashReport report) = .ok (some result)) :
    ∃ row, RepeatsRow platform db report result row := by
  unfold workerReplay at h
  split at h
  · cases h
  · rename_i row hfind
    simp only [bind_eq_ok, require_eq_ok, map_eq_ok] at h
    obtain ⟨_, hdigest, result', h, heq⟩ := h
    obtain rfl := Option.some.inj heq
    simp only [ConversionDatabase.resultForEvent, bind_eq_ok, pure_eq_ok, load_eq_ok] at h
    obtain ⟨event, ⟨hevent, -⟩, _, -, _, -, _, -, rfl⟩ := h
    exact ⟨row, List.mem_of_find?_eq_some hfind, List.find?_some hfind, hdigest, hevent, rfl⟩

/-- A successful report repeats an accepted one and changes nothing, or is accepted now. -/
theorem submitReport_spec {report : RuntimeReport} {values : ReportValues}
    {result : ConversionRuntimeTransitionResult}
    (h : submitReport platform report values db = .ok (result, db')) :
    (db' = db ∧ ∃ row, RepeatsRow platform db report result row) ∨
      ∃ run lease attempt t mid, AcceptedReport report (platform.hashReport report) values db db'
        result run lease attempt t mid := by
  simp only [submitReport, applyWorkerReport, bind_eq_ok] at h
  obtain ⟨_, -, _, -, _, -, _, -, replay, hreplay, h⟩ := h
  split at h
  · simp only [pure_eq_ok, Prod.mk.injEq] at h
    obtain ⟨rfl, rfl⟩ := h
    exact Or.inl ⟨rfl, workerReplay_spec hreplay⟩
  · exact Or.inr (acceptReport_spec h)

/-- What the acceptance of a report adds to the tables. -/
structure ReportAdded (platform : ConversionPlatform) (db db' : ConversionDatabase)
    (report : RuntimeReport) (values : ReportValues) (result : ConversionRuntimeTransitionResult) :
    Prop where
  runs : db'.runs.map key = db.runs.map key
  reports : db'.reports = db.reports ++
    [⟨report, platform.hashReport report, result.event.id, values.storedAt⟩]
  event : result.event ∈ db'.events
  fresh : result.replayed = false

theorem AcceptedReport.added {report : RuntimeReport} {values : ReportValues}
    {result : ConversionRuntimeTransitionResult} {run : ConversionRun} {lease : ConversionLease}
    {attempt : ConversionAttempt} {t : Transition} {mid : ConversionDatabase}
    (h : AcceptedReport report (platform.hashReport report) values db db' result run lease attempt t
      mid) : ReportAdded platform db db' report values result := by
  obtain ⟨-, -, -, rfl, rfl⟩ := storeTransition_eq_ok.mp h.stored
  obtain ⟨-, -, rfl⟩ := insertReport_eq_ok.mp h.fresh
  exact ⟨keys_updateRun db t.run, rfl, List.mem_append_right _ List.mem_cons_self, rfl⟩

/-! ### Every call -/

/-- A successful call leaves runs and reports alone, or is a dispatch that stores a run, or a report
    that is accepted. -/
inductive CallFrame (platform : ConversionPlatform) (db db' : ConversionDatabase) :
    ConversionCall → ConversionOutcome → Prop
  | frame {call : ConversionCall} {outcome : ConversionOutcome} (h : Frame db db') :
      CallFrame platform db db' call outcome
  | dispatched {catalogue : ConversionCatalogue} {input : ManualConversionDispatchInput}
      {now : Timestamp} {runId eventId : Id} {result : ManualConversionDispatchResult}
      (h : Dispatched db db' input runId result.record.run) :
      CallFrame platform db db' (.dispatchManual catalogue input now runId eventId)
        (.dispatched result)
  | accepted {report : RuntimeReport} {values : ReportValues}
      {result : ConversionRuntimeTransitionResult}
      (h : ReportAdded platform db db' report values result) :
      CallFrame platform db db' (.submitReport report values) (.transitioned result)

theorem body_frame {call : ConversionCall} {outcome : ConversionOutcome}
    (h : body platform call db = .ok (outcome, db')) : CallFrame platform db db' call outcome := by
  cases call <;> simp only [body, bind_eq_ok, pure_eq_ok, Prod.mk.injEq] at h <;>
    obtain ⟨⟨result, _⟩, h, rfl, rfl⟩ := h
  case dispatchManual =>
    rcases dispatchManual_cases h with ⟨rfl, -⟩ | hdispatched
    · exact .frame (.refl _)
    · exact .dispatched hdispatched
  case cancel => exact .frame (cancel_frame h)
  case claim => exact .frame (claim_frame h)
  case renewLease => exact .frame (renewLease_frame h)
  case releaseBeforeStart => exact .frame (closeBeforeStart_frame h)
  case expireBeforeStart => exact .frame (closeBeforeStart_frame h)
  case submitReport =>
    rcases submitReport_spec h with ⟨rfl, -⟩ | ⟨_, _, _, _, _, haccepted⟩
    · exact .frame (.refl _)
    · exact .accepted haccepted.added
  case completeVerification =>
    simp only [completeVerification, bind_eq_ok] at h
    obtain ⟨_, -, _, -, _, -, h⟩ := h
    exact .frame (applyVerifierTransition_frame h)
  case failVerification =>
    simp only [failVerification, bind_eq_ok] at h
    obtain ⟨_, -, _, -, _, -, h⟩ := h
    exact .frame (applyVerifierTransition_frame h)
  case reconcileExpiredStartedLease =>
    simp only [reconcileExpiredStartedLease, bind_eq_ok] at h
    obtain ⟨_, -, _, -, _, -, h⟩ := h
    exact .frame (applyVerifierTransition_frame h)

end Calls

end MarkorbitKnowledge.Conversion
