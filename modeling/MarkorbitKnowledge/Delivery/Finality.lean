import MarkorbitKnowledge.Delivery.Reconciliation

/-!
# A recorded result is final

What a delivery freezes stays frozen, its transport calls hand out exactly that, and after a result
is recorded the delivery is not sent again: all this in every run, whatever fails.  That a further
submit then brings the delivery to its end needs its evidence to be consistent, so it goes through
`Reconciliation`.
-/

namespace MarkorbitKnowledge.Delivery

open Contracts Fallible Transitions
open Tables (Keyed KeysUnique key)

variable {platform : Platform} {readyPackages : List (Id × Id)}

/-! ### What stays -/

/-- Every stored submission is still stored, with its frozen columns and the result it had. -/
def Kept (db db' : Database) : Prop :=
  ∀ s ∈ db.submissions, ∃ s' ∈ db'.submissions, s'.frozen = s.frozen ∧
    (s.transportResult ≠ none → s'.transportResult = s.transportResult)

theorem Kept.refl (db : Database) : Kept db db := fun s hs => ⟨s, hs, rfl, fun _ => rfl⟩

theorem Kept.trans {db db' db'' : Database} (h : Kept db db') (h' : Kept db' db'') :
    Kept db db'' := by
  intro s hs
  obtain ⟨s', hs', hfrozen, hresult⟩ := h s hs
  obtain ⟨s'', hs'', hfrozen', hresult'⟩ := h' s' hs'
  refine ⟨s'', hs'', hfrozen'.trans hfrozen, fun hne => ?_⟩
  have heq := hresult hne
  exact (hresult' (heq ▸ hne)).trans heq

theorem Change.result_kept {es : List AuditEvent} {s s' : Submission} {event : AuditEvent}
    (h : Change es s s' event) (hne : s.transportResult ≠ none) :
    s'.transportResult = s.transportResult := by
  cases h with
  | attempt now hpending hopen => rfl
  | uncertainty now issueCode httpStatus hpending hopen => rfl
  | result now result hpending hopen => exact absurd hopen hne
  | finalize now result hpending hsame => rfl

theorem Write.kept {db db' : Database} {event : AuditEvent} (h : Write platform db event db')
    (hu : KeysUnique db.submissions) : Kept db db' := by
  intro t ht
  cases h with
  | prepared s hkey => exact ⟨t, List.mem_append_left _ ht, rfl, fun _ => rfl⟩
  | recorded s s' _ hs hvalid hvalid' hchange =>
    have hkey := key_of_frozen hchange.frozen
    by_cases hsame : key t = key s'
    · obtain rfl := hu.eq_of_key ht hs (hsame.trans hkey)
      exact ⟨s', Tables.mem_update.mpr (Or.inr ⟨rfl, t, ht, hsame⟩), hchange.frozen,
        hchange.result_kept⟩
    · exact ⟨t, Tables.mem_update.mpr (Or.inl ⟨ht, hsame⟩), rfl, fun _ => rfl⟩

theorem kept_step {sys : System} (hst : Stored platform sys.database) (op : Op) :
    Kept sys.database (step platform sys op).database := by
  have hboth := Steps.invariant (P := fun db => Stored platform db ∧ Kept sys.database db)
    (fun db db' hwrite hdb => by
      obtain ⟨event, hwrite, -⟩ := hwrite
      exact ⟨hwrite.stored hdb.1, hdb.2.trans (hwrite.kept hdb.1.keys)⟩)
    (writes_of_step hst.keys (0, 0) op) ⟨hst, Kept.refl sys.database⟩
  exact hboth.2

/-- The transport calls made for a submission. -/
def System.callsOf (sys : System) (s : Submission) : List TransportCall :=
  sys.calls.filter fun call =>
    decide (call.workspaceId = s.workspaceId) && decide (call.submissionId = s.submissionId)

/-- A step makes no transport call for a submission with a result. -/
theorem callsOf_step {sys : System} (hst : Stored platform sys.database) (op : Op) {s : Submission}
    (hs : s ∈ sys.database.submissions) (hresult : s.transportResult ≠ none) :
    (step platform sys op).callsOf s = sys.callsOf s := by
  rcases step_calls hst.keys op with hcalls | ⟨t, ht, hopen, hcalls⟩
  · rw [System.callsOf, hcalls]
    rfl
  · have hne : ¬ (t.workspaceId = s.workspaceId ∧ t.submissionId = s.submissionId) := by
      rintro ⟨hworkspace, hsubmission⟩
      rw [hst.keys.eq_of_key ht hs (Prod.ext hworkspace hsubmission)] at hopen
      exact hresult hopen
    rw [not_and_or] at hne
    rw [System.callsOf, hcalls, List.filter_append]
    rcases hne with hne | hne <;> simp [System.callsOf, transportCallOf, hne]

theorem transportCallOf_of_frozen {s s' : Submission} (h : s'.frozen = s.frozen) :
    transportCallOf s' = transportCallOf s := by
  simp only [Submission.frozen, Prod.mk.injEq] at h
  simp [transportCallOf, h]

/-- Every call hands out what a stored submission froze. -/
theorem calls_run (ops : List Op) :
    ∀ call ∈ ((machine platform readyPackages).run ops).calls,
      ∃ s ∈ ((machine platform readyPackages).run ops).database.submissions,
        call = transportCallOf s := by
  refine (Machine.run_invariant (M := machine platform readyPackages)
    (P := fun sys => Stored platform sys.database ∧ ∀ call ∈ sys.calls,
      ∃ s ∈ sys.database.submissions, call = transportCallOf s) ?_ ?_ ops).2
  · exact ⟨stored_run [], by simp [machine]⟩
  · rintro sys op ⟨hst, hcalls⟩
    refine ⟨stored_step hst op, fun call hcall => ?_⟩
    have hkept : ∀ s ∈ sys.database.submissions,
        ∃ s' ∈ (step platform sys op).database.submissions,
          transportCallOf s = transportCallOf s' := by
      intro s hs
      obtain ⟨s', hs', hfrozen, -⟩ := kept_step hst op s hs
      exact ⟨s', hs', (transportCallOf_of_frozen hfrozen).symm⟩
    have hold : call ∈ sys.calls ∨ ∃ s ∈ sys.database.submissions, call = transportCallOf s := by
      change call ∈ (step platform sys op).calls at hcall
      rcases step_calls hst.keys op with hsame | ⟨s, hs, -, hnew⟩
      · exact Or.inl (hsame ▸ hcall)
      · rw [hnew, List.mem_append, List.mem_singleton] at hcall
        exact hcall.imp_right fun heq => ⟨s, hs, heq⟩
    obtain ⟨s, hs, heq⟩ : ∃ s ∈ sys.database.submissions, call = transportCallOf s :=
      hold.elim (hcalls call) id
    obtain ⟨s', hs', hsame⟩ := hkept s hs
    exact ⟨s', hs', heq.trans hsame⟩

/-- However a run goes on, a stored submission keeps what it froze; with a result, it keeps the
    result and is not sent again. -/
theorem kept_runFrom (ops : List Op) {sys : System} (hst : Stored platform sys.database)
    {s : Submission} (hs : s ∈ sys.database.submissions) :
    let sys' := (machine platform readyPackages).runFrom sys ops
    ∃ s' ∈ sys'.database.submissions, s'.frozen = s.frozen ∧
      (s.transportResult ≠ none →
        s'.transportResult = s.transportResult ∧ sys'.callsOf s = sys.callsOf s) := by
  induction ops generalizing sys s with
  | nil => exact ⟨s, hs, rfl, fun _ => ⟨rfl, rfl⟩⟩
  | cons op ops ih =>
    obtain ⟨t, ht, hfrozen, hresult⟩ := kept_step hst op s hs
    obtain ⟨s', hs', hfrozen', hlater⟩ := ih (stored_step hst op) ht
    refine ⟨s', hs', hfrozen'.trans hfrozen, fun hne => ?_⟩
    have heq := hresult hne
    obtain ⟨hresult', hcalls'⟩ := hlater (heq ▸ hne)
    have hcallsOf : ∀ sys : System, sys.callsOf t = sys.callsOf s := by
      intro sys
      simp only [Submission.frozen, Prod.mk.injEq] at hfrozen
      rw [System.callsOf, System.callsOf, hfrozen.1, hfrozen.2.1]
    refine ⟨hresult'.trans heq, ?_⟩
    rw [hcallsOf, hcallsOf] at hcalls'
    exact hcalls'.trans (callsOf_step hst op hs hne)

/-! ### The last submit -/

/-- The end a recorded result brings a delivery to. -/
def finalState (result : ResultEvidence) : DiagnosisState :=
  if result.status = .rejected then .consumerRejected else .delivered

/-- What the diagnosis says of a delivery with a result. -/
theorem diagnose_of_result {db : Database} {s : Submission} (hdb : Reconciled db (key s))
    (hs : s ∈ db.submissions) (hlength : (db.eventsFor s).length ≤ MAX_LIMIT)
    {result : ResultEvidence} (hresult : s.transportResult = some result) :
    (diagnose db s).state =
      if result.status = .rejected then .consumerRejected
      else if s.state = .resultRecorded then .delivered
      else .localFinalizationRequired := by
  have hlegal := hdb s hs rfl
  have hlist := listAuditEvents_of_legal hlegal
  rw [Nat.sub_eq_zero_of_le hlength, List.drop_zero] at hlist
  obtain ⟨t, hevents, hshaped, hevidence, hagrees⟩ := hlegal
  rw [diagnose, hlist, hevents, diagnose_of_legal hshaped (hevents ▸ hevidence) hagrees]
  obtain ⟨event, hevent⟩ : ∃ event, t.result = some event := by
    refine Option.ne_none_iff_exists'.mp fun hnone => ?_
    rw [hagrees.noResult hnone] at hresult
    cases hresult
  have hsame := hagrees.result event hevent
  simp only [hresult, sameResultEvidence, Option.any_some, Bool.and_eq_true,
    decide_eq_true_eq] at hsame
  have hfinalized : t.finalized.isSome = true ↔ s.state = .resultRecorded := by
    cases hfinalized : t.finalized with
    | none => simp [(hagrees.notFinalized hfinalized).1]
    | some event => simp [(hagrees.finalized event hfinalized).1]
  simp only [Timeline.diagnosisState, hevent, Option.bind_some, ← hsame.1.2, Option.some.injEq,
    hfinalized, Option.isSome_some, if_true]

/-- A pending submission has no event that ends it. -/
theorem not_finalized_of_pending {s : Submission} {events : List AuditEvent}
    (h : LegalHistory s events) (hpending : s.state = .pending) :
    ∀ event ∈ events, event.type ≠ .finalized := by
  obtain ⟨t, rfl, hshaped, -, hagrees⟩ := h
  have hnone := finalized_none_of_pending hagrees hpending
  intro event hevent htype
  rcases Timeline.mem_events.mp hevent with rfl | hevent
  · rw [hshaped.prepared] at htype
    cases htype
  · rcases hshaped.cases_event hevent with ⟨-, hother | hother⟩ | ⟨-, hother⟩ | ⟨hsome, -⟩
    · cases htype.symm.trans hother
    · cases htype.symm.trans hother
    · cases htype.symm.trans hother
    · rw [hnone] at hsome
      cases hsome

theorem sequence_lt_next {s : Submission} {events : List AuditEvent} (h : Evidence s events) :
    ∀ event ∈ events, event.sequence ≠ nextSequence events := by
  intro event hevent heq
  have hmem : event.sequence ∈ List.range' 1 events.length := by
    rw [← h.sequence]
    exact List.mem_map_of_mem hevent
  rw [nextSequence_of_legal h] at heq
  rw [List.mem_range'_1] at hmem
  omega

/-- The stored result of a pending delivery can be made final. -/
theorem recordResult_ok {db : Database} (hst : Stored platform db) {s : Submission}
    (hdb : Reconciled db (key s)) (hs : s ∈ db.submissions) (hpending : s.state = .pending)
    {result : ResultEvidence} (hresult : s.transportResult = some result) (now : Timestamp) :
    ∃ s' db', recordResult platform s.workspaceId s.submissionId result.toDeliveryResult now db =
        .ok (s', db') ∧ s' ∈ db'.submissions ∧ s'.frozen = s.frozen ∧
      s'.transportResult = some result ∧ s'.state = .resultRecorded ∧
      ∃ event, db'.auditEvents = db.auditEvents ++ [event] := by
  obtain ⟨hvalid, hattempts⟩ := hst.results s hs (by simp [hresult])
  obtain ⟨hcontract, hids⟩ := hvalid.transport result hresult
  have hsame : sameResult s.transportResult result.toDeliveryResult = true := by
    simp [sameResult, hresult]
  obtain ⟨_, -, -, hevidence, -⟩ := hdb s hs rfl
  let updated : Submission :=
    { s with
      state := .resultRecorded
      result := some { result.toDeliveryResult with recordedAt := isoText now }
      updatedAt := isoText now }
  have hvalid' : Valid platform updated :=
    { toFrozenValid := ⟨hvalid.metadata, hvalid.request⟩
      transport := hvalid.transport
      pending := by simp [updated]
      recorded := fun _ => ⟨_, rfl, hcontract, hsame⟩ }
  let input : AuditEvent :=
    { auditEvent updated .finalized (isoText now) (some updated.transportAttempts) with
      resultStatus := some result.status }
  let db₁ : Database := { db with submissions := Tables.update db.submissions updated }
  have happend : appendAuditEvent db₁ input = .ok
      { db₁ with auditEvents := db₁.auditEvents ++ [numbered (db.eventsFor s) input] } := by
    refine appendAuditEvent_eq_ok.mpr ⟨?_, sequence_lt_next hevidence, ?_, rfl⟩
    · simp [isAuditEvent, optionalShape, numbered, nextSequence, input, auditEvent, updated,
        hattempts]
    · intro other hother _ htype
      exact absurd htype (not_finalized_of_pending (hdb s hs rfl) hpending other hother)
  have hstate : ¬ s.state = .resultRecorded := by
    rw [hpending]
    decide
  refine ⟨updated, { db₁ with auditEvents := db₁.auditEvents ++ [numbered (db.eventsFor s) input] },
    ?_, Tables.mem_update.mpr (Or.inr ⟨rfl, s, hs, rfl⟩), rfl, hresult, rfl, _, rfl⟩
  simp only [recordResult, bind_eq_ok, require_eq_ok, requireSubmission_eq_ok,
    assertResultMatchesSubmission]
  refine ⟨(), hcontract, s, ⟨hst.keys.find?_of_mem hs, hvalid⟩, (), hids, ?_⟩
  rw [if_neg hstate]
  simp only [bind_eq_ok, require_eq_ok, persistInsideTransaction_eq_ok, pure_eq_ok]
  exact ⟨(), hsame, (), hattempts, db₁, ⟨hvalid', rfl⟩, _, happend, rfl⟩

/-- The row of a package is found under it. -/
theorem getByReadyPackage_ok {db : Database} (hst : Stored platform db) {s : Submission}
    (hs : s ∈ db.submissions) (hresult : s.transportResult ≠ none) :
    getByReadyPackage platform db s.workspaceId s.readyPackageId = .ok (some s) := by
  rw [getByReadyPackage, mapM_eq_ok_some]
  refine ⟨s, ?_, parseSubmission_eq_ok.mpr ⟨rfl, (hst.results s hs hresult).1⟩⟩
  cases hfind : db.submissions.find? fun t => decide (t.workspaceId = s.workspaceId) &&
      decide (t.readyPackageId = s.readyPackageId) with
  | none =>
    rw [List.find?_eq_none] at hfind
    exact absurd (by simp) (hfind s hs)
  | some t =>
    have hmatch := List.find?_some hfind
    simp only [Bool.and_eq_true, decide_eq_true_eq] at hmatch
    have ht := List.mem_of_find?_eq_some hfind
    rw [hst.keys.eq_of_key ht hs (hst.packages t ht s hs hmatch.1 hmatch.2)]

/-- How a submit starts on the delivery it finds. -/
theorem startSubmit_found {db : Database} {workspaceId readyPackageId : Id} {configured : Bool}
    {now : Timestamp} {fault : Option Fault} {s : Submission}
    (h : getByReadyPackage platform db workspaceId readyPackageId = .ok (some s)) :
    startSubmit platform workspaceId readyPackageId configured now fault db =
      (match (diagnose db s).state with
      | .evidenceInconsistent => .error (evidenceInconsistent (diagnose db s))
      | .delivered => .ok (.done s, db)
      | .consumerRejected => .error (.conflict "READY_PACKAGE_V2_DELIVERY_CONSUMER_REJECTED"
          "ReadyPackage V2 delivery was rejected by the consumer and requires operator review")
      | .localFinalizationRequired => do
        let evidence ← orThrow s.transportResult (evidenceInconsistent (diagnose db s))
        let (s, db) ← attempt fault 0 (recordResult platform workspaceId s.submissionId
          (protocolResultFromDurableTransportEvidence evidence) now) db
        pure (.done s, db)
      | .safeToSubmit | .outcomeUnknownRetryExactRequest => do
        require (configured = true) (.conflict "CORE_V2_DELIVERY_NOT_CONFIGURED"
          "ReadyPackage V2 outbound transport is not explicitly configured for protocol V1")
        let (s, db) ← attempt fault 0 (markTransportAttempt platform workspaceId s.submissionId now)
          db
        pure (.attempt s, db)) := by
  unfold startSubmit
  rw [h]
  rfl

/-- A submit of a delivery with a recorded result brings it to its end. -/
theorem submit_final {sys : System} (hst : Stored platform sys.database) {s : Submission}
    (hdb : Reconciled sys.database (key s)) (hs : s ∈ sys.database.submissions)
    {result : ResultEvidence} (hresult : s.transportResult = some result) (configured : Bool)
    (now : Timestamp) (hnow : ∀ event ∈ sys.database.auditEvents, event.delivery = key s →
      event.recordedAt.instant ≤ now)
    (hroom : (sys.database.eventsFor s).length < MAX_LIMIT ∨
      (sys.database.eventsFor s).length = MAX_LIMIT ∧
        (result.status = .rejected ∨ s.state = .resultRecorded)) :
    let sys' := step platform sys (.submit s.workspaceId s.readyPackageId configured now none)
    ∃ s' ∈ sys'.database.submissions, s'.frozen = s.frozen ∧
      (diagnose sys'.database s').state = finalState result := by
  intro sys'
  have hdatabase : sys'.database = (commit (startSubmit platform s.workspaceId s.readyPackageId
      configured now none) sys.database).2 := submit_database
  have hlength : (sys.database.eventsFor s).length ≤ MAX_LIMIT := by
    rcases hroom with hlt | ⟨heq, -⟩
    · exact Nat.le_of_lt hlt
    · exact Nat.le_of_eq heq
  have hdiagnosis := diagnose_of_result hdb hs hlength hresult
  have hstored := getByReadyPackage_ok hst hs (by simp [hresult])
  have hunchanged : sys'.database = sys.database →
      (result.status = .rejected ∨ s.state = .resultRecorded) →
      ∃ s' ∈ sys'.database.submissions, s'.frozen = s.frozen ∧
        (diagnose sys'.database s').state = finalState result := by
    intro hsame hend
    refine ⟨s, hsame ▸ hs, rfl, ?_⟩
    rw [hsame, hdiagnosis, finalState]
    rcases hend with hend | hend <;> simp [hend]
  by_cases hrejected : result.status = .rejected
  · -- the consumer said no: the submit throws and writes nothing
    rw [if_pos hrejected] at hdiagnosis
    refine hunchanged ?_ (Or.inl hrejected)
    rw [hdatabase, commit_of_error (by rw [startSubmit_found hstored, hdiagnosis])]
  · rw [if_neg hrejected] at hdiagnosis
    by_cases hrecorded : s.state = .resultRecorded
    · -- already final: the submit answers with what is stored
      rw [if_pos hrecorded] at hdiagnosis
      refine hunchanged ?_ (Or.inr hrecorded)
      rw [hdatabase, commit_of_ok (by rw [startSubmit_found hstored, hdiagnosis])]
    · -- the stored result is made final, without the transport
      rw [if_neg hrecorded] at hdiagnosis
      have hpending : s.state = .pending := by
        cases hstate : s.state with
        | pending => rfl
        | resultRecorded => exact absurd hstate hrecorded
      obtain ⟨s', db', hrecord, hs', hfrozen, hresult', hstate', event, hevents⟩ :=
        recordResult_ok hst hdb hs hpending hresult now
      have hstart : startSubmit platform s.workspaceId s.readyPackageId configured now none
          sys.database = .ok (.done s', db') := by
        rw [startSubmit_found hstored, hdiagnosis]
        simp [hresult, attempt, protocolResultFromDurableTransportEvidence, hrecord]
      rw [commit_of_ok hstart] at hdatabase
      have hlengthlt : (sys.database.eventsFor s).length < MAX_LIMIT := by
        rcases hroom with hlt | ⟨-, hend⟩
        · exact hlt
        · exact absurd hend (by simp [hrejected, hrecorded])
      have hdb' : Reconciled db' (key s') := by
        rw [key_of_frozen hfrozen]
        rcases recordResult_wrote hrecord with rfl | ⟨written, hwrite, htype, hdated, -⟩
        · exact hdb
        · refine hwrite.reconciled hst (fun hdelivery => ⟨fun prior hprior hsame => ?_, ?_⟩) hdb
          · rw [hdated]
            exact hnow prior hprior (hsame.trans hdelivery)
          · intro hother
            cases htype.symm.trans hother
      have hlength' : (db'.eventsFor s').length ≤ MAX_LIMIT := by
        rw [eventsFor_of_key (key_of_frozen hfrozen)]
        have happend := eventsFor_append (s := s) hevents
        by_cases howns : Owns s event
        · rw [happend.1 howns, List.length_append, List.length_singleton]
          exact hlengthlt
        · rw [happend.2 howns]
          exact hlength
      refine ⟨s', hdatabase ▸ hs', hfrozen, ?_⟩
      rw [hdatabase, diagnose_of_result hdb' hs' hlength' hresult', finalState, if_neg hrejected,
        if_pos hstate', if_neg hrejected]

/-! ### The claim about runs -/

/-- The events stored for a delivery leave room for the one event that may still end it. -/
def HasRoom (db : Database) (s : Submission) (result : ResultEvidence) : Prop :=
  (db.eventsFor s).length < MAX_LIMIT ∨ (db.eventsFor s).length = MAX_LIMIT ∧
    (result.status = .rejected ∨ s.state = .resultRecorded)

theorem hasRoom_of_lt {db : Database} {s : Submission} {result : ResultEvidence}
    (h : (db.eventsFor s).length < MAX_LIMIT) : HasRoom db s result := Or.inl h

/-- In every run: the transport is called with nothing but frozen requests; each delivery counts its
    started attempts, keeps what it froze however the run goes on, and with a result keeps the result
    and is not sent again.  Where the clock readings for the delivery do not go back and no answer of
    it is recorded for an attempt whose outcome was recorded as unknown, a further submit of a delivery
    with a result and room for its last event brings it to the end its result says. -/
theorem result_is_final (platform : Platform) (readyPackages : List (Id × Id)) (ops : List Op) :
    let M := machine platform readyPackages
    let sys := M.run ops
    (∀ call ∈ sys.calls, ∃ s ∈ sys.database.submissions, call = transportCallOf s) ∧
    ∀ s ∈ sys.database.submissions,
      s.transportAttempts = (eventsOf sys.database s.workspaceId s.submissionId).countP
        (fun event => decide (event.type = .transportAttemptStarted)) ∧
      (∀ later, ∃ s' ∈ (M.runFrom sys later).database.submissions, s'.frozen = s.frozen ∧
        (s.transportResult ≠ none → s'.transportResult = s.transportResult ∧
          (M.runFrom sys later).callsOf s = sys.callsOf s)) ∧
      ∀ result configured now, s.transportResult = some result →
        (datesAlong platform (s.workspaceId, s.submissionId) M.init ops ++ [now]).Pairwise (· ≤ ·) →
        M.Throughout (AnswersKnown (s.workspaceId, s.submissionId)) M.init ops →
        HasRoom sys.database s result →
        let sys' := M.step sys (.submit s.workspaceId s.readyPackageId configured now none)
        ∃ s' ∈ sys'.database.submissions, s'.frozen = s.frozen ∧
          (diagnose sys'.database s').state = finalState result := by
  intro M sys
  have hst : Stored platform sys.database := stored_run ops
  refine ⟨calls_run ops, fun s hs => ⟨(hst.count s hs).symm, fun later => kept_runFrom later hst hs, ?_⟩⟩
  intro result configured now hresult hclock hanswers hroom
  rw [List.pairwise_append] at hclock
  refine submit_final hst (reconciled_run (orderly_of_readings hclock.1 hanswers)) hs hresult
    configured now ?_ hroom
  intro event hevent hdelivery
  rcases dated_runFrom ops (stored_run []) event hevent hdelivery with hold | hnew
  · change event ∈ ([] : List AuditEvent) at hold
    cases hold
  · exact hclock.2.2 event.recordedAt.instant hnew now (by simp)

theorem answered_short : ∀ s ∈ ((machine samplePlatform [(1, 1)]).run answered).database.submissions,
    (((machine samplePlatform [(1, 1)]).run answered).database.eventsFor s).length < MAX_LIMIT := by
  decide +kernel

theorem answered_final :
    ∀ s ∈ ((machine samplePlatform [(1, 1)]).run answered).database.submissions,
      ∀ result, s.transportResult = some result →
        let sys' := (machine samplePlatform [(1, 1)]).step
          ((machine samplePlatform [(1, 1)]).run answered)
          (.submit s.workspaceId s.readyPackageId false 9 none)
        ∃ s' ∈ sys'.database.submissions, s'.frozen = s.frozen ∧
          (diagnose sys'.database s').state = finalState result := by
  intro s hs result hresult
  have hfinal := result_is_final samplePlatform [(1, 1)] answered
  dsimp only at hfinal
  refine (hfinal.2 s hs).2.2 result false 9 hresult ?_ answered_known
    (hasRoom_of_lt (answered_short s hs))
  exact List.Pairwise.sublist ((datesAlong_sublist answered _).append_right [9]) (by decide)

/-- After the overtaken answer the delivery has its result, and a further submit without any error
    leaves it inconsistent. -/
theorem overtaken_stuck :
    let M := machine samplePlatform [(1, 1)]
    let sys := M.run overtaken
    let sys' := M.step sys (.submit 1 1 true 6 none)
    sys.database.submissions.map (fun s => s.transportResult.map (·.status)) = [some .accepted] ∧
      sys'.database.submissions.map (fun s => (diagnose sys'.database s).state) =
        [.evidenceInconsistent] := by
  decide +kernel

end MarkorbitKnowledge.Delivery
