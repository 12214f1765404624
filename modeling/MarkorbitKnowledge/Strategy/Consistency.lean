import MarkorbitKnowledge.Strategy.Parts

/-!
# What the governance registry accumulates

What is stored of a candidate is the sum of its observations (`Accumulated`): its document is that of
`summarize`, whichever order they came in, and its transitions lead from OBSERVED to its stage.
`run_record_of`, `run_record_of_not`, `run_recordReevaluation` and `transition_outcome` say what each
operation does when it runs alone.
-/

namespace MarkorbitKnowledge.Strategy

open Contracts Execution Interleaving Interleaving.Program Tables Transitions Window

/-- Transitions that are allowed and follow each other, from one stage to another. -/
def StageChain : AcquisitionPromotionStage → List AcquisitionStrategyCandidateTransition →
    AcquisitionPromotionStage → Prop
  | start, [], stop => start = stop
  | start, transition :: rest, stop =>
    transition.fromStage = start ∧
      isAllowedAcquisitionPromotionTransition start transition.toStage = true ∧
      StageChain transition.toStage rest stop

theorem StageChain.append {start stop : AcquisitionPromotionStage}
    {transitions : List AcquisitionStrategyCandidateTransition}
    {transition : AcquisitionStrategyCandidateTransition} (h : StageChain start transitions stop)
    (hfrom : transition.fromStage = stop)
    (hallowed : isAllowedAcquisitionPromotionTransition stop transition.toStage = true) :
    StageChain start (transitions ++ [transition]) transition.toStage := by
  induction transitions generalizing start with
  | nil =>
    obtain rfl := h
    exact ⟨hfrom, hallowed, rfl⟩
  | cons first rest ih =>
    obtain ⟨hfirst, hstep, hrest⟩ := h
    exact ⟨hfirst, hstep, ih hrest⟩

/-- What is stored of a candidate is the sum of its observations and the end of its transitions. -/
structure Accumulated (c : String) (s : Store) : Prop where
  keys : KeysUnique (s.observationsOf c)
  absent : find? s.candidates c = none → s.observationsOf c = [] ∧ s.transitionsOf c = []
  observed : ∀ row, find? s.candidates c = some row → s.observationsOf c ≠ []
  summed : ∀ row, find? s.candidates c = some row →
    row.candidate = summarize row.candidate (ordered observedKey (s.observationsOf c)) ∧
      row.evidenceCount = (s.observationsOf c).length
  staged : ∀ row, find? s.candidates c = some row →
    StageChain .observed (s.transitionsOf c) row.candidate.stage

/-- The registry accumulates what is stored of a candidate; what is stored of a run is one request. -/
def Good : Part → Store → Prop
  | .candidate c, s => Accumulated c s
  | .reevaluation _, _ => True

theorem good_congr (part : Part) (s t : Store) (h : view part s = view part t)
    (hgood : Good part s) : Good part t := by
  cases part with
  | reevaluation runId => exact trivial
  | candidate c =>
    obtain ⟨hrow, hobservations, htransitions⟩ := view_candidate.mp h
    have hgood : Accumulated c s := hgood
    constructor
    · rw [← hobservations]
      exact hgood.keys
    · rw [← hrow, ← hobservations, ← htransitions]
      exact hgood.absent
    · rw [← hrow, ← hobservations]
      exact hgood.observed
    · rw [← hrow, ← hobservations]
      exact hgood.summed
    · rw [← hrow, ← htransitions]
      exact hgood.staged

theorem good_empty (part : Part) : Good part .empty := by
  cases part with
  | reevaluation runId => exact trivial
  | candidate c =>
    constructor
    · exact List.nodup_nil
    · exact fun _ => ⟨rfl, rfl⟩
    all_goals
      intro _ h
      cases h

/-! ### Recording an observation -/

@[simp] theorem run_ensure (condition : Prop) [Decidable condition] (e : RegistryError) (s : Store) :
    run (ensure condition e) s = (if condition then .ok () else .error e, s) := by
  unfold ensure
  split_ifs <;> rfl

theorem run_ensure_of {condition : Prop} [Decidable condition] {e : RegistryError} (s : Store)
    (h : condition) : run (ensure condition e) s = (.ok (), s) := by
  rw [run_ensure, if_pos h]

theorem run_ensure_of_not {condition : Prop} [Decidable condition] {e : RegistryError} (s : Store)
    (h : ¬ condition) : run (ensure condition e) s = (.error e, s) := by
  rw [run_ensure, if_neg h]

theorem run_ensure_bind {α : Type} (condition : Prop) [Decidable condition] (e : RegistryError)
    (k : Unit → Statements α) (s : Store) :
    run (ensure condition e >>= k) s = if condition then run (k ()) s else (.error e, s) := by
  split_ifs with h
  · exact run_bind_of_ok (run_ensure_of s h)
  · exact run_bind_of_error (run_ensure_of_not s h)

@[simp] theorem run_insertRow (columns : String) (taken : Store → Bool) (write : Store → Store)
    (s : Store) :
    run (insertRow columns taken write) s =
      (if taken s then .error (.uniqueConstraint columns) else .ok (),
        if taken s then s else write s) := rfl

/-- The candidate can be observed: it is new, or stored as the same playbook revision. -/
def Matches (s : Store) (candidate : StrategyCandidate) : Prop :=
  ∀ row, find? s.candidates candidate.id = some row →
    0 < row.candidate.proposedRevision ∧ row.candidate.playbookId = candidate.playbookId ∧
      row.candidate.proposedRevision = candidate.proposedRevision

/-- The run can be observed: it is new to the candidate, or recorded with the same evidence. -/
def Repeats (s : Store) (observation : CandidateObservation) : Prop :=
  ∀ recorded, find? s.observations (observation.candidateId, observation.runId) = some recorded →
    recorded = observation

/-- The document that an observation adds to. -/
def Store.baseline (s : Store) (candidate : StrategyCandidate) : StrategyCandidate :=
  ((find? s.candidates candidate.id).map (·.candidate)).getD candidate

/-- The candidate's observations with one recorded. -/
def Store.observationsWith (s : Store) (observation : CandidateObservation) :
    List CandidateObservation :=
  if (find? s.observations (observation.candidateId, observation.runId)).isSome then
    s.observationsOf observation.candidateId
  else s.observationsOf observation.candidateId ++ [observation]

/-- The row that records an observation. -/
def Store.recordedRow (s : Store) (candidate : StrategyCandidate)
    (observation : CandidateObservation) : CandidateRow :=
  summaryRow (s.baseline candidate) (ordered observedKey (s.observationsWith observation))

theorem baseline_id (s : Store) (candidate : StrategyCandidate) :
    (s.baseline candidate).id = candidate.id := by
  unfold Store.baseline
  cases h : find? s.candidates candidate.id with
  | none => rfl
  | some row => exact key_of_find? h

/-- The store with an observation recorded. -/
def Store.record (s : Store) (candidate : StrategyCandidate) (observation : CandidateObservation) :
    Store :=
  { s with
    candidates :=
      update
        (if (find? s.candidates candidate.id).isSome then s.candidates
        else s.candidates ++ [⟨candidate, 0, candidate.createdAt⟩])
        (s.recordedRow candidate observation)
    observations :=
      if (find? s.observations (observation.candidateId, observation.runId)).isSome then
        s.observations
      else s.observations ++ [observation] }

section record

variable {s : Store} {candidate : StrategyCandidate} {observation : CandidateObservation}

theorem find?_record :
    find? (s.record candidate observation).candidates candidate.id =
      some (s.recordedRow candidate observation) := by
  have hkey : key (s.recordedRow candidate observation) = candidate.id := baseline_id s candidate
  have hrow : ∀ rows : List CandidateRow, (∃ row ∈ rows, key row = candidate.id) →
      find? (update rows (s.recordedRow candidate observation)) candidate.id =
        some (s.recordedRow candidate observation) := by
    intro rows h
    rw [← hkey] at h ⊢
    exact find?_update_self h
  refine hrow _ ?_
  cases h : find? s.candidates candidate.id with
  | none => exact ⟨⟨candidate, 0, candidate.createdAt⟩, by simp, rfl⟩
  | some row => exact ⟨row, mem_of_find? h, key_of_find? h⟩

theorem observationsOf_record (hid : observation.candidateId = candidate.id) :
    (s.record candidate observation).observationsOf candidate.id =
      s.observationsWith observation := by
  rw [← hid]
  unfold Store.record Store.observationsWith Store.observationsOf
  by_cases h : (find? s.observations (observation.candidateId, observation.runId)).isSome = true
  · simp only [h, if_true]
  · simp [h]

theorem mem_record (hrepeats : Repeats s observation) :
    observation ∈ (s.record candidate observation).observations := by
  unfold Store.record
  cases h : find? s.observations (observation.candidateId, observation.runId) with
  | none => simp
  | some recorded =>
    obtain rfl := hrepeats recorded h
    simpa using mem_of_find? h

theorem run_parseExisting (row : CandidateRow) :
    run (parseExisting (some row)) s =
      (if 0 < row.candidate.proposedRevision then .ok (some row.candidate)
      else .error (.validation "Stored StrategyCandidate is invalid"), s) := by
  unfold parseExisting parseCandidate
  rw [run_map, run_bind, run_ensure]
  by_cases h : 0 < row.candidate.proposedRevision <;> simp [h, Except.map]

/-- An observation that can be recorded is. -/
theorem run_record_of (hid : observation.candidateId = candidate.id)
    (hmatches : Matches s candidate) (hrepeats : Repeats s observation) :
    ∃ persisted, run (recordCandidateObservation candidate observation) s =
      (.ok persisted, s.record candidate observation) := by
  have hparse : run (parseExisting (find? s.candidates candidate.id)) s =
      (.ok ((find? s.candidates candidate.id).map (·.candidate)), s) := by
    cases hrow : find? s.candidates candidate.id with
    | none => rfl
    | some row => rw [run_parseExisting, if_pos (hmatches row hrow).1, Option.map_some]
  obtain ⟨t, ht⟩ : ∃ t : Store, t = { s with
      candidates :=
        if (find? s.candidates candidate.id).isSome then s.candidates
        else s.candidates ++ [⟨candidate, 0, candidate.createdAt⟩] } := ⟨_, rfl⟩
  have hadmit : run (admitCandidate candidate ((find? s.candidates candidate.id).map (·.candidate)))
      s = (.ok (), t) := by
    rw [ht]
    cases hrow : find? s.candidates candidate.id with
    | none => simp [admitCandidate, hrow]
    | some row => exact run_ensure_of s (hmatches row hrow).2
  have hsame : t.observations = s.observations := by rw [ht]
  have hobserve : run (admitObservation observation
          (find? t.observations (candidate.id, observation.runId))) t =
        (.ok (), { t with
          observations :=
            if (find? s.observations (observation.candidateId, observation.runId)).isSome then
              s.observations
            else s.observations ++ [observation] }) := by
    rw [hsame, ← hid]
    cases hrecorded : find? s.observations (observation.candidateId, observation.runId) with
    | none => simp [admitObservation, hsame, hrecorded]
    | some recorded => simp [admitObservation, hrepeats recorded hrecorded, ← hsame]
  have hobservations := observationsOf_record (s := s) hid
  rw [recordCandidateObservation, run_bind_of_ok (run_select _ s), run_bind_of_ok hparse,
    run_bind_of_ok hadmit, run_bind_of_ok (run_select _ _), run_bind_of_ok hobserve,
    run_bind_of_ok (run_select _ _)]
  refine ⟨_, (run_bind_of_ok (run_execute _ _)).trans (congrArg (Prod.mk _) ?_)⟩
  subst ht
  have hrow : s.recordedRow candidate observation = summaryRow (s.baseline candidate)
      (ordered observedKey ((s.record candidate observation).observationsOf candidate.id)) := by
    rw [hobservations, Store.recordedRow]
  rw [Store.record, hrow]
  rfl

/-- An observation that cannot be recorded is refused before anything is written. -/
theorem run_record_of_not (hgood : Accumulated candidate.id s)
    (hid : observation.candidateId = candidate.id)
    (h : ¬(Matches s candidate ∧ Repeats s observation)) :
    ∃ e, run (recordCandidateObservation candidate observation) s = (.error e, s) := by
  cases hrow : find? s.candidates candidate.id with
  | none =>
    have hnone : find? s.observations (candidate.id, observation.runId) = none := by
      rw [find?_observations, (hgood.absent hrow).1, find?_nil]
    refine absurd ⟨fun row h => ?_, fun recorded h => ?_⟩ h
    · rw [hrow] at h
      cases h
    · rw [hid, hnone] at h
      cases h
  | some row =>
    rw [recordCandidateObservation, run_bind_of_ok (run_select _ s)]
    simp only [hrow]
    by_cases hrevision : 0 < row.candidate.proposedRevision
    · rw [run_bind_of_ok (by rw [run_parseExisting, if_pos hrevision])]
      by_cases hidentity : row.candidate.playbookId = candidate.playbookId ∧
          row.candidate.proposedRevision = candidate.proposedRevision
      · have hadmit : run (admitCandidate candidate (some row.candidate)) s = (.ok (), s) :=
          run_ensure_of s hidentity
        rw [run_bind_of_ok hadmit, run_bind_of_ok (run_select _ s)]
        cases hrecorded : find? s.observations (candidate.id, observation.runId) with
        | none =>
          refine absurd ⟨fun other h => ?_, fun recorded h => ?_⟩ h
          · rw [hrow] at h
            obtain rfl := Option.some.inj h
            exact ⟨hrevision, hidentity⟩
          · rw [hid, hrecorded] at h
            cases h
        | some recorded =>
          have hother : recorded ≠ observation := by
            rintro rfl
            refine h ⟨fun other h => ?_, fun other h => ?_⟩
            · rw [hrow] at h
              obtain rfl := Option.some.inj h
              exact ⟨hrevision, hidentity⟩
            · rw [hid, hrecorded] at h
              exact (Option.some.inj h).symm
          exact ⟨_, run_bind_of_error (run_ensure_of_not s hother)⟩
      · exact ⟨_, run_bind_of_error (run_ensure_of_not s hidentity)⟩
    · exact ⟨_, run_bind_of_error (by rw [run_parseExisting, if_neg hrevision])⟩

theorem nodup_observedKey {observations : List CandidateObservation} {c : String}
    (hkeys : KeysUnique observations) (hids : ∀ other ∈ observations, other.candidateId = c) :
    (observations.map observedKey).Nodup := by
  have hmap : observations.map key =
      (observations.map observedKey).map fun column => (c, (ofLex column).2) := by
    rw [List.map_map]
    refine List.map_congr_left fun other hother => ?_
    simp [observedKey, hids other hother]
  rw [KeysUnique, hmap] at hkeys
  exact List.Nodup.of_map _ hkeys

theorem keysUnique_observationsWith (hgood : Accumulated candidate.id s)
    (hid : observation.candidateId = candidate.id) :
    KeysUnique (s.observationsWith observation) := by
  unfold Store.observationsWith
  split_ifs with h
  · rw [hid]
    exact hgood.keys
  · have hnone : find? s.observations (observation.candidateId, observation.runId) = none := by
      simpa using h
    rw [find?_observations] at hnone
    rw [hid] at hnone ⊢
    refine KeysUnique.append_singleton hgood.keys fun other hother => ?_
    have hne := Tables.find?_eq_none.mp hnone other hother
    simpa [hid] using hne

theorem candidateId_observationsWith {other : CandidateObservation}
    (h : other ∈ s.observationsWith observation) : other.candidateId = observation.candidateId := by
  unfold Store.observationsWith at h
  split_ifs at h with hfound
  · simpa using (List.mem_filter.mp h).2
  · rcases List.mem_append.mp h with h | h
    · simpa using (List.mem_filter.mp h).2
    · rw [List.mem_singleton.mp h]

/-- Recording an observation keeps the candidate the sum of its observations. -/
theorem Accumulated.record (hgood : Accumulated candidate.id s)
    (hid : observation.candidateId = candidate.id) (hstage : candidate.stage = .observed) :
    Accumulated candidate.id (s.record candidate observation) := by
  have hrow : find? (s.record candidate observation).candidates candidate.id =
      some (s.recordedRow candidate observation) := find?_record
  have hobservations := observationsOf_record (s := s) hid
  constructor
  · rw [hobservations]
    exact keysUnique_observationsWith hgood hid
  · intro h
    rw [hrow] at h
    cases h
  · intro row _
    rw [hobservations]
    unfold Store.observationsWith
    split_ifs with h
    · intro hnil
      rw [find?_observations, hnil] at h
      cases h
    · exact List.append_ne_nil_of_right_ne_nil _ (List.cons_ne_nil _ _)
  · intro row h
    rw [hrow] at h
    obtain rfl := Option.some.inj h
    rw [hobservations]
    exact ⟨rfl, ordered_perm.length_eq⟩
  · intro row h
    rw [hrow] at h
    obtain rfl := Option.some.inj h
    change StageChain .observed (s.transitionsOf candidate.id) (s.baseline candidate).stage
    cases hfound : find? s.candidates candidate.id with
    | none => simp [Store.baseline, hfound, (hgood.absent hfound).2, StageChain, hstage]
    | some old => simpa [Store.baseline, hfound] using hgood.staged old hfound

/-- A recorded observation leaves the stage, and does not lower the confidence unless it does so by
    coming first. -/
theorem recordedRow_of_some (hgood : Accumulated candidate.id s)
    (hid : observation.candidateId = candidate.id) {row : CandidateRow}
    (hrow : find? s.candidates candidate.id = some row)
    (hlowers : find? s.observations (candidate.id, observation.runId) = none →
      ¬ LowersConfidence (s.observationsOf candidate.id) observation) :
    (s.recordedRow candidate observation).candidate.stage = row.candidate.stage ∧
      row.candidate.confidence ≤ (s.recordedRow candidate observation).candidate.confidence := by
  have hstage : (s.baseline candidate).stage = row.candidate.stage := by
    simp [Store.baseline, hrow]
  refine ⟨hstage, ?_⟩
  have hbefore : row.candidate.confidence =
      combinedConfidence (ordered observedKey (s.observationsOf candidate.id)) :=
    congrArg StrategyCandidate.confidence (hgood.summed row hrow).1
  have hnodup := nodup_observedKey (keysUnique_observationsWith hgood hid)
    fun other => candidateId_observationsWith
  change _ ≤ combinedConfidence (ordered observedKey (s.observationsWith observation))
  rw [hbefore]
  unfold Store.observationsWith at hnodup ⊢
  rw [hid] at hnodup ⊢
  cases hfound : find? s.observations (candidate.id, observation.runId) with
  | some recorded => simp
  | none =>
    simp only [hfound, Option.isSome_none, Bool.false_eq_true, if_false] at hnodup ⊢
    exact not_lt.mp ((combinedConfidence_record_lt hnodup).not.mpr (hlowers hfound))

/-- An observation that is recorded already is recorded again without a trace, where the row still
    carries the instant of the last observation. -/
theorem view_record_of_repeats (hgood : Accumulated candidate.id s)
    (hid : observation.candidateId = candidate.id) {row : CandidateRow}
    (hrow : find? s.candidates candidate.id = some row)
    (hfound : find? s.observations (candidate.id, observation.runId) ≠ none)
    (hupdated : ((ordered observedKey (s.observationsOf candidate.id)).getLast?.map (·.observedAt)) =
      some row.updatedAt) :
    view (.candidate candidate.id) s =
      view (.candidate candidate.id) (s.record candidate observation) := by
  have hwith : s.observationsWith observation = s.observationsOf candidate.id := by
    unfold Store.observationsWith
    rw [hid, if_pos (Option.isSome_iff_ne_none.mpr hfound)]
  refine view_candidate.mpr ⟨?_, ?_, rfl⟩
  · rw [find?_record, hrow, Store.recordedRow, hwith, summaryRow, hupdated]
    obtain ⟨hcandidate, hcount⟩ := hgood.summed row hrow
    have hlength : (ordered observedKey (s.observationsOf candidate.id)).length =
        row.evidenceCount := by
      rw [hcount, ordered_perm.length_eq]
    have hbaseline : s.baseline candidate = row.candidate := by simp [Store.baseline, hrow]
    rw [hbaseline, ← hcandidate, hlength]
    rfl
  · rw [observationsOf_record hid, hwith]

end record

/-! ### Calls that run alone -/

/-- The run has a re-evaluation already, and it is another one. -/
def ReevaluationConflict (env : Env) (s : Store) (evidence : AcquisitionRunEvidence)
    (lessons : List RunLesson) : Prop :=
  ∃ request existing, reevaluationRequest env evidence lessons = some request ∧
    find? s.reevaluations evidence.runId = some existing ∧ existing ≠ request

theorem run_recordReevaluation (env : Env) (evidence : AcquisitionRunEvidence)
    (lessons : List RunLesson) (s : Store) :
    (∀ c, view (.candidate c) (run (recordReevaluation env evidence lessons) s).2 =
        view (.candidate c) s) ∧
      (run (recordReevaluation env evidence lessons) s).2.observations = s.observations ∧
      ∀ e, (run (recordReevaluation env evidence lessons) s).1 = .error e →
        (run (recordReevaluation env evidence lessons) s).2 = s ∧
          ReevaluationConflict env s evidence lessons := by
  have hok : ∀ {result : Option AcquisitionStrategyReevaluationRequest} {t : Store} {Q : Prop}
      (e : RegistryError), (Except.ok result, t).1 = .error e → Q := by
    intro _ _ _ _ h
    cases h
  unfold recordReevaluation
  cases hrequest : reevaluationRequest env evidence lessons with
  | none => exact ⟨fun _ => rfl, rfl, hok⟩
  | some request =>
    have hid : request.runId = evidence.runId := by
      simp only [reevaluationRequest] at hrequest
      split_ifs at hrequest
      obtain rfl := Option.some.inj hrequest
      rfl
    simp only
    rw [run_bind_of_ok (run_select _ s)]
    cases hexisting : find? s.reevaluations evidence.runId with
    | some existing =>
      by_cases hsame : existing = request
      · rw [run_bind_of_ok (run_ensure_of s hsame)]
        exact ⟨fun _ => rfl, rfl, hok⟩
      · simp only
        rw [run_bind_of_error (run_ensure_of_not s hsame)]
        exact ⟨fun _ => rfl, rfl, fun _ _ => ⟨rfl, request, existing, hrequest, hexisting, hsame⟩⟩
    | none =>
      simp only
      rw [run_bind, run_insertRow, hid, hexisting]
      exact ⟨fun _ => rfl, rfl, hok⟩

theorem run_getCandidate (candidateId : String) (s : Store) :
    (∃ e, run (getCandidate candidateId) s = (.error e, s)) ∨
      (find? s.candidates (trim candidateId) = none ∧
        run (getCandidate candidateId) s = (.ok none, s)) ∨
      ∃ row, find? s.candidates (trim candidateId) = some row ∧
        run (getCandidate candidateId) s =
          (.ok (some ⟨row.candidate, row.evidenceCount, row.updatedAt⟩), s) := by
  rw [getCandidate, run_bind_of_ok (run_select _ s)]
  cases hrow : find? s.candidates (trim candidateId) with
  | none => exact Or.inr (Or.inl ⟨rfl, rfl⟩)
  | some row =>
    simp only [parseCandidate]
    rw [run_bind, run_ensure_bind]
    split_ifs
    · exact Or.inr (Or.inr ⟨row, rfl, rfl⟩)
    · exact Or.inl ⟨_, rfl⟩

/-- A transition throws before it writes, or moves the candidate along an allowed transition. -/
theorem transition_outcome (env : Env) (input : TransitionInput) (s : Store) :
    (∃ e, run (transitionCandidate env input) s = (.error e, s)) ∨
      ∃ row transition transitionedAt,
        find? s.candidates (trim input.candidateId) = some row ∧
          isAllowedAcquisitionPromotionTransition row.candidate.stage input.toStage = true ∧
          transition.candidateId = trim input.candidateId ∧
          transition.fromStage = row.candidate.stage ∧ transition.toStage = input.toStage ∧
          run (transitionCandidate env input) s =
            (.ok transition,
              (run (writeTransition { row.candidate with stage := input.toStage } transitionedAt
                transition) s).2) := by
  rw [transitionCandidate]
  obtain ⟨e, he⟩ | ⟨-, hnone⟩ | ⟨row, hrow, hfound⟩ := run_getCandidate input.candidateId s
  · exact Or.inl ⟨e, run_bind_of_error he⟩
  · rw [run_bind_of_ok hnone]
    exact Or.inl ⟨_, rfl⟩
  · have hsome : ∀ e, run (orFail e (some (⟨row.candidate, row.evidenceCount, row.updatedAt⟩ :
        PersistedCandidate))) s = (.ok ⟨row.candidate, row.evidenceCount, row.updatedAt⟩, s) :=
      fun _ => rfl
    rw [run_bind_of_ok hfound, run_bind_of_ok (hsome _)]
    simp only [run_ensure_bind]
    split_ifs with hallowed hrationale hevidence hhuman hactor
    · cases htime : env.isoTime (input.transitionedAt.getD input.now) with
      | none => exact Or.inl ⟨_, rfl⟩
      | some transitionedAt =>
        exact Or.inr ⟨row, _, transitionedAt, hrow, hallowed, key_of_find? hrow, rfl, rfl, rfl⟩
    all_goals exact Or.inl ⟨_, rfl⟩

end MarkorbitKnowledge.Strategy
