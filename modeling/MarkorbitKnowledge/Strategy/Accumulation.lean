import MarkorbitKnowledge.Strategy.Consistency

/-!
# Runs of the governance registry

Any number of connections observe runs and move candidates along, statement by statement.  Where
calls about the same candidate or run do not overlap, and no observation lowers a confidence by coming
first or is recorded before a re-evaluation that conflicts (`Admits`), the registry accumulates
evidence consistently (`accumulates_consistently`).
-/

namespace MarkorbitKnowledge.Strategy

open Contracts Execution Interleaving Interleaving.Program Tables Transitions Window

/-- What the store must be for a call to begin: an observation that will be recorded does not lower
    the confidence by coming first, and where the run has another re-evaluation already, recording
    the observation leaves no trace. -/
def Admits (env : Env) : Call → Store → Prop
  | .observeLearningRun evidence lessons, s =>
    ∀ candidate observation,
      candidateObservation env evidence lessons = some (candidate, observation) →
        Matches s candidate → Repeats s observation →
          (find? s.observations (candidate.id, observation.runId) = none →
              ¬ LowersConfidence (s.observationsOf candidate.id) observation) ∧
            (ReevaluationConflict env s evidence lessons →
              find? s.observations (candidate.id, observation.runId) ≠ none ∧
                ∀ row, find? s.candidates candidate.id = some row →
                  ((ordered observedKey (s.observationsOf candidate.id)).getLast?.map
                    (·.observedAt)) = some row.updatedAt)
  | .transitionCandidate _, _ => True

/-- What a call does to the candidate it is about: its stage stays unless it is moved along an allowed
    transition, its confidence does not fall, and what it observes is recorded. -/
structure Outcome (env : Env) (call : Call) (s : Store) (result : Except RegistryError Answer)
    (t : Store) : Prop where
  refused : ∀ e, result = .error e → Agree view (parts env call) s t
  kept : ∀ c, parts env call (.candidate c) → ∀ row, find? s.candidates c = some row →
    ∃ row', find? t.candidates c = some row' ∧
      row.candidate.confidence ≤ row'.candidate.confidence ∧
      ((∃ evidence lessons, call = .observeLearningRun evidence lessons) →
        row'.candidate.stage = row.candidate.stage)
  recorded : ∀ answer, result = .ok answer → ∀ evidence lessons candidate observation,
    call = .observeLearningRun evidence lessons →
      candidateObservation env evidence lessons = some (candidate, observation) →
        observation ∈ t.observationsOf candidate.id

theorem outcome_refused {env : Env} {call : Call} {s : Store} {e : RegistryError} {t : Store}
    (h : Agree view (parts env call) s t) : Outcome env call s (.error e) t where
  refused _ _ := h
  kept c hc row hrow := by
    have hview := (view_candidate.mp (h _ hc)).1
    exact ⟨row, hview ▸ hrow, le_rfl, fun _ => rfl⟩
  recorded _ h := by cases h

/-- The outcome depends on the call's parts. -/
theorem Outcome.congr {env : Env} {call : Call} {s : Store} {result : Except RegistryError Answer}
    {t u : Store} (h : Outcome env call s result t) (htu : Agree view (parts env call) t u) :
    Outcome env call s result u where
  refused e he := (h.refused e he).trans htu
  kept c hc row hrow := by
    obtain ⟨row', hrow', hrest⟩ := h.kept c hc row hrow
    exact ⟨row', (view_candidate.mp (htu _ hc)).1 ▸ hrow', hrest⟩
  recorded answer ha evidence lessons candidate observation hcall hobservation := by
    have hc : parts env call (.candidate candidate.id) := by
      subst hcall
      simp [parts, hobservation]
    rw [← (view_candidate.mp (htu _ hc)).2.1]
    exact h.recorded answer ha evidence lessons candidate observation hcall hobservation

/-- A call that observes a candidate, its first write and its re-evaluation run one after the other. -/
theorem run_observe_of_recorded {env : Env} {evidence : AcquisitionRunEvidence}
    {lessons : List RunLesson} {s t : Store}
    {observed : Option (StrategyCandidate × CandidateObservation)}
    {persisted : Option PersistedCandidate}
    (hobserved : candidateObservation env evidence lessons = observed)
    (h : run (recordObserved observed) s = (.ok persisted, t)) :
    run (observeLearningRun env evidence lessons) s =
      ((run (recordReevaluation env evidence lessons) t).1.map fun request => (persisted, request),
        (run (recordReevaluation env evidence lessons) t).2) := by
  rw [observeLearningRun, hobserved, run_bind_of_ok h]
  exact run_map (fun request => (persisted, request)) (recordReevaluation env evidence lessons) t

theorem observe_outcome {env : Env} {evidence : AcquisitionRunEvidence} {lessons : List RunLesson}
    {s : Store} (hgood : ∀ k, parts env (.observeLearningRun evidence lessons) k → Good k s)
    (hadmits : Admits env (.observeLearningRun evidence lessons) s) :
    (∀ k, parts env (.observeLearningRun evidence lessons) k →
        Good k (run (program env (.observeLearningRun evidence lessons)) s).2) ∧
      Outcome env (.observeLearningRun evidence lessons) s
        (run (program env (.observeLearningRun evidence lessons)) s).1
        (run (program env (.observeLearningRun evidence lessons)) s).2 := by
  rw [program, run_map]
  have hpart : ∀ c, parts env (.observeLearningRun evidence lessons) (.candidate c) ↔
      (candidateObservation env evidence lessons).map (·.1.id) = some c := fun _ => Iff.rfl
  cases hobserved : candidateObservation env evidence lessons with
  | none =>
    obtain ⟨-, -, herror⟩ := run_recordReevaluation env evidence lessons s
    rw [run_observe_of_recorded hobserved rfl]
    refine ⟨fun k hk => ?_, ?_⟩
    · cases k with
      | reevaluation runId => exact trivial
      | candidate c =>
        rw [hpart, hobserved] at hk
        cases hk
    · cases hresult : (run (recordReevaluation env evidence lessons) s).1 with
      | error e =>
        rw [(herror e hresult).1]
        exact outcome_refused fun _ _ => rfl
      | ok request =>
        constructor
        · intro _ h
          cases h
        · intro c hc
          rw [hpart, hobserved] at hc
          cases hc
        · intro _ _ evidence' lessons' candidate observation hcall hobservation
          obtain ⟨rfl, rfl⟩ := Call.observeLearningRun.inj hcall
          rw [hobserved] at hobservation
          cases hobservation
  | some observed =>
    obtain ⟨candidate, observation⟩ := observed
    obtain ⟨hid, hrunId, hstage⟩ := candidateObservation_ids hobserved
    have hmem : parts env (.observeLearningRun evidence lessons) (.candidate candidate.id) := by
      rw [hpart, hobserved]
      rfl
    have hcandidate : Accumulated candidate.id s := hgood _ hmem
    by_cases hrecord : Matches s candidate ∧ Repeats s observation
    · obtain ⟨hlowers, hconflict⟩ := hadmits candidate observation hobserved hrecord.1 hrecord.2
      obtain ⟨persisted, hrun⟩ := run_record_of hid hrecord.1 hrecord.2
      have hrecorded : run (recordObserved (some (candidate, observation))) s =
          (.ok (some persisted), s.record candidate observation) := by
        rw [recordObserved, run_map, hrun]
        rfl
      rw [run_observe_of_recorded hobserved hrecorded]
      obtain ⟨hviews, -, herror⟩ :=
        run_recordReevaluation env evidence lessons (s.record candidate observation)
      have hafter := view_candidate.mp (hviews candidate.id)
      refine ⟨fun k hk => ?_, ?_⟩
      · cases k with
        | reevaluation runId => exact trivial
        | candidate c =>
          rw [hpart, hobserved] at hk
          obtain rfl := Option.some.inj hk
          exact good_congr _ _ _ (hviews candidate.id).symm (hcandidate.record hid hstage)
      constructor
      · intro e he k hk
        -- the re-evaluation conflicts, so the observation left no trace
        cases hresult : (run (recordReevaluation env evidence lessons)
          (s.record candidate observation)).1 with
        | ok request =>
          rw [hresult] at he
          cases he
        | error e' =>
          obtain ⟨hsame, hconflicts⟩ := herror e' hresult
          rw [hsame]
          cases k with
          | reevaluation runId => rfl
          | candidate c =>
            rw [hpart, hobserved] at hk
            obtain rfl := Option.some.inj hk
            obtain ⟨hfound, hupdated⟩ := hconflict hconflicts
            cases hrow : find? s.candidates candidate.id with
            | none =>
              rw [find?_observations, (hcandidate.absent hrow).1] at hfound
              exact absurd rfl hfound
            | some row =>
              exact view_record_of_repeats hcandidate hid hrow hfound (hupdated row hrow)
      · intro c hc row hrow
        rw [hpart, hobserved] at hc
        obtain rfl := Option.some.inj hc
        obtain ⟨hkept, hconfidence⟩ := recordedRow_of_some hcandidate hid hrow hlowers
        exact ⟨_, hafter.1.trans find?_record, hconfidence, fun _ => hkept⟩
      · intro _ _ evidence' lessons' candidate' observation' hcall hobservation
        obtain ⟨rfl, rfl⟩ := Call.observeLearningRun.inj hcall
        rw [hobserved] at hobservation
        obtain ⟨rfl, rfl⟩ := Prod.mk.inj (Option.some.inj hobservation)
        rw [hafter.2.1]
        exact List.mem_filter.mpr ⟨mem_record hrecord.2, by simpa using hid⟩
    · obtain ⟨e, he⟩ := run_record_of_not hcandidate hid hrecord
      have hrefused : run (observeLearningRun env evidence lessons) s = (.error e, s) := by
        rw [observeLearningRun, hobserved]
        refine run_bind_of_error ?_
        rw [recordObserved, run_map, he]
        rfl
      rw [hrefused]
      exact ⟨hgood, outcome_refused fun _ _ => rfl⟩

theorem transition_call_outcome {env : Env} {input : TransitionInput} {s : Store}
    (hgood : ∀ k, parts env (.transitionCandidate input) k → Good k s) :
    (∀ k, parts env (.transitionCandidate input) k →
        Good k (run (program env (.transitionCandidate input)) s).2) ∧
      Outcome env (.transitionCandidate input) s (run (program env (.transitionCandidate input)) s).1
        (run (program env (.transitionCandidate input)) s).2 := by
  have hcandidate : Accumulated (trim input.candidateId) s :=
    hgood (.candidate (trim input.candidateId)) rfl
  rw [program, run_map]
  obtain ⟨e, he⟩ | ⟨row, transition, transitionedAt, hrow, hallowed, hid, hfrom, hto, hrun⟩ :=
    transition_outcome env input s
  · rw [he]
    exact ⟨hgood, outcome_refused fun _ _ => rfl⟩
  · rw [hrun]
    have hrowId : row.candidate.id = trim input.candidateId := key_of_find? hrow
    have hfound : find? (run (writeTransition { row.candidate with stage := input.toStage }
        transitionedAt transition) s).2.candidates (trim input.candidateId) =
        some { row with
          candidate := { row.candidate with stage := input.toStage }
          updatedAt := transitionedAt } := by
      have hkey : ∀ other : CandidateRow, key (if other.candidate.id = row.candidate.id then
          { other with candidate := { row.candidate with stage := input.toStage },
                       updatedAt := transitionedAt } else other) = key other := by
        intro other
        by_cases h : other.candidate.id = row.candidate.id <;> simp [h]
      change find? (s.candidates.map _) _ = _
      rw [find?_map _ hkey, hrow]
      simp
    have htransitions : (run (writeTransition { row.candidate with stage := input.toStage }
        transitionedAt transition) s).2.transitionsOf (trim input.candidateId) =
        s.transitionsOf (trim input.candidateId) ++ [transition] := by
      change (s.transitions ++ [transition]).filter _ = _
      rw [List.filter_append]
      simp [Store.transitionsOf, hid]
    constructor
    · rintro k hk
      cases k with
      | reevaluation runId => exact trivial
      | candidate c =>
        obtain rfl : c = trim input.candidateId := hk
        constructor
        · exact hcandidate.keys
        · intro h
          rw [hfound] at h
          cases h
        · exact fun _ _ => hcandidate.observed row hrow
        · intro other h
          rw [hfound] at h
          obtain rfl := Option.some.inj h
          obtain ⟨hsum, hcount⟩ := hcandidate.summed row hrow
          refine ⟨?_, hcount⟩
          exact congrArg (fun document => { document with stage := input.toStage }) hsum
        · intro other h
          rw [hfound] at h
          obtain rfl := Option.some.inj h
          rw [htransitions]
          have hchain := (hcandidate.staged row hrow).append hfrom (hto ▸ hallowed)
          rwa [hto] at hchain
    · constructor
      · intro _ h
        cases h
      · intro c hc other hother
        obtain rfl : c = trim input.candidateId := hc
        rw [hrow] at hother
        obtain rfl := Option.some.inj hother
        refine ⟨_, hfound, le_rfl, ?_⟩
        rintro ⟨_, _, h⟩
        cases h
      · intro _ _ _ _ _ _ h
        cases h

/-! ### Runs -/

/-- The connections `ι` over an empty registry. -/
def registry (env : Env) (ι : Type) [DecidableEq ι] :
    Machine (State ι Call Store RegistryError Answer) (Step ι Call RegistryError) :=
  machine (program env) .empty

/-- Calls about one candidate or one run do not overlap, and each begins in a store that admits it. -/
abbrev Meets (env : Env) {ι : Type} (s : State ι Call Store RegistryError Answer)
    (l : Step ι Call RegistryError) : Prop :=
  Orderly view (parts env) (Admits env) s l

theorem run_call {env : Env} {call : Call} {s : Store}
    (hgood : ∀ k, parts env call k → Good k s) (hadmits : Admits env call s) :
    (∀ k, parts env call k → Good k (run (program env call) s).2) ∧
      Outcome env call s (run (program env call) s).1 (run (program env call) s).2 := by
  cases call with
  | observeLearningRun evidence lessons => exact observe_outcome hgood hadmits
  | transitionCandidate input => exact transition_call_outcome hgood

section run

variable {env : Env} {ι : Type} [DecidableEq ι] {steps : List (Step ι Call RegistryError)}

theorem registry_settled
    (h : (registry env ι).Throughout (Meets env) (registry env ι).init steps) :
    Settled (program env) view (parts env) (Admits env) Good ((registry env ι).run steps) :=
  run_settled (within_program env) good_congr (fun _ _ hgood hadmits => (run_call hgood hadmits).1)
    good_empty h

theorem outcome_of_completed
    (h : (registry env ι).Throughout (Meets env) (registry env ι).init steps)
    {done : Completed Call Store RegistryError Answer}
    (hdone : done ∈ ((registry env ι).run steps).completed) :
    Outcome env done.call done.begun done.result done.ended := by
  obtain ⟨halone, hadmits, hgood⟩ := (registry_settled h).completed done hdone
  rcases halone with ⟨hresult, hended⟩ | ⟨⟨e, hresult⟩, hended⟩
  · rw [hresult]
    exact (run_call hgood hadmits).2.congr hended
  · rw [hresult]
    exact outcome_refused hended

end run

theorem mem_sortedSet {α : Type} [DecidableEq α] {text : α → String} {values : List α} {a : α} :
    a ∈ sortedSet text values ↔ a ∈ values := by
  rw [sortedSet, List.mem_insertionSort, List.mem_eraseDups]

/-- The observation went into the candidate's document. -/
@[mk_iff] structure CandidateRow.Covers (row : CandidateRow) (observation : CandidateObservation) :
    Prop where
  source : observation.sourceId ∈ row.candidate.sourceScope
  lessons : ∀ ref ∈ observation.lessonRefs, ref ∈ row.candidate.lessonRefs
  rationale : ∀ reason ∈ observation.rationale, reason ∈ row.candidate.rationale

/-- The documents say the same of their evidence. -/
@[mk_iff] structure CandidateRow.SameEvidence (row other : CandidateRow) : Prop where
  sourceScope : row.candidate.sourceScope = other.candidate.sourceScope
  lessonRefs : row.candidate.lessonRefs = other.candidate.lessonRefs
  rationale : row.candidate.rationale = other.candidate.rationale
  confidence : row.candidate.confidence = other.candidate.confidence
  evidenceCount : row.evidenceCount = other.evidenceCount

theorem Accumulated.covers {c : String} {s : Store} (h : Accumulated c s) {row : CandidateRow}
    (hrow : find? s.candidates c = some row) {observation : CandidateObservation}
    (hmem : observation ∈ s.observationsOf c) : row.Covers observation := by
  have hobserved : observation ∈ ordered observedKey (s.observationsOf c) := mem_ordered.mpr hmem
  have hsummed := (h.summed row hrow).1
  constructor
  · rw [hsummed]
    exact mem_sortedSet.mpr (List.mem_map_of_mem hobserved)
  · intro ref href
    rw [hsummed]
    exact mem_sortedSet.mpr (List.mem_flatMap_of_mem hobserved href)
  · intro reason hreason
    rw [hsummed]
    exact List.mem_eraseDups.mpr (List.mem_flatMap_of_mem hobserved hreason)

/-- The evidence of a candidate depends only on which observations are recorded. -/
theorem Accumulated.sameEvidence {c : String} {s t : Store} (hs : Accumulated c s)
    (ht : Accumulated c t) {row other : CandidateRow} (hrow : find? s.candidates c = some row)
    (hother : find? t.candidates c = some other)
    (hsame : ∀ observation, observation ∈ s.observationsOf c ↔ observation ∈ t.observationsOf c) :
    row.SameEvidence other := by
  have hperm : (s.observationsOf c).Perm (t.observationsOf c) :=
    (List.perm_ext_iff_of_nodup (List.Nodup.of_map _ hs.keys)
      (List.Nodup.of_map _ ht.keys)).mpr hsame
  have hids : ∀ observation ∈ s.observationsOf c, observation.candidateId = c := by
    intro observation hmem
    simpa using (List.mem_filter.mp hmem).2
  have horder : ordered observedKey (s.observationsOf c) = ordered observedKey (t.observationsOf c) :=
    ordered_congr (nodup_observedKey hs.keys hids) hperm
  obtain ⟨hsummed, hcount⟩ := hs.summed row hrow
  obtain ⟨hsummed', hcount'⟩ := ht.summed other hother
  rw [horder] at hsummed
  constructor
  · rw [hsummed, hsummed']
    rfl
  · rw [hsummed, hsummed']
    rfl
  · rw [hsummed, hsummed']
    rfl
  · rw [hsummed, hsummed']
    rfl
  · rw [hcount, hcount', hperm.length_eq]

/-- The registry accumulates evidence consistently: a candidate that no call is about covers every
    observation recorded of it and counts them, its transitions lead from OBSERVED to its stage, and
    it says the same in every other run that recorded the same observations; a call writes nothing
    but its parts, a call that throws leaves them as they were, one that observes leaves the stage
    and does not lower the confidence, and what it observed stays recorded. -/
theorem accumulates_consistently (env : Env) {ι : Type} [DecidableEq ι]
    {steps : List (Step ι Call RegistryError)}
    (h : (registry env ι).Throughout (Meets env) (registry env ι).init steps) :
    (∀ c row, Quiet (parts env) ((registry env ι).run steps) (.candidate c) →
        find? ((registry env ι).run steps).store.candidates c = some row →
          (∀ observation ∈ ((registry env ι).run steps).store.observationsOf c,
              row.Covers observation) ∧
            row.evidenceCount = (((registry env ι).run steps).store.observationsOf c).length ∧
            StageChain .observed (((registry env ι).run steps).store.transitionsOf c)
              row.candidate.stage) ∧
      (∀ steps', (registry env ι).Throughout (Meets env) (registry env ι).init steps' →
        ∀ c row other, Quiet (parts env) ((registry env ι).run steps) (.candidate c) →
          Quiet (parts env) ((registry env ι).run steps') (.candidate c) →
          find? ((registry env ι).run steps).store.candidates c = some row →
          find? ((registry env ι).run steps').store.candidates c = some other →
          (∀ observation, observation ∈ ((registry env ι).run steps).store.observationsOf c ↔
            observation ∈ ((registry env ι).run steps').store.observationsOf c) →
            row.SameEvidence other) ∧
      (∀ call, Within view (parts env call) (program env call)) ∧
      ∀ done ∈ ((registry env ι).run steps).completed,
        Outcome env done.call done.begun done.result done.ended ∧
          ∀ answer evidence lessons candidate observation, done.result = .ok answer →
            done.call = .observeLearningRun evidence lessons →
            candidateObservation env evidence lessons = some (candidate, observation) →
            observation ∈ ((registry env ι).run steps).store.observationsOf candidate.id ∧
              (Quiet (parts env) ((registry env ι).run steps) (.candidate candidate.id) →
                ∃ row, find? ((registry env ι).run steps).store.candidates candidate.id = some row ∧
                  row.Covers observation) := by
  have hsettled := registry_settled h
  have hgood : ∀ c, Quiet (parts env) ((registry env ι).run steps) (.candidate c) →
      Accumulated c ((registry env ι).run steps).store := fun c hc => hsettled.quiet _ hc
  refine ⟨fun c row hquiet hrow => ?_, fun steps' h' c row other hquiet hquiet' hrow hother hsame => ?_,
    within_program env, fun done hdone => ⟨outcome_of_completed h hdone, ?_⟩⟩
  · have haccumulated := hgood c hquiet
    exact ⟨fun _ hmem => haccumulated.covers hrow hmem, (haccumulated.summed row hrow).2,
      haccumulated.staged row hrow⟩
  · exact (hgood c hquiet).sameEvidence ((registry_settled h').quiet _ hquiet') hrow hother hsame
  · intro answer evidence lessons candidate observation hresult hcall hobserved
    have hended := (outcome_of_completed h hdone).recorded answer hresult evidence lessons candidate
      observation hcall hobserved
    obtain ⟨hmem, hid⟩ := List.mem_filter.mp hended
    have hkept : observation ∈ ((registry env ι).run steps).store.observations :=
      (run_kept (fun call observation => keeps_program env observation call) .empty steps).2
        done hdone observation hmem
    have hstored : observation ∈
        ((registry env ι).run steps).store.observationsOf candidate.id :=
      List.mem_filter.mpr ⟨hkept, hid⟩
    refine ⟨hstored, fun hquiet => ?_⟩
    have haccumulated := hgood candidate.id hquiet
    cases hrow : find? ((registry env ι).run steps).store.candidates candidate.id with
    | none =>
      rw [(haccumulated.absent hrow).1] at hstored
      cases hstored
    | some row => exact ⟨row, rfl, haccumulated.covers hrow hstored⟩

/-! ### Two runs of one playbook -/

/-- A registry that knows one seed playbook. -/
def sampleEnv : Env where
  seedPlaybooks :=
    [{ id := "web-direct-entry-static"
       revision := 1
       primitives := [.staticHtmlFetch, .httpValidatorChangeWatch, .contentDigestChangeWatch]
       fallbackPlaybookIds := ["web-direct-entry-rendered"] }]
  candidateId _ _ _ := "asc_0a4f684a8c98a3f135c9b7b130f50126"
  reevaluationId runId :=
    if runId = "run-february" then "asr_b55fea28017db938e9ced8a571d78202"
    else "asr_99f81af889fb549b4b508213eddbd9f3"
  isoTime := some

def sampleEvidence (runId finishedAt : String) : AcquisitionRunEvidence where
  runId := runId
  sourceId := "source"
  playbookId := "web-direct-entry-static"
  playbookRevision := 1
  finishedAt := finishedAt

/-- In February the coverage regressed. -/
def februaryLesson : RunLesson where
  runId := "run-february"
  lessonType := .coverageRegression
  confidence := 95 / 100
  evidenceRefs := []
  reasonCodes := ["COVERAGE_DROP_GTE_5_POINTS", "REVALIDATION_REQUIRED"]
  recommendedPrimitive := some .corpusReconciliation
  affectedSurface := none

/-- In January a sitemap had covered 89 percent. -/
def januaryLesson : RunLesson where
  runId := "run-january"
  lessonType := .incompleteEnumerator
  confidence := 733 / 1000
  evidenceRefs := []
  reasonCodes := ["SURFACE_COVERAGE_LT_90_PERCENT", "FALLBACK_REQUIRED"]
  recommendedPrimitive := some .corpusReconciliation
  affectedSurface := some .sitemap

def februaryRun : Call :=
  .observeLearningRun (sampleEvidence "run-february" "2026-02-01T00:00:00.000Z") [februaryLesson]

def januaryRun : Call :=
  .observeLearningRun (sampleEvidence "run-january" "2026-01-01T00:00:00.000Z") [januaryLesson]

/-- One connection makes the calls, one after the other. -/
def oneAfterTheOther (calls : List Call) : List (Step Unit Call RegistryError) :=
  calls.flatMap fun call => .begin () call :: List.replicate 9 (.advance ())

/-- The confidence that is stored after the calls. -/
def storedConfidence (calls : List Call) : Option ℚ :=
  (find? ((registry sampleEnv Unit).run (oneAfterTheOther calls)).store.candidates
    "asc_0a4f684a8c98a3f135c9b7b130f50126").map (·.candidate.confidence)

/-- A run that finished first and is observed last lowers the confidence. -/
theorem late_observation_lowers_confidence :
    ∃ before after, storedConfidence [februaryRun] = some before ∧
      storedConfidence [februaryRun, januaryRun] = some after ∧ after < before := by
  refine ⟨95 / 100, 63713 / 80000, ?_, ?_, by norm_num⟩
  · decide +kernel
  · decide +kernel

/-- A run that has no re-evaluation, and finished after those observed of its candidate, is admitted. -/
theorem admits_later {env : Env} {evidence : AcquisitionRunEvidence} {lessons : List RunLesson}
    {s : Store} (hnew : find? s.reevaluations evidence.runId = none)
    (hlater : ∀ candidate observation,
      candidateObservation env evidence lessons = some (candidate, observation) →
        ∀ recorded ∈ s.observationsOf candidate.id, ¬ observedKey observation < observedKey recorded) :
    Admits env (.observeLearningRun evidence lessons) s := by
  intro candidate observation hobserved _ _
  constructor
  · rintro - ⟨first, rest, horder, hfirst, -⟩
    have hmem : first ∈ s.observationsOf candidate.id := by
      rw [← @mem_ordered _ _ _ observedKey, horder]
      exact List.mem_cons_self
    exact hlater candidate observation hobserved first hmem hfirst
  · rintro ⟨_, existing, -, hexisting, -⟩
    rw [hnew] at hexisting
    cases hexisting

/-- The call of a connection, until it has returned. -/
def turn (connection : Bool) (call : Call) : List (Step Bool Call RegistryError) :=
  .begin connection call :: List.replicate 9 (.advance connection)

theorem throughout_turn {env : Env} {s : State Bool Call Store RegistryError Answer}
    (connection : Bool) {call : Call} (hidle : s.active = fun _ => none)
    (hadmits : Admits env call s.store) :
    (registry env Bool).Throughout (Meets env) s (turn connection call) := by
  refine ⟨⟨fun _ _ other progress h => ?_, hadmits⟩, trivial, trivial, trivial, trivial, trivial, trivial,
    trivial, trivial, trivial, trivial⟩
  rw [hidle] at h
  cases h

/-- The observed strategy becomes a candidate. -/
def promotion : Call :=
  .transitionCandidate
    { candidateId := "asc_0a4f684a8c98a3f135c9b7b130f50126"
      toStage := .candidate
      actor := { actorType := .system, actorId := "strategy-review" }
      evidenceRefs := []
      rationale := "Two runs recommend the reconciliation."
      transitionedAt := some "2026-02-02T00:00:00.000Z"
      now := "2026-02-02T00:00:00.000Z"
      id := "ast_1" }

/-- January is observed on one connection and February on the other; then the first one moves the
    candidate along. -/
def twoMonths : List (Step Bool Call RegistryError) :=
  (turn false januaryRun ++ turn true februaryRun) ++ turn false promotion

theorem observed_february {candidate : StrategyCandidate} {observation : CandidateObservation}
    (h : candidateObservation sampleEnv
      (sampleEvidence "run-february" "2026-02-01T00:00:00.000Z") [februaryLesson] =
        some (candidate, observation)) :
    candidate.id = "asc_0a4f684a8c98a3f135c9b7b130f50126" ∧
      observedKey observation = toLex ("2026-02-01T00:00:00.000Z", "run-february") := by
  have hobserved : (candidateObservation sampleEnv
      (sampleEvidence "run-february" "2026-02-01T00:00:00.000Z") [februaryLesson]).map
        (fun observed => (observed.1.id, observedKey observed.2)) =
          some ("asc_0a4f684a8c98a3f135c9b7b130f50126",
            toLex ("2026-02-01T00:00:00.000Z", "run-february")) := by
    decide +kernel
  rw [h, Option.map_some] at hobserved
  exact Prod.mk.inj (Option.some.inj hobserved)

/-- Two runs and a transition accumulate. -/
theorem accumulates_consistently_twoMonths :
    (registry sampleEnv Bool).Throughout (Meets sampleEnv) (registry sampleEnv Bool).init twoMonths ∧
      ∃ row, find? ((registry sampleEnv Bool).run twoMonths).store.candidates
          "asc_0a4f684a8c98a3f135c9b7b130f50126" = some row ∧
        row.evidenceCount = 2 ∧ row.candidate.stage = .candidate ∧
        (∀ observation ∈ ((registry sampleEnv Bool).run twoMonths).store.observationsOf
            "asc_0a4f684a8c98a3f135c9b7b130f50126", row.Covers observation) ∧
        StageChain .observed (((registry sampleEnv Bool).run twoMonths).store.transitionsOf
          "asc_0a4f684a8c98a3f135c9b7b130f50126") .candidate := by
  have hmeets : (registry sampleEnv Bool).Throughout (Meets sampleEnv)
      (registry sampleEnv Bool).init twoMonths := by
    refine Machine.Throughout.append (Machine.Throughout.append ?_ ?_) ?_
    · exact throughout_turn false rfl
        (admits_later rfl fun _ _ _ _ hrecorded => absurd hrecorded List.not_mem_nil)
    · refine throughout_turn true (funext fun connection => by cases connection <;> rfl)
        (admits_later (by decide +kernel) fun candidate observation hobserved => ?_)
      obtain ⟨hid, hkey⟩ := observed_february hobserved
      rw [hid, hkey]
      decide +kernel
    · exact throughout_turn false (funext fun connection => by cases connection <;> rfl) trivial
  refine ⟨hmeets, ?_⟩
  have hstored : (find? ((registry sampleEnv Bool).run twoMonths).store.candidates
      "asc_0a4f684a8c98a3f135c9b7b130f50126").map
        (fun row => (row.evidenceCount, row.candidate.stage)) = some (2, .candidate) := by
    decide +kernel
  obtain ⟨row, hrow, heq⟩ := Option.map_eq_some_iff.mp hstored
  obtain ⟨hcount, hstage⟩ := Prod.mk.inj heq
  have hquiet : Quiet (parts sampleEnv) ((registry sampleEnv Bool).run twoMonths)
      (.candidate "asc_0a4f684a8c98a3f135c9b7b130f50126") := by
    have hidle : ((registry sampleEnv Bool).run twoMonths).active = fun _ => none :=
      funext fun connection => by cases connection <;> rfl
    intro connection progress h
    rw [hidle] at h
    cases h
  obtain ⟨hcovers, -, hchain⟩ := (accumulates_consistently sampleEnv hmeets).1 _ row hquiet hrow
  exact ⟨row, hrow, hcount, hstage, hcovers, hstage ▸ hchain⟩

end MarkorbitKnowledge.Strategy
