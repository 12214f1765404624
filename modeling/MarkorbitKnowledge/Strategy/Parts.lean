import MarkorbitKnowledge.Strategy.Governance

/-!
# What a governance call reads and writes

A call is within what is stored of one candidate and of the re-evaluation of one run
(`within_program`), and no call removes an observation (`keeps_program`).
-/

namespace MarkorbitKnowledge.Strategy

open Contracts Execution Interleaving Interleaving.Program Tables Transitions Window

/-! ### The parts of the store -/

theorem view_candidate {s t : Store} {c : String} :
    view (.candidate c) s = view (.candidate c) t ↔
      find? s.candidates c = find? t.candidates c ∧ s.observationsOf c = t.observationsOf c ∧
        s.transitionsOf c = t.transitionsOf c :=
  Prod.mk_inj.trans (and_congr Iff.rfl Prod.mk_inj)

theorem view_reevaluation {s t : Store} {runId : String} :
    view (.reevaluation runId) s = view (.reevaluation runId) t ↔
      find? s.reevaluations runId = find? t.reevaluations runId := Iff.rfl

theorem find?_observations (s : Store) (c runId : String) :
    find? s.observations (c, runId) = find? (s.observationsOf c) (c, runId) := by
  have h : ∀ observations : List CandidateObservation, find? observations (c, runId) =
      find? (observations.filter (·.candidateId = c)) (c, runId) := by
    intro observations
    induction observations with
    | nil => rfl
    | cons first rest ih =>
      by_cases hc : first.candidateId = c
      · simp [find?_cons, hc, ih]
      · simp [find?_cons, hc, ih]
  exact h s.observations

variable {P : Part → Prop}

theorem within_ensure (condition : Prop) [Decidable condition] (e : RegistryError) :
    Within view P (ensure condition e) := by
  unfold ensure
  split_ifs
  · exact within_pure ()
  · exact within_fail e

theorem within_orFail {α : Type} (e : RegistryError) (value : Option α) :
    Within view P (orFail e value) := by
  cases value with
  | none => exact within_fail e
  | some a => exact within_pure a

theorem within_insertRow {columns : String} {taken : Store → Bool} {write : Store → Store}
    (htaken : ∀ s t, Agree view P s t → taken s = taken t)
    (hframe : ∀ s k, ¬ P k → view k (write s) = view k s)
    (hown : ∀ s t, Agree view P s t → Agree view P (write s) (write t)) :
    Within view P (insertRow columns taken write) := by
  refine within_statement (fun s k hk => ?_) fun s t hst => ?_
  · by_cases h : taken s = true
    · simp only [h, if_true]
    · simp only [h, if_false, Bool.false_eq_true]
      exact hframe s k hk
  · have htaken := htaken s t hst
    simp only [htaken, and_true]
    by_cases h : taken t = true
    · simpa only [h, if_true] using hst
    · simpa only [h, if_false, Bool.false_eq_true] using hown s t hst

theorem within_parseCandidate (candidate : StrategyCandidate) :
    Within view P (parseCandidate candidate) :=
  within_bind (within_ensure _ _) fun _ _ => within_pure _

theorem within_parseExisting (row : Option CandidateRow) : Within view P (parseExisting row) := by
  cases row with
  | none => exact within_pure none
  | some row => exact within_map _ (within_parseCandidate row.candidate)

theorem returns_parseExisting {row : Option CandidateRow} {existing : Option StrategyCandidate}
    (h : Returns (parseExisting row) existing) : existing = row.map (·.candidate) := by
  cases row with
  | none => exact (returns_pure.mp h).symm
  | some row =>
    obtain ⟨candidate, hcandidate, rfl⟩ := returns_map.mp h
    obtain ⟨_, -, hcandidate⟩ := returns_bind.mp hcandidate
    exact congrArg some (returns_pure.mp hcandidate).symm

theorem returns_getCandidate {candidateId : String} {persisted : PersistedCandidate}
    (h : Returns (getCandidate candidateId) (some persisted)) :
    persisted.candidate.id = trim candidateId := by
  obtain ⟨row, hrow, hpersisted⟩ := returns_bind.mp h
  obtain ⟨s, hread⟩ := returns_select.mp hrow
  cases row with
  | none => cases returns_pure.mp hpersisted
  | some row =>
    obtain ⟨candidate, hcandidate, hpersisted⟩ := returns_bind.mp hpersisted
    obtain ⟨_, -, hcandidate⟩ := returns_bind.mp hcandidate
    obtain rfl := Option.some.inj (returns_pure.mp hpersisted)
    rw [← returns_pure.mp hcandidate]
    exact key_of_find? hread

theorem returns_orFail {α : Type} {e : RegistryError} {value : Option α} {a : α}
    (h : Returns (orFail e value) a) : value = some a := by
  cases value with
  | none => exact absurd h not_false
  | some b => exact congrArg some (returns_pure.mp h)

section candidate

variable {c : String} (hc : P (.candidate c))

include hc

theorem within_selectCandidate :
    Within view P (select fun s => find? s.candidates c : Statements (Option CandidateRow)) :=
  within_select fun _ _ h => (view_candidate.mp (h _ hc)).1

/-- A write to what is stored of a candidate. -/
theorem within_candidateWrite (write : Store → Store)
    (hothers : ∀ s c', c' ≠ c → view (.candidate c') (write s) = view (.candidate c') s)
    (hreevaluations : ∀ s, (write s).reevaluations = s.reevaluations)
    (hown : ∀ s t, view (.candidate c) s = view (.candidate c) t →
      view (.candidate c) (write s) = view (.candidate c) (write t)) :
    (∀ s k, ¬ P k → view k (write s) = view k s) ∧
      ∀ s t, Agree view P s t → Agree view P (write s) (write t) := by
  constructor
  · intro s k hk
    cases k with
    | candidate c' =>
      refine hothers s c' ?_
      rintro rfl
      exact hk hc
    | reevaluation runId => rw [view_reevaluation, hreevaluations]
  · intro s t hst k hk
    cases k with
    | candidate c' =>
      by_cases h : c' = c
      · subst h
        exact hown s t (hst _ hk)
      · rw [hothers s c' h, hothers t c' h]
        exact hst _ hk
    | reevaluation runId =>
      rw [view_reevaluation, hreevaluations, hreevaluations]
      exact hst _ hk

theorem within_admitCandidate {candidate : StrategyCandidate} (hid : candidate.id = c)
    (existing : Option StrategyCandidate) : Within view P (admitCandidate candidate existing) := by
  subst hid
  cases existing with
  | some existing => exact within_ensure _ _
  | none =>
    obtain ⟨hframe, hown⟩ := within_candidateWrite hc
      (fun s => { s with candidates := s.candidates ++ [⟨candidate, 0, candidate.createdAt⟩] })
      (fun s c' hne => view_candidate.mpr
        ⟨by simp [find?_append_singleton, Ne.symm hne], rfl, rfl⟩)
      (fun _ => rfl)
      (fun s t h => by
        obtain ⟨hrow, hobservations, htransitions⟩ := view_candidate.mp h
        exact view_candidate.mpr
          ⟨by simp [find?_append_singleton, hrow], hobservations, htransitions⟩)
    refine within_insertRow (fun s t h => ?_) hframe hown
    rw [(view_candidate.mp (h _ hc)).1]

theorem within_admitObservation {observation : CandidateObservation}
    (hid : observation.candidateId = c) (existing : Option CandidateObservation) :
    Within view P (admitObservation observation existing) := by
  subst hid
  cases existing with
  | some existing => exact within_ensure _ _
  | none =>
    obtain ⟨hframe, hown⟩ := within_candidateWrite hc
      (fun s => { s with observations := s.observations ++ [observation] })
      (fun s c' hne => view_candidate.mpr
        ⟨rfl, by simp [Store.observationsOf, Ne.symm hne], rfl⟩)
      (fun _ => rfl)
      (fun s t h => by
        obtain ⟨hrow, hobservations, htransitions⟩ := view_candidate.mp h
        refine view_candidate.mpr ⟨hrow, ?_, htransitions⟩
        simpa [Store.observationsOf] using hobservations)
    refine within_insertRow (fun s t h => ?_) hframe hown
    rw [find?_observations s, find?_observations t, (view_candidate.mp (h _ hc)).2.1]

/-- The row is rewritten under the key it was read by. -/
theorem within_updateCandidate {row : CandidateRow} (hid : row.candidate.id = c) :
    Within view P (execute fun s => { s with candidates := update s.candidates row } :
      Statements Unit) := by
  subst hid
  obtain ⟨hframe, hown⟩ := within_candidateWrite hc
    (fun s => { s with candidates := update s.candidates row })
    (fun s c' hne => view_candidate.mpr ⟨find?_update_of_ne hne, rfl, rfl⟩)
    (fun _ => rfl)
    (fun s t h => by
      obtain ⟨hrow, hobservations, htransitions⟩ := view_candidate.mp h
      exact view_candidate.mpr ⟨find?_update_congr hrow, hobservations, htransitions⟩)
  exact within_execute hframe hown

theorem within_record {candidate : StrategyCandidate} {observation : CandidateObservation}
    (hid : candidate.id = c) (hobservation : observation.candidateId = c) :
    Within view P (recordCandidateObservation candidate observation) := by
  subst hid
  refine within_bind (within_selectCandidate hc) fun existingRow hrow => ?_
  refine within_bind (within_parseExisting existingRow) fun existingCandidate hexisting => ?_
  refine within_bind (within_admitCandidate hc rfl existingCandidate) fun _ _ => ?_
  refine within_bind (within_select fun s t h => ?_) fun existingObservation _ => ?_
  · rw [find?_observations s, find?_observations t, (view_candidate.mp (h _ hc)).2.1]
  refine within_bind (within_admitObservation hc hobservation existingObservation) fun _ _ => ?_
  refine within_bind (within_select fun s t h => ?_) fun observations _ => ?_
  · rw [(view_candidate.mp (h _ hc)).2.1]
  refine within_bind (within_updateCandidate hc ?_) fun _ _ => within_pure _
  obtain ⟨s, hread⟩ := returns_select.mp hrow
  have hbaseline := returns_parseExisting hexisting
  subst hbaseline
  cases hfound : existingRow with
  | none => rfl
  | some row => exact key_of_find? (hread.trans hfound)

/-- The transaction of a transition. -/
theorem within_writeTransition {next : StrategyCandidate} {transitionedAt : String}
    {transition : AcquisitionStrategyCandidateTransition} (hnext : next.id = c)
    (htransition : transition.candidateId = c) :
    Within view P (writeTransition next transitionedAt transition) := by
  subst hnext
  have hkey : ∀ row : CandidateRow, key (if row.candidate.id = next.id then
      { row with candidate := next, updatedAt := transitionedAt } else row) = key row := by
    intro row
    by_cases h : row.candidate.id = next.id <;> simp [h]
  obtain ⟨hframe, hown⟩ := within_candidateWrite hc
    (fun s =>
      { s with
        candidates := s.candidates.map fun row =>
          if row.candidate.id = next.id then
            { row with candidate := next, updatedAt := transitionedAt }
          else row
        transitions := s.transitions ++ [transition] })
    (fun s c' hne => by
      refine view_candidate.mpr ⟨?_, rfl, ?_⟩
      · rw [find?_map _ hkey]
        cases hrow : find? s.candidates c' with
        | none => rfl
        | some row =>
          have hid : row.candidate.id ≠ next.id := fun h => hne ((key_of_find? hrow).symm.trans h)
          simp [hid]
      · simp [Store.transitionsOf, htransition, Ne.symm hne])
    (fun _ => rfl)
    (fun s t h => by
      obtain ⟨hrow, hobservations, htransitions⟩ := view_candidate.mp h
      refine view_candidate.mpr ⟨?_, hobservations, ?_⟩
      · rw [find?_map _ hkey, find?_map _ hkey, hrow]
      · simpa [Store.transitionsOf] using htransitions)
  exact within_execute hframe hown

theorem within_transition (env : Env) {input : TransitionInput} (hid : trim input.candidateId = c) :
    Within view P (transitionCandidate env input) := by
  subst hid
  refine within_bind (within_bind (within_selectCandidate hc) fun row _ => ?_) fun found hfound => ?_
  · cases row with
    | none => exact within_pure none
    | some row =>
      exact within_bind (within_parseCandidate row.candidate) fun _ _ => within_pure _
  refine within_bind (within_orFail _ found) fun persisted hpersisted => ?_
  obtain rfl := returns_orFail hpersisted
  have hpersisted := returns_getCandidate hfound
  refine within_bind (within_ensure _ _) fun _ _ => ?_
  refine within_bind (within_ensure _ _) fun _ _ => ?_
  refine within_bind (within_ensure _ _) fun _ _ => ?_
  refine within_bind (within_ensure _ _) fun _ _ => ?_
  refine within_bind (within_ensure _ _) fun _ _ => ?_
  refine within_bind (within_orFail _ _) fun transitionedAt _ => ?_
  exact within_bind (within_writeTransition hc hpersisted hpersisted) fun _ _ => within_pure _

end candidate

theorem within_recordReevaluation (env : Env) {evidence : AcquisitionRunEvidence}
    (lessons : List RunLesson) (hrun : P (.reevaluation evidence.runId)) :
    Within view P (recordReevaluation env evidence lessons) := by
  unfold recordReevaluation
  cases hrequest : reevaluationRequest env evidence lessons with
  | none => exact within_pure none
  | some request =>
    have hid : request.runId = evidence.runId := by
      simp only [reevaluationRequest] at hrequest
      split_ifs at hrequest
      obtain rfl := Option.some.inj hrequest
      rfl
    refine within_bind (within_select fun s t h => h _ hrun) fun existing _ => ?_
    cases existing with
    | some existing => exact within_bind (within_ensure _ _) fun _ _ => within_pure _
    | none =>
      refine within_bind (within_insertRow (fun s t h => ?_) (fun s k hk => ?_) fun s t hst k hk => ?_)
        fun _ _ => within_pure _
      · have hview : find? s.reevaluations evidence.runId = find? t.reevaluations evidence.runId :=
          h _ hrun
        rw [hid, hview]
      · cases k with
        | candidate c => rfl
        | reevaluation runId =>
          have hne : request.runId ≠ runId := by
            rintro rfl
            exact hk (hid ▸ hrun)
          exact view_reevaluation.mpr (by simp [find?_append_singleton, hne])
      · cases k with
        | candidate c => exact hst _ hk
        | reevaluation runId =>
          have hview := view_reevaluation.mp (hst _ hk)
          exact view_reevaluation.mpr (by simp [find?_append_singleton, hview])

/-- A call reads and writes what is stored of its candidate and of its run. -/
theorem within_program (env : Env) (call : Call) :
    Within view (parts env call) (program env call) := by
  cases call with
  | transitionCandidate input =>
    have hc : parts env (.transitionCandidate input) (.candidate (trim input.candidateId)) := rfl
    exact within_map _ (within_transition hc env rfl)
  | observeLearningRun evidence lessons =>
    refine within_map _ (within_bind ?_ fun _ _ =>
      within_bind (within_recordReevaluation env lessons rfl) fun _ _ => within_pure _)
    cases h : candidateObservation env evidence lessons with
    | none => exact within_pure none
    | some observed =>
      obtain ⟨candidate, observation⟩ := observed
      have hc : parts env (.observeLearningRun evidence lessons) (.candidate candidate.id) := by
        simp [parts, h]
      exact within_map _ (within_record hc rfl (candidateObservation_ids h).1)

/-! ### Observations stay -/

theorem keeps_insertRow {Q : Store → Prop} {columns : String} {taken : Store → Bool}
    {write : Store → Store} (h : ∀ s, Q s → Q (write s)) :
    Keeps Q (insertRow columns taken write) := by
  refine keeps_statement fun s hs => ?_
  by_cases ht : taken s = true
  · simpa only [ht, if_true] using hs
  · simpa only [ht, if_false, Bool.false_eq_true] using h s hs

theorem keeps_ensure {Q : Store → Prop} (condition : Prop) [Decidable condition]
    (e : RegistryError) : Keeps Q (ensure condition e) := by
  unfold ensure
  split_ifs
  · exact keeps_pure ()
  · exact keeps_fail e

theorem keeps_orFail {Q : Store → Prop} {α : Type} (e : RegistryError) (value : Option α) :
    Keeps Q (orFail e value) := by
  cases value with
  | none => exact keeps_fail e
  | some a => exact keeps_pure a

theorem keeps_parseCandidate {Q : Store → Prop} (candidate : StrategyCandidate) :
    Keeps Q (parseCandidate candidate) :=
  keeps_bind (keeps_ensure _ _) fun _ => keeps_pure _

theorem keeps_record {observation : CandidateObservation} (candidate : StrategyCandidate)
    (observed : CandidateObservation) :
    Keeps (fun s => observation ∈ s.observations) (recordCandidateObservation candidate observed) := by
  refine keeps_bind (keeps_select _) fun existingRow => ?_
  refine keeps_bind ?_ fun existingCandidate => ?_
  · cases existingRow with
    | none => exact keeps_pure none
    | some row => exact keeps_map _ (keeps_parseCandidate row.candidate)
  refine keeps_bind ?_ fun _ => keeps_bind (keeps_select _) fun existingObservation => ?_
  · cases existingCandidate with
    | none => exact keeps_insertRow fun _ h => h
    | some existing => exact keeps_ensure _ _
  refine keeps_bind ?_ fun _ => keeps_bind (keeps_select _) fun observations => ?_
  · cases existingObservation with
    | none => exact keeps_insertRow fun _ h => List.mem_append_left _ h
    | some existing => exact keeps_ensure _ _
  exact keeps_bind (keeps_execute fun _ h => h) fun _ => keeps_pure _

/-- No statement of a call removes an observation. -/
theorem keeps_program (env : Env) (observation : CandidateObservation) (call : Call) :
    Keeps (fun s => observation ∈ s.observations) (program env call) := by
  cases call with
  | observeLearningRun evidence lessons =>
    refine keeps_map _ (keeps_bind ?_ fun _ => keeps_bind ?_ fun _ => keeps_pure _)
    · cases candidateObservation env evidence lessons with
      | none => exact keeps_pure none
      | some observed => exact keeps_map _ (keeps_record observed.1 observed.2)
    · unfold recordReevaluation
      cases reevaluationRequest env evidence lessons with
      | none => exact keeps_pure none
      | some request =>
        refine keeps_bind (keeps_select _) fun existing => ?_
        cases existing with
        | some existing => exact keeps_bind (keeps_ensure _ _) fun _ => keeps_pure _
        | none => exact keeps_bind (keeps_insertRow fun _ h => h) fun _ => keeps_pure _
  | transitionCandidate input =>
    refine keeps_map _ (keeps_bind (keeps_bind (keeps_select _) fun row => ?_) fun found => ?_)
    · cases row with
      | none => exact keeps_pure none
      | some row => exact keeps_bind (keeps_parseCandidate row.candidate) fun _ => keeps_pure _
    refine keeps_bind (keeps_orFail _ found) fun persisted => ?_
    refine keeps_bind (keeps_ensure _ _) fun _ => keeps_bind (keeps_ensure _ _) fun _ => ?_
    refine keeps_bind (keeps_ensure _ _) fun _ => keeps_bind (keeps_ensure _ _) fun _ => ?_
    refine keeps_bind (keeps_ensure _ _) fun _ => keeps_bind (keeps_orFail _ _) fun _ => ?_
    exact keeps_bind (keeps_execute fun _ h => h) fun _ => keeps_pure _

end MarkorbitKnowledge.Strategy
