import MarkorbitKnowledge.Execution.Store
import MarkorbitKnowledge.Lib.Interleaving
import MarkorbitKnowledge.Lib.Tables
import MarkorbitKnowledge.Strategy.Observation

/-!
# The acquisition strategy governance registry

`observeLearningRun` and `transitionCandidate` as the statements they execute.  The first has no
transaction: each of its statements commits by itself, so the statements of another connection come
between any two of them.  The second reads the candidate, checks the transition, and then writes the
candidate and the transition record in one transaction, which is one statement here.
-/

namespace MarkorbitKnowledge.Strategy

open Contracts Execution Interleaving Interleaving.Program Tables Window

/-! ### Tables -/

structure CandidateRow where
  /-- `document_json`. -/
  candidate : StrategyCandidate
  evidenceCount : Nat
  updatedAt : String
deriving DecidableEq

instance : Keyed CandidateRow String := ⟨fun row => row.candidate.id⟩

instance : Keyed CandidateObservation (String × String) := ⟨fun row => (row.candidateId, row.runId)⟩

@[simp] theorem key_candidateRow (row : CandidateRow) : key row = row.candidate.id := rfl

@[simp] theorem key_candidateObservation (row : CandidateObservation) :
    key row = (row.candidateId, row.runId) := rfl

inductive ActorType where
  | human
  | system
deriving DecidableEq

structure AcquisitionStrategyGovernanceActor where
  actorType : ActorType
  actorId : String
deriving DecidableEq

structure AcquisitionStrategyCandidateTransition where
  id : String
  candidateId : String
  playbookId : String
  proposedRevision : Int
  fromStage : AcquisitionPromotionStage
  toStage : AcquisitionPromotionStage
  transitionedAt : String
  actor : AcquisitionStrategyGovernanceActor
  evidenceRefs : List String
  rationale : String
deriving DecidableEq

structure AcquisitionStrategyReevaluationRequest where
  id : String
  runId : String
  sourceId : String
  playbookId : String
  playbookRevision : Int
  requestedAt : String
  lessonTypes : List AcquisitionLessonType
  reasonCodes : List String
  fallbackPlaybookIds : List String
  evidenceRefs : List String
deriving DecidableEq

instance : Keyed AcquisitionStrategyReevaluationRequest String := ⟨fun row => row.runId⟩

@[simp] theorem key_reevaluationRequest (row : AcquisitionStrategyReevaluationRequest) :
    key row = row.runId := rfl

structure Store where
  candidates : List CandidateRow
  observations : List CandidateObservation
  transitions : List AcquisitionStrategyCandidateTransition
  reevaluations : List AcquisitionStrategyReevaluationRequest
deriving DecidableEq

def Store.empty : Store := ⟨[], [], [], []⟩

/-- The observations of a candidate, as they were recorded. -/
def Store.observationsOf (s : Store) (candidateId : String) : List CandidateObservation :=
  s.observations.filter (·.candidateId = candidateId)

/-- The transitions of a candidate, as they were recorded. -/
def Store.transitionsOf (s : Store) (candidateId : String) :
    List AcquisitionStrategyCandidateTransition :=
  s.transitions.filter (·.candidateId = candidateId)

/-! ### Statements -/

abbrev Statements (α : Type) : Type := Program Store RegistryError α

def ensure (condition : Prop) [Decidable condition] (error : RegistryError) : Statements Unit :=
  if condition then pure () else fail error

def orFail {α : Type} (error : RegistryError) : Option α → Statements α
  | some value => pure value
  | none => fail error

/-- An `INSERT`, which a row under the same key makes fail. -/
def insertRow (columns : String) (taken : Store → Bool) (write : Store → Store) : Statements Unit :=
  .statement (fun s => if taken s then s else write s) fun s =>
    .finished (if taken s then .error (.uniqueConstraint columns) else .ok ())

structure PersistedCandidate where
  candidate : StrategyCandidate
  evidenceCount : Nat
  updatedAt : String
deriving DecidableEq

def parseCandidate (candidate : StrategyCandidate) : Statements StrategyCandidate := do
  ensure (0 < candidate.proposedRevision) (.validation "Stored StrategyCandidate is invalid")
  return candidate

/-- `existingRow ? parseCandidate(existingRow.document_json) : null`. -/
def parseExisting : Option CandidateRow → Statements (Option StrategyCandidate)
  | none => pure none
  | some row => some <$> parseCandidate row.candidate

def getCandidate (candidateId : String) : Statements (Option PersistedCandidate) := do
  let row ← select fun s => find? s.candidates (trim candidateId)
  match row with
  | none => return none
  | some row =>
    let candidate ← parseCandidate row.candidate
    return some ⟨candidate, row.evidenceCount, row.updatedAt⟩

/-! ### Observing a learning run -/

/-- The first write: the candidate is stored, or is stored already as this playbook revision. -/
def admitCandidate (candidate : StrategyCandidate) : Option StrategyCandidate → Statements Unit
  | none =>
    insertRow "acquisition_strategy_candidates.id" (fun s => (find? s.candidates candidate.id).isSome)
      fun s => { s with candidates := s.candidates ++ [⟨candidate, 0, candidate.createdAt⟩] }
  | some existing =>
    ensure
      (existing.playbookId = candidate.playbookId ∧
        existing.proposedRevision = candidate.proposedRevision)
      (.conflict "ACQUISITION_STRATEGY_CANDIDATE_IDENTITY_CONFLICT"
        ("Candidate " ++ candidate.id ++ " already identifies another playbook revision"))

/-- The second write: the observation is stored, or is stored already. -/
def admitObservation (observation : CandidateObservation) :
    Option CandidateObservation → Statements Unit
  | some existing =>
    ensure (existing = observation)
      (.conflict "ACQUISITION_STRATEGY_CANDIDATE_OBSERVATION_CONFLICT"
        ("Candidate " ++ observation.candidateId ++ " already has different evidence for run " ++
          observation.runId))
  | none =>
    insertRow
      ("acquisition_strategy_candidate_observations.candidate_id, " ++
        "acquisition_strategy_candidate_observations.run_id")
      (fun s => (find? s.observations (observation.candidateId, observation.runId)).isSome)
      fun s => { s with observations := s.observations ++ [observation] }

/-- The candidate's document with its observations summed up. -/
def summarize (baseline : StrategyCandidate) (observations : List CandidateObservation) :
    StrategyCandidate :=
  { baseline with
    sourceScope := sortedSet id (observations.map (·.sourceId))
    lessonRefs := sortedSet id (observations.flatMap (·.lessonRefs))
    confidence := combinedConfidence observations
    rationale := (observations.flatMap (·.rationale)).eraseDups }

/-- The row that the third write stores. -/
def summaryRow (baseline : StrategyCandidate) (observations : List CandidateObservation) :
    CandidateRow :=
  ⟨summarize baseline observations, observations.length,
    (observations.getLast?.map (·.observedAt)).getD baseline.createdAt⟩

def recordCandidateObservation (candidate : StrategyCandidate) (observation : CandidateObservation) :
    Statements PersistedCandidate := do
  let existingRow ← select fun s => find? s.candidates candidate.id
  let existingCandidate ← parseExisting existingRow
  admitCandidate candidate existingCandidate
  let existingObservation ← select fun s => find? s.observations (candidate.id, observation.runId)
  admitObservation observation existingObservation
  let observations ← select fun s => ordered observedKey (s.observationsOf candidate.id)
  let next := summaryRow (existingCandidate.getD candidate) observations
  execute fun s => { s with candidates := update s.candidates next }
  return ⟨next.candidate, next.evidenceCount, next.updatedAt⟩

/-- `observation ? this.recordCandidateObservation(…) : null`. -/
def recordObserved :
    Option (StrategyCandidate × CandidateObservation) → Statements (Option PersistedCandidate)
  | none => pure none
  | some (candidate, observation) => some <$> recordCandidateObservation candidate observation

def isReevaluationLesson (lesson : RunLesson) : Bool :=
  lesson.lessonType = .coverageRegression || lesson.lessonType = .incompleteEnumerator

/-- The re-evaluation that the lessons of a run ask for. -/
def reevaluationRequest (env : Env) (evidence : AcquisitionRunEvidence) (lessons : List RunLesson) :
    Option AcquisitionStrategyReevaluationRequest :=
  let relevant := lessons.filter isReevaluationLesson
  if relevant = [] then none
  else some
    { id := env.reevaluationId evidence.runId
      runId := evidence.runId
      sourceId := evidence.sourceId
      playbookId := evidence.playbookId
      playbookRevision := evidence.playbookRevision
      requestedAt := evidence.finishedAt
      lessonTypes := sortedSet (·.text) (relevant.map (·.lessonType))
      reasonCodes := sortedSet id (relevant.flatMap (·.reasonCodes))
      fallbackPlaybookIds := ((currentPlaybook env evidence).map (·.fallbackPlaybookIds)).getD []
      evidenceRefs := sortedSet id (relevant.flatMap (·.evidenceRefs)) }

def recordReevaluation (env : Env) (evidence : AcquisitionRunEvidence) (lessons : List RunLesson) :
    Statements (Option AcquisitionStrategyReevaluationRequest) :=
  match reevaluationRequest env evidence lessons with
  | none => pure none
  | some request => do
    let existing ← select fun s => find? s.reevaluations evidence.runId
    match existing with
    | some existing =>
      ensure (existing = request)
        (.conflict "ACQUISITION_STRATEGY_REEVALUATION_CONFLICT"
          ("Run " ++ evidence.runId ++ " already has a different reevaluation request"))
      return some existing
    | none =>
      insertRow "acquisition_strategy_reevaluations.run_id"
        (fun s => (find? s.reevaluations request.runId).isSome)
        fun s => { s with reevaluations := s.reevaluations ++ [request] }
      return some request

def observeLearningRun (env : Env) (evidence : AcquisitionRunEvidence) (lessons : List RunLesson) :
    Statements (Option PersistedCandidate × Option AcquisitionStrategyReevaluationRequest) := do
  let strategyCandidate ← recordObserved (candidateObservation env evidence lessons)
  let reevaluation ← recordReevaluation env evidence lessons
  return (strategyCandidate, reevaluation)

/-! ### Transitions -/

def acquisitionPromotionStages : List AcquisitionPromotionStage :=
  [.observed, .candidate, .validated, .promoted, .active, .deprecated]

def nextAcquisitionPromotionStage (stage : AcquisitionPromotionStage) :
    Option AcquisitionPromotionStage :=
  acquisitionPromotionStages[acquisitionPromotionStages.idxOf stage + 1]?

def isAllowedAcquisitionPromotionTransition (fromStage toStage : AcquisitionPromotionStage) : Bool :=
  nextAcquisitionPromotionStage fromStage = some toStage

structure TransitionInput where
  candidateId : String
  toStage : AcquisitionPromotionStage
  actor : AcquisitionStrategyGovernanceActor
  evidenceRefs : List String
  rationale : String
  transitionedAt : Option String
  /-- `Date.now()` and `randomUUID()` in the call. -/
  now : String
  id : String

/-- The transaction: the candidate in its new stage, and the record of the transition. -/
def writeTransition (nextCandidate : StrategyCandidate) (transitionedAt : String)
    (transition : AcquisitionStrategyCandidateTransition) : Statements Unit :=
  execute fun s =>
    { s with
      candidates := s.candidates.map fun row =>
        if row.candidate.id = nextCandidate.id then
          { row with candidate := nextCandidate, updatedAt := transitionedAt }
        else row
      transitions := s.transitions ++ [transition] }

/-- The record of a transition. -/
def transitionOf (input : TransitionInput) (candidate : StrategyCandidate) (transitionedAt : String) :
    AcquisitionStrategyCandidateTransition :=
  { id := input.id
    candidateId := candidate.id
    playbookId := candidate.playbookId
    proposedRevision := candidate.proposedRevision
    fromStage := candidate.stage
    toStage := input.toStage
    transitionedAt := transitionedAt
    actor := { actorType := input.actor.actorType, actorId := trim input.actor.actorId }
    evidenceRefs := sortedSet id input.evidenceRefs
    rationale := trim input.rationale }

def transitionCandidate (env : Env) (input : TransitionInput) :
    Statements AcquisitionStrategyCandidateTransition := do
  let found ← getCandidate input.candidateId
  let persisted ← orFail
    (.validation ("StrategyCandidate " ++ input.candidateId ++ " was not found")) found
  ensure (isAllowedAcquisitionPromotionTransition persisted.candidate.stage input.toStage)
    (.conflict "ACQUISITION_STRATEGY_TRANSITION_INVALID"
      ("StrategyCandidate " ++ input.candidateId ++ " cannot transition " ++
        persisted.candidate.stage.text ++ " -> " ++ input.toStage.text))
  ensure (trim input.rationale ≠ "") (.validation "Candidate transition rationale is required")
  ensure
    (input.toStage ∉ [.validated, .promoted, .active] ∨ sortedSet id input.evidenceRefs ≠ [])
    (.validation
      (input.toStage.text ++ " transition requires explicit validation or promotion evidence"))
  ensure (input.toStage = .active → input.actor.actorType = .human)
    (.conflict "ACQUISITION_STRATEGY_ACTIVATION_REQUIRES_HUMAN"
      "ACTIVE acquisition strategy promotion requires an explicit human actor")
  ensure (trim input.actor.actorId ≠ "") (.validation "Candidate transition actorId is required")
  let transitionedAt ← orFail .invalidTimeValue
    (env.isoTime (input.transitionedAt.getD input.now))
  writeTransition { persisted.candidate with stage := input.toStage } transitionedAt
    (transitionOf input persisted.candidate transitionedAt)
  return transitionOf input persisted.candidate transitionedAt

/-! ### Calls -/

inductive Call where
  | observeLearningRun (evidence : AcquisitionRunEvidence) (lessons : List RunLesson)
  | transitionCandidate (input : TransitionInput)

inductive Answer where
  | learned (strategyCandidate : Option PersistedCandidate)
      (reevaluation : Option AcquisitionStrategyReevaluationRequest)
  | transitioned (transition : AcquisitionStrategyCandidateTransition)

def program (env : Env) : Call → Statements Answer
  | .observeLearningRun evidence lessons =>
    (fun answer => .learned answer.1 answer.2) <$> observeLearningRun env evidence lessons
  | .transitionCandidate input => .transitioned <$> transitionCandidate env input

/-- What a call reads and writes: what is stored of a candidate, or of the re-evaluation of a run. -/
inductive Part where
  | candidate (candidateId : String)
  | reevaluation (runId : String)

def PartView : Part → Type
  | .candidate _ =>
    Option CandidateRow × List CandidateObservation × List AcquisitionStrategyCandidateTransition
  | .reevaluation _ => Option AcquisitionStrategyReevaluationRequest

def view : (part : Part) → Store → PartView part
  | .candidate candidateId, s =>
    (find? s.candidates candidateId, s.observationsOf candidateId, s.transitionsOf candidateId)
  | .reevaluation runId, s => find? s.reevaluations runId

def parts (env : Env) : Call → Part → Prop
  | .observeLearningRun evidence lessons, .candidate candidateId =>
    (candidateObservation env evidence lessons).map (·.1.id) = some candidateId
  | .observeLearningRun evidence _, .reevaluation runId => runId = evidence.runId
  | .transitionCandidate input, .candidate candidateId => candidateId = trim input.candidateId
  | .transitionCandidate _, .reevaluation _ => False

end MarkorbitKnowledge.Strategy
