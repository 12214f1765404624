import MarkorbitKnowledge.Contracts.Text
import MarkorbitKnowledge.Lib.Window
import Mathlib.Algebra.BigOperators.Group.List.Lemmas
import Mathlib.Algebra.Order.BigOperators.Group.List
import Mathlib.Data.Prod.Lex
import Mathlib.Data.Rat.Defs
import Mathlib.Data.String.Basic
import Mathlib.Tactic.Linarith
import Mathlib.Tactic.NormNum
import Mathlib.Tactic.Ring

/-!
# What a learning run says about a strategy

A run of an acquisition playbook ends with lessons.  The primitives they recommend beyond those of
the playbook make the run an observation of a candidate strategy (`candidateObservation`), and the
candidate's document sums up its observations in the order of their instants (`summary`).  The
confidence takes the first observation whole and a quarter of each other, so it depends on which
observation is the first: `combinedConfidence_record_lt` says exactly when one more observation
lowers it.
-/

namespace MarkorbitKnowledge.Strategy

open Contracts Window

/-! ### Records -/

inductive AcquisitionPrimitive where
  | sitemapEnumeration
  | indexTreeEnumeration
  | linkGraphEnumeration
  | countryIndexEnumeration
  | tocGraphEnumeration
  | apiCatalogEnumeration
  | staticHtmlFetch
  | jsRenderedFetch
  | pdfAttachmentFollow
  | httpValidatorChangeWatch
  | contentDigestChangeWatch
  | corpusReconciliation
deriving DecidableEq

def AcquisitionPrimitive.text : AcquisitionPrimitive → String
  | sitemapEnumeration => "SITEMAP_ENUMERATION"
  | indexTreeEnumeration => "INDEX_TREE_ENUMERATION"
  | linkGraphEnumeration => "LINK_GRAPH_ENUMERATION"
  | countryIndexEnumeration => "COUNTRY_INDEX_ENUMERATION"
  | tocGraphEnumeration => "TOC_GRAPH_ENUMERATION"
  | apiCatalogEnumeration => "API_CATALOG_ENUMERATION"
  | staticHtmlFetch => "STATIC_HTML_FETCH"
  | jsRenderedFetch => "JS_RENDERED_FETCH"
  | pdfAttachmentFollow => "PDF_ATTACHMENT_FOLLOW"
  | httpValidatorChangeWatch => "HTTP_VALIDATOR_CHANGE_WATCH"
  | contentDigestChangeWatch => "CONTENT_DIGEST_CHANGE_WATCH"
  | corpusReconciliation => "CORPUS_RECONCILIATION"

inductive AcquisitionDiscoverySurface where
  | sitemap
  | robots
  | indexPage
  | linkGraph
  | directEntrypoint
  | toc
  | searchEndpoint
  | api
  | rss
  | countryIndex
  | documentCatalog
deriving DecidableEq

def AcquisitionDiscoverySurface.text : AcquisitionDiscoverySurface → String
  | sitemap => "SITEMAP"
  | robots => "ROBOTS"
  | indexPage => "INDEX_PAGE"
  | linkGraph => "LINK_GRAPH"
  | directEntrypoint => "DIRECT_ENTRYPOINT"
  | toc => "TOC"
  | searchEndpoint => "SEARCH_ENDPOINT"
  | api => "API"
  | rss => "RSS"
  | countryIndex => "COUNTRY_INDEX"
  | documentCatalog => "DOCUMENT_CATALOG"

inductive AcquisitionLessonType where
  | authoritativeEnumerator
  | incompleteEnumerator
  | renderingUnnecessary
  | renderingRequired
  | httpValidatorsEffective
  | httpValidatorsUnavailable
  | digestWatchRequired
  | duplicationHigh
  | coverageRegression
  | failureSignature
  | playbookSuccess
deriving DecidableEq

def AcquisitionLessonType.text : AcquisitionLessonType → String
  | authoritativeEnumerator => "AUTHORITATIVE_ENUMERATOR"
  | incompleteEnumerator => "INCOMPLETE_ENUMERATOR"
  | renderingUnnecessary => "RENDERING_UNNECESSARY"
  | renderingRequired => "RENDERING_REQUIRED"
  | httpValidatorsEffective => "HTTP_VALIDATORS_EFFECTIVE"
  | httpValidatorsUnavailable => "HTTP_VALIDATORS_UNAVAILABLE"
  | digestWatchRequired => "DIGEST_WATCH_REQUIRED"
  | duplicationHigh => "DUPLICATION_HIGH"
  | coverageRegression => "COVERAGE_REGRESSION"
  | failureSignature => "FAILURE_SIGNATURE"
  | playbookSuccess => "PLAYBOOK_SUCCESS"

inductive AcquisitionPromotionStage where
  | observed
  | candidate
  | validated
  | promoted
  | active
  | deprecated
deriving DecidableEq

def AcquisitionPromotionStage.text : AcquisitionPromotionStage → String
  | observed => "OBSERVED"
  | candidate => "CANDIDATE"
  | validated => "VALIDATED"
  | promoted => "PROMOTED"
  | active => "ACTIVE"
  | deprecated => "DEPRECATED"

structure RunLesson where
  runId : String
  lessonType : AcquisitionLessonType
  confidence : ℚ
  evidenceRefs : List String
  reasonCodes : List String
  recommendedPrimitive : Option AcquisitionPrimitive
  affectedSurface : Option AcquisitionDiscoverySurface
deriving DecidableEq

structure AcquisitionRunEvidence where
  runId : String
  sourceId : String
  playbookId : String
  playbookRevision : Int
  finishedAt : String
deriving DecidableEq

structure AcquisitionPlaybook where
  id : String
  revision : Int
  primitives : List AcquisitionPrimitive
  fallbackPlaybookIds : List String
deriving DecidableEq

structure StrategyCandidate where
  id : String
  playbookId : String
  proposedRevision : Int
  stage : AcquisitionPromotionStage
  createdAt : String
  sourceScope : List String
  lessonRefs : List String
  confidence : ℚ
  rationale : List String
deriving DecidableEq

structure CandidateObservation where
  candidateId : String
  runId : String
  sourceId : String
  observedAt : String
  confidence : ℚ
  lessonRefs : List String
  rationale : List String
deriving DecidableEq

/-- What the governance takes from elsewhere: the seed playbooks, the hash of an identity, and the
    text of `new Date(value).toISOString()`, which throws on a value that is no date. -/
structure Env where
  seedPlaybooks : List AcquisitionPlaybook
  candidateId : String → Int → List AcquisitionPrimitive → String
  reevaluationId : String → String
  isoTime : String → Option String

/-! ### Observing a run -/

/-- `[...new Set(values)].sort()`, by UTF-16 code units. -/
def sortedSet {α : Type} [DecidableEq α] (text : α → String) (values : List α) : List α :=
  values.eraseDups.insertionSort fun left right =>
    (Text.units (text left).toList).map UInt16.toNat ≤
      (Text.units (text right).toList).map UInt16.toNat

def lessonRef (lesson : RunLesson) : String :=
  ":".intercalate
    ["lesson", lesson.runId, lesson.lessonType.text,
      (lesson.affectedSurface.map (·.text)).getD "none",
      (lesson.recommendedPrimitive.map (·.text)).getD "none"]

def currentPlaybook (env : Env) (evidence : AcquisitionRunEvidence) : Option AcquisitionPlaybook :=
  env.seedPlaybooks.find? fun playbook =>
    playbook.id = evidence.playbookId ∧ playbook.revision = evidence.playbookRevision

def novelRecommendedPrimitives (env : Env) (evidence : AcquisitionRunEvidence)
    (lessons : List RunLesson) : List AcquisitionPrimitive :=
  let existing := ((currentPlaybook env evidence).map (·.primitives)).getD []
  sortedSet (·.text) ((lessons.filterMap (·.recommendedPrimitive)).filter (· ∉ existing))

def candidateObservation (env : Env) (evidence : AcquisitionRunEvidence)
    (lessons : List RunLesson) : Option (StrategyCandidate × CandidateObservation) :=
  let recommendedPrimitives := novelRecommendedPrimitives env evidence lessons
  if recommendedPrimitives = [] then none
  else
    let relevantLessons := lessons.filter fun lesson =>
      lesson.recommendedPrimitive.any (· ∈ recommendedPrimitives)
    let proposedRevision := evidence.playbookRevision + 1
    let candidateId := env.candidateId evidence.playbookId proposedRevision recommendedPrimitives
    let refs := sortedSet id (relevantLessons.map lessonRef)
    let confidence := (relevantLessons.map (·.confidence)).foldr max (1 / 2)
    let rationale :=
      ["Observed reusable acquisition evidence for " ++ evidence.playbookId ++ "@" ++
        toString evidence.playbookRevision ++ ".",
      "Candidate revision " ++ toString proposedRevision ++ " should evaluate adding: " ++
        ", ".intercalate (recommendedPrimitives.map (·.text)) ++ ".",
      "Observation does not promote, activate, or grant collection authority."]
    some
      ({ id := candidateId
         playbookId := evidence.playbookId
         proposedRevision := proposedRevision
         stage := .observed
         createdAt := evidence.finishedAt
         sourceScope := [evidence.sourceId]
         lessonRefs := refs
         confidence := confidence
         rationale := rationale },
       { candidateId := candidateId
         runId := evidence.runId
         sourceId := evidence.sourceId
         observedAt := evidence.finishedAt
         confidence := confidence
         lessonRefs := refs
         rationale := rationale })

theorem candidateObservation_ids {env : Env} {evidence : AcquisitionRunEvidence}
    {lessons : List RunLesson} {candidate : StrategyCandidate} {observation : CandidateObservation}
    (h : candidateObservation env evidence lessons = some (candidate, observation)) :
    observation.candidateId = candidate.id ∧ observation.runId = evidence.runId ∧
      candidate.stage = .observed := by
  simp only [candidateObservation] at h
  split_ifs at h with hnone
  obtain ⟨rfl, rfl⟩ := Prod.mk.inj (Option.some.inj h)
  exact ⟨rfl, rfl, rfl⟩

/-! ### The confidence of several observations -/

def clampConfidence (value : ℚ) : ℚ := max 0 (min 1 value)

def combinedConfidence : List CandidateObservation → ℚ
  | [] => 0
  | first :: rest =>
    min (99 / 100)
      (rest.foldl
        (fun confidence observation =>
          confidence + (1 - confidence) * clampConfidence observation.confidence * (1 / 4))
        (clampConfidence first.confidence))

/-- The column by which the observations of a candidate are ordered. -/
def observedKey (observation : CandidateObservation) : String ×ₗ String :=
  toLex (observation.observedAt, observation.runId)

theorem clampConfidence_nonneg (value : ℚ) : 0 ≤ clampConfidence value := le_max_left _ _

theorem clampConfidence_le_one (value : ℚ) : clampConfidence value ≤ 1 :=
  max_le zero_le_one (min_le_left _ _)

/-- The doubt that observations other than the first leave. -/
def doubt (observations : List CandidateObservation) : ℚ :=
  (observations.map fun observation => 1 - clampConfidence observation.confidence / 4).prod

theorem doubt_pos (observations : List CandidateObservation) : 0 < doubt observations := by
  induction observations with
  | nil => exact one_pos
  | cons first rest ih =>
    have hfirst := clampConfidence_le_one first.confidence
    change 0 < (1 - clampConfidence first.confidence / 4) * doubt rest
    exact mul_pos (by linarith) ih

theorem doubt_le_one (observations : List CandidateObservation) : doubt observations ≤ 1 := by
  induction observations with
  | nil => exact le_rfl
  | cons first rest ih =>
    have hfirst := clampConfidence_nonneg first.confidence
    have hpos := doubt_pos rest
    change (1 - clampConfidence first.confidence / 4) * doubt rest ≤ 1
    nlinarith

theorem doubt_perm {observations others : List CandidateObservation}
    (h : observations.Perm others) : doubt observations = doubt others :=
  (h.map _).prod_eq

/-- What is left of the doubt after the first observation and the others. -/
theorem one_sub_foldl (rest : List CandidateObservation) (confidence : ℚ) :
    1 - rest.foldl
        (fun confidence observation =>
          confidence + (1 - confidence) * clampConfidence observation.confidence * (1 / 4))
        confidence =
      (1 - confidence) * doubt rest := by
  induction rest generalizing confidence with
  | nil => simp [doubt]
  | cons first rest ih =>
    have hdoubt : doubt (first :: rest) =
        (1 - clampConfidence first.confidence / 4) * doubt rest := by simp [doubt]
    rw [List.foldl_cons, ih, hdoubt]
    ring

theorem combinedConfidence_cons (first : CandidateObservation) (rest : List CandidateObservation) :
    combinedConfidence (first :: rest) =
      min (99 / 100) (1 - (1 - clampConfidence first.confidence) * doubt rest) := by
  rw [combinedConfidence, ← one_sub_foldl, sub_sub_cancel]

/-- One more observation lowers the confidence: it comes before all others, and the one that was
    taken whole until then said more. -/
def LowersConfidence (observations : List CandidateObservation) (observation : CandidateObservation) :
    Prop :=
  ∃ first rest, ordered observedKey observations = first :: rest ∧
    observedKey observation < observedKey first ∧
    1 - clampConfidence first.confidence <
      (1 - clampConfidence observation.confidence) * (1 - clampConfidence first.confidence / 4) ∧
    1 / 100 <
      (1 - clampConfidence observation.confidence) * (1 - clampConfidence first.confidence / 4) *
        doubt rest

/-- An observation that does not come first adds to the confidence. -/
theorem combinedConfidence_le_of_perm {first observation : CandidateObservation}
    {rest later : List CandidateObservation} (h : later.Perm (observation :: rest)) :
    combinedConfidence (first :: rest) ≤ combinedConfidence (first :: later) := by
  rw [combinedConfidence_cons, combinedConfidence_cons, doubt_perm h]
  refine min_le_min_left _ ?_
  have hfirst := clampConfidence_le_one first.confidence
  have hmore := clampConfidence_nonneg observation.confidence
  have hrest := doubt_pos rest
  have hless : doubt (observation :: rest) ≤ doubt rest := by
    change (1 - clampConfidence observation.confidence / 4) * doubt rest ≤ doubt rest
    nlinarith
  have hscaled := mul_le_mul_of_nonneg_left hless (sub_nonneg.mpr hfirst)
  linarith

/-- One more observation lowers the confidence in this case, and in no other. -/
theorem combinedConfidence_record_lt {observations : List CandidateObservation}
    {observation : CandidateObservation}
    (hkeys : ((observations ++ [observation]).map observedKey).Nodup) :
    combinedConfidence (ordered observedKey (observations ++ [observation])) <
        combinedConfidence (ordered observedKey observations) ↔
      LowersConfidence observations observation := by
  cases horder : ordered observedKey observations with
  | nil =>
    have hnonneg : ∀ others, 0 ≤ combinedConfidence others := by
      intro others
      cases others with
      | nil => exact le_rfl
      | cons first rest =>
        rw [combinedConfidence_cons]
        have hfirst := clampConfidence_nonneg first.confidence
        have hle := clampConfidence_le_one first.confidence
        have hrest := doubt_le_one rest
        have hpos := doubt_pos rest
        refine le_min (by norm_num) ?_
        nlinarith
    constructor
    · intro hlt
      exact absurd hlt (not_lt.mpr (hnonneg _))
    · rintro ⟨first, rest, hcons, -⟩
      rw [horder] at hcons
      cases hcons
  | cons first rest =>
    have hsplit : LowersConfidence observations observation ↔
        observedKey observation < observedKey first ∧
          1 - clampConfidence first.confidence <
            (1 - clampConfidence observation.confidence) *
              (1 - clampConfidence first.confidence / 4) ∧
          1 / 100 <
            (1 - clampConfidence observation.confidence) *
              (1 - clampConfidence first.confidence / 4) * doubt rest := by
      constructor
      · rintro ⟨first', rest', hcons, h⟩
        rw [horder] at hcons
        obtain ⟨rfl, rfl⟩ := List.cons.inj hcons
        exact h
      · intro h
        exact ⟨first, rest, horder, h⟩
    rw [hsplit]
    by_cases hbefore : observedKey observation < observedKey first
    · have hrows : (observations.map observedKey).Nodup :=
        hkeys.sublist ((List.sublist_append_left observations [observation]).map observedKey)
      have hall : ∀ other ∈ observations, observedKey observation < observedKey other := by
        intro other hother
        have hsorted := ordered_pairwise hrows
        rw [horder] at hsorted
        have hmem : other ∈ first :: rest := by
          rw [← horder]
          exact mem_ordered.mpr hother
        rcases List.mem_cons.mp hmem with rfl | hmem
        · exact hbefore
        · exact hbefore.trans ((List.pairwise_cons.mp hsorted).1 other hmem)
      have hdoubt : doubt (first :: rest) =
          (1 - clampConfidence first.confidence / 4) * doubt rest := rfl
      have hpos := doubt_pos rest
      rw [ordered_append_of_lt hrows hall, horder, combinedConfidence_cons, combinedConfidence_cons,
        hdoubt, ← mul_assoc]
      have hscale : (1 - clampConfidence first.confidence) * doubt rest <
            (1 - clampConfidence observation.confidence) *
              (1 - clampConfidence first.confidence / 4) * doubt rest ↔
          1 - clampConfidence first.confidence <
            (1 - clampConfidence observation.confidence) *
              (1 - clampConfidence first.confidence / 4) :=
        mul_lt_mul_iff_left₀ hpos
      rw [← hscale, lt_min_iff, min_lt_iff, min_lt_iff]
      constructor
      · rintro ⟨hcap, hlt⟩
        refine ⟨hbefore, ?_, ?_⟩
        · rcases hlt with hlt | hlt
          · rcases hcap with hcap | hcap
            · exact absurd hcap (lt_irrefl _)
            · linarith
          · linarith
        · rcases hcap with hcap | hcap
          · exact absurd hcap (lt_irrefl _)
          · linarith
      · rintro ⟨-, hlt, hcap⟩
        exact ⟨Or.inr (by linarith), Or.inr (by linarith)⟩
    · obtain ⟨later, hlater, hperm⟩ := ordered_append_of_not_lt hkeys horder hbefore
      rw [hlater]
      constructor
      · intro hlt
        exact absurd hlt (not_lt.mpr (combinedConfidence_le_of_perm hperm))
      · rintro ⟨h, -⟩
        exact absurd h hbefore

end MarkorbitKnowledge.Strategy
