import MarkorbitKnowledge.Contracts.Text
import MarkorbitKnowledge.Orchestration.Plan
import Mathlib.Algebra.Order.BigOperators.Group.List
import Mathlib.Data.List.Chain

/-!
# Accepted plans

`Accepted` is what `parseCnipaGazetteOrchestrationPlan` leaves in a plan.  Every other function
parses the plan it is given again; `parse_toInput` says that this gives the plan back, and the issues
of an accepted plan are at most a hundred, between 73 and 999999, in strictly ascending order.
-/

namespace MarkorbitKnowledge.Orchestration

open Contracts Fallible

theorem integer_eq_ok {value : Int} {label : String} {minimum maximum n : Nat} :
    integer value label minimum maximum = .ok n ↔
      ((minimum : Int) ≤ value ∧ value ≤ maximum) ∧ value.toNat = n := by
  simp [integer]

theorem integer_cast {n minimum maximum : Nat} (label : String) (hmin : minimum ≤ n)
    (hmax : n ≤ maximum) : integer (n : Int) label minimum maximum = .ok n := by
  rw [integer_eq_ok]
  refine ⟨⟨?_, ?_⟩, ?_⟩
  · exact Int.ofNat_le.mpr hmin
  · exact Int.ofNat_le.mpr hmax
  · exact Int.toNat_natCast n

theorem jsLength_trim_le (s : String) : jsLength (trim s) ≤ jsLength s := by
  have hsub : (trim s).toList.Sublist s.toList := by
    rw [trim, String.toList_ofList, ← List.reverse_sublist, List.reverse_reverse]
    exact (List.dropWhile_sublist _).trans ((List.dropWhile_sublist _).reverse)
  have hmap := hsub.map fun c : Char => if c.toNat < 0x10000 then 1 else 2
  exact hmap.sum_le_sum fun _ _ => Nat.zero_le _

/-! ### Selections of issues -/

/-- An issue number that a plan may name. -/
def IsIssue (issue : Nat) : Prop := CNIPA_GAZETTE_ORCHESTRATION_MIN_ISSUE ≤ issue ∧ issue ≤ 999999

/-- A selection that the parser accepts. -/
def AcceptedSelection : CnipaGazetteOrchestrationIssueSelection → Prop
  | .range startIssue endIssue => IsIssue startIssue ∧ IsIssue endIssue ∧ startIssue ≤ endIssue ∧
      endIssue - startIssue + 1 ≤ CNIPA_GAZETTE_ORCHESTRATION_MAX_ISSUES
  | .explicit issues => (1 ≤ issues.length ∧ issues.length ≤ CNIPA_GAZETTE_ORCHESTRATION_MAX_ISSUES) ∧
      (∀ issue ∈ issues, IsIssue issue) ∧ issues.IsChain (· < ·)

theorem isIssue_toNat {value : Int}
    (h : (CNIPA_GAZETTE_ORCHESTRATION_MIN_ISSUE : Int) ≤ value ∧ value ≤ (999999 : Nat)) :
    IsIssue value.toNat := by
  simp only [CNIPA_GAZETTE_ORCHESTRATION_MIN_ISSUE, IsIssue] at h ⊢
  omega

theorem integer_issue_iff {value : Int} {label : String} {issue : Nat} :
    integer value label CNIPA_GAZETTE_ORCHESTRATION_MIN_ISSUE 999999 = .ok issue ↔
      IsIssue issue ∧ value = issue := by
  rw [integer_eq_ok]
  simp only [CNIPA_GAZETTE_ORCHESTRATION_MIN_ISSUE, IsIssue]
  omega

theorem mapM_issue_iff {values : List Int} {issues : List Nat} :
    (values.zipIdx.mapM fun entry =>
        integer entry.1 ("issueSelection.issues[" ++ toString entry.2 ++ "]")
          CNIPA_GAZETTE_ORCHESTRATION_MIN_ISSUE 999999) = .ok issues ↔
      (∀ issue ∈ issues, IsIssue issue) ∧ values = issues.map Int.ofNat := by
  have hinteger : ∀ (value : Int) (index issue : Nat),
      integer value ("issueSelection.issues[" ++ toString index ++ "]")
        CNIPA_GAZETTE_ORCHESTRATION_MIN_ISSUE 999999 = .ok issue ↔
      ((CNIPA_GAZETTE_ORCHESTRATION_MIN_ISSUE : Int) ≤ value ∧ value ≤ (999999 : Nat)) ∧
        value.toNat = issue := fun value index issue => integer_eq_ok
  rw [mapM_indexed hinteger]
  constructor
  · rintro ⟨hvalues, rfl⟩
    refine ⟨fun issue hissue => ?_, ?_⟩
    · obtain ⟨value, hvalue, rfl⟩ := List.mem_map.mp hissue
      exact isIssue_toNat (hvalues value hvalue)
    · rw [List.map_map]
      refine (List.map_id'' (fun value => rfl) values).symm.trans (List.map_congr_left ?_)
      intro value hvalue
      have := (hvalues value hvalue).1
      simp only [CNIPA_GAZETTE_ORCHESTRATION_MIN_ISSUE] at this
      simp only [Function.comp_apply, Int.ofNat_eq_natCast]
      omega
  · rintro ⟨hissues, rfl⟩
    refine ⟨fun value hvalue => ?_, ?_⟩
    · obtain ⟨issue, hissue, rfl⟩ := List.mem_map.mp hvalue
      obtain ⟨hmin, hmax⟩ := hissues issue hissue
      exact ⟨Int.ofNat_le.mpr hmin, Int.ofNat_le.mpr hmax⟩
    · simp [Function.comp_def]

theorem parseIssueSelection_accepted {input : IssueSelectionInput}
    {selection : CnipaGazetteOrchestrationIssueSelection}
    (h : parseIssueSelection input = .ok selection) : AcceptedSelection selection := by
  cases input with
  | range start «end» =>
    simp only [parseIssueSelection, bind_eq_ok, integer_issue_iff, require_eq_ok, pure_eq_ok] at h
    obtain ⟨startIssue, ⟨hstart, -⟩, endIssue, ⟨hend, -⟩, -, hle, -, hcount, rfl⟩ := h
    exact ⟨hstart, hend, hle, hcount⟩
  | explicit values =>
    simp only [parseIssueSelection, bind_eq_ok, mapM_issue_iff, require_eq_ok, pure_eq_ok] at h
    obtain ⟨-, hlength, issues, ⟨hissues, rfl⟩, -, hchain, rfl⟩ := h
    exact ⟨by simpa using hlength, hissues, hchain⟩
  | unknown mode => simp [parseIssueSelection] at h

theorem parseIssueSelection_toInput {selection : CnipaGazetteOrchestrationIssueSelection}
    (h : AcceptedSelection selection) :
    parseIssueSelection (selectionInput selection) = .ok selection := by
  cases selection with
  | range startIssue endIssue =>
    obtain ⟨hstart, hend, hle, hcount⟩ := h
    simp only [selectionInput, parseIssueSelection, bind_eq_ok, integer_issue_iff, require_eq_ok,
      pure_eq_ok]
    exact ⟨startIssue, ⟨hstart, rfl⟩, endIssue, ⟨hend, rfl⟩, (), hle, (), hcount, rfl⟩
  | explicit issues =>
    obtain ⟨hlength, hissues, hchain⟩ := h
    simp only [selectionInput, parseIssueSelection, bind_eq_ok, mapM_issue_iff, require_eq_ok,
      pure_eq_ok, List.length_map]
    exact ⟨(), hlength, issues, ⟨hissues, rfl⟩, (), hchain, rfl⟩

theorem expandSelection_ne_nil {selection : CnipaGazetteOrchestrationIssueSelection}
    (h : AcceptedSelection selection) : expandSelection selection ≠ [] := by
  cases selection with
  | range startIssue endIssue => simp [expandSelection]
  | explicit issues =>
    intro hnil
    have hlength := h.1.1
    rw [expandSelection] at hnil
    simp [hnil] at hlength

theorem isIssue_of_mem_expandSelection {selection : CnipaGazetteOrchestrationIssueSelection}
    (h : AcceptedSelection selection) : ∀ issue ∈ expandSelection selection, IsIssue issue := by
  cases selection with
  | range startIssue endIssue =>
    obtain ⟨hstart, hend, hle, -⟩ := h
    intro issue hissue
    obtain ⟨hlow, hhigh⟩ := List.mem_range'_1.mp hissue
    refine ⟨hstart.1.trans hlow, le_trans ?_ hend.2⟩
    omega
  | explicit issues => exact h.2.1

/-- The issues of a plan are in strictly ascending order. -/
theorem pairwise_expandSelection {selection : CnipaGazetteOrchestrationIssueSelection}
    (h : AcceptedSelection selection) : (expandSelection selection).Pairwise (· < ·) := by
  cases selection with
  | range startIssue endIssue => exact List.pairwise_lt_range'
  | explicit issues => exact List.isChain_iff_pairwise.mp h.2.2

/-! ### Templates -/

@[mk_iff] structure AcceptedTemplate (template : CnipaGazetteOrchestrationBrowserTemplate) : Prop where
  target : 1 ≤ template.targetLogicalPagesPerCheckpoint ∧ template.targetLogicalPagesPerCheckpoint ≤ 100
  runtime : 60 ≤ template.maxRuntimeSeconds ∧ template.maxRuntimeSeconds ≤ 3600
  trimmed : trim template.captureToolBundleName = template.captureToolBundleName
  named : template.captureToolBundleName ≠ ""
  short : jsLength template.captureToolBundleName ≤ 255
  digest : SHA256 template.captureToolBundleSha256 = true

theorem parseBrowserTemplate_accepted {input : BrowserTemplateInput}
    {template : CnipaGazetteOrchestrationBrowserTemplate} (h : parseBrowserTemplate input = .ok template) :
    AcceptedTemplate template := by
  simp only [parseBrowserTemplate, bind_eq_ok, integer_eq_ok, require_eq_ok, pure_eq_ok] at h
  obtain ⟨_, ⟨hruntime, rfl⟩, -, ⟨-, hnamed, hshort, hdigest⟩, _, ⟨htarget, rfl⟩, rfl⟩ := h
  refine ⟨?_, ?_, trim_trim _, hnamed, ?_, hdigest⟩
  · dsimp only
    omega
  · dsimp only
    omega
  · exact (jsLength_trim_le _).trans hshort

theorem parseBrowserTemplate_toInput {template : CnipaGazetteOrchestrationBrowserTemplate}
    (h : AcceptedTemplate template) : parseBrowserTemplate (templateInput template) = .ok template := by
  simp only [parseBrowserTemplate, templateInput, bind_eq_ok, require_eq_ok, pure_eq_ok]
  refine ⟨_, integer_cast _ h.runtime.1 h.runtime.2, (), ⟨trivial, ?_, h.short, h.digest⟩, _,
    integer_cast _ h.target.1 h.target.2, ?_⟩
  · rw [h.trimmed]
    exact h.named
  · rw [h.trimmed]

/-! ### Plans -/

/-- The replay and the bound of a plan fit its purpose. -/
def AcceptedPurpose (plan : CnipaGazetteOrchestrationPlan) : Prop :=
  match plan.purpose with
  | .historicalBackfill => plan.historicalReplayActivated = true ∧ plan.observedMaxIssue = none
  | .incrementalCatchup => plan.historicalReplayActivated = false ∧
      ∃ maximum, plan.observedMaxIssue = some maximum ∧ IsIssue maximum ∧
        ∀ issue ∈ expandCnipaGazetteOrchestrationIssues plan, issue ≤ maximum

@[mk_iff] structure Accepted (plan : CnipaGazetteOrchestrationPlan) : Prop where
  operationId : OPERATION_ID plan.operationId = true
  workspaceId : WORKSPACE_ID plan.workspaceId = true
  selection : AcceptedSelection plan.issueSelection
  template : AcceptedTemplate plan.browserTemplate
  parent : ∀ digest ∈ plan.parentPlanSha256, SHA256 digest = true
  purpose : AcceptedPurpose plan

theorem parse_accepted {input : PlanInput} {plan : CnipaGazetteOrchestrationPlan}
    (h : parseCnipaGazetteOrchestrationPlan input = .ok plan) : Accepted plan := by
  simp only [parseCnipaGazetteOrchestrationPlan, bind_eq_ok, require_eq_ok, orThrow_eq_ok,
    pure_eq_ok] at h
  obtain ⟨-, -, -, hoperation, -, hworkspace, -, -, purpose, hpurpose, selection, hselection, template,
    htemplate, -, hparent, maximum, hmaximum, rfl⟩ := h
  refine ⟨hoperation, hworkspace, parseIssueSelection_accepted hselection,
    parseBrowserTemplate_accepted htemplate, hparent, ?_⟩
  cases purpose with
  | historicalBackfill =>
    simp only [parseObservedMaxIssue, bind_eq_ok, require_eq_ok, pure_eq_ok] at hmaximum
    obtain ⟨-, ⟨hreplay, -⟩, rfl⟩ := hmaximum
    exact ⟨hreplay, rfl⟩
  | incrementalCatchup =>
    simp only [parseObservedMaxIssue, bind_eq_ok, require_eq_ok, orThrow_eq_ok, integer_issue_iff,
      pure_eq_ok] at hmaximum
    obtain ⟨-, hreplay, value, -, bound, ⟨hbound, -⟩, -, hissues, rfl⟩ := hmaximum
    exact ⟨hreplay, bound, rfl, hbound, hissues⟩

theorem parsePurpose_text (purpose : CnipaGazetteOrchestrationPurpose) :
    parsePurpose purpose.text = some purpose := by
  cases purpose with
  | historicalBackfill => rfl
  | incrementalCatchup => rfl

theorem parseObservedMaxIssue_toInput {plan : CnipaGazetteOrchestrationPlan}
    (h : AcceptedPurpose plan) :
    parseObservedMaxIssue plan.purpose (expandSelection plan.issueSelection)
      (plan.observedMaxIssue.map Int.ofNat) plan.historicalReplayActivated =
        .ok plan.observedMaxIssue := by
  unfold AcceptedPurpose at h
  cases hpurpose : plan.purpose with
  | historicalBackfill =>
    simp only [hpurpose] at h
    simp only [parseObservedMaxIssue, bind_eq_ok, require_eq_ok, pure_eq_ok]
    exact ⟨(), ⟨h.1, by rw [h.2, Option.map_none]⟩, h.2.symm⟩
  | incrementalCatchup =>
    simp only [hpurpose] at h
    obtain ⟨hreplay, maximum, hmaximum, hissue, hissues⟩ := h
    simp only [parseObservedMaxIssue, bind_eq_ok, require_eq_ok, orThrow_eq_ok, integer_issue_iff,
      pure_eq_ok]
    exact ⟨(), hreplay, maximum, by rw [hmaximum]; rfl, maximum, ⟨hissue, rfl⟩, (), hissues,
      hmaximum.symm⟩

/-- An accepted plan is parsed to itself. -/
theorem parse_toInput {plan : CnipaGazetteOrchestrationPlan} (h : Accepted plan) :
    parseCnipaGazetteOrchestrationPlan plan.toInput = .ok plan := by
  simp only [parseCnipaGazetteOrchestrationPlan, bind_eq_ok, require_eq_ok, orThrow_eq_ok, pure_eq_ok]
  exact ⟨(), rfl, (), h.operationId, (), h.workspaceId, (), ⟨rfl, rfl, rfl, rfl, rfl, rfl⟩, plan.purpose,
    parsePurpose_text _, plan.issueSelection, parseIssueSelection_toInput h.selection,
    plan.browserTemplate, parseBrowserTemplate_toInput h.template, (), h.parent, plan.observedMaxIssue,
    parseObservedMaxIssue_toInput h.purpose, rfl⟩

end MarkorbitKnowledge.Orchestration
