import MarkorbitKnowledge.Lib.Transitions
import MarkorbitKnowledge.Orchestration.Progress

/-!
# Recorded evidence only advances

A successful `recordCnipaGazetteOrchestrationIssueEvidence` puts its item in the place of the item of
the same issue (`find?_record`) and keeps the evidence accepted and in the order of the plan.  The item
replaced passed `assertMonotonicIssueEvidence`, so the next action of its issue is not an earlier one
(`rank_le_of_monotonic`), and an item with an admission is replaced by itself only.
-/

namespace MarkorbitKnowledge.Orchestration

open Fallible Tables Transitions

variable (digests : OrchestrationDigests) {plan : CnipaGazetteOrchestrationPlan}
  {existing recorded : List CnipaGazetteOrchestrationIssueEvidence}
  {item : CnipaGazetteOrchestrationIssueEvidence}

/-! ### One record -/

theorem record_eq_ok (hplan : Accepted plan) :
    recordCnipaGazetteOrchestrationIssueEvidence digests plan existing item = .ok recorded ↔
      AcceptedEvidence plan existing ∧ AcceptedEvidence plan [item] ∧
        ∃ merged, mergeEvidence existing item = .ok merged ∧
          sortEvidence (expandCnipaGazetteOrchestrationIssues plan) merged = recorded ∧
          AcceptedEvidence plan recorded := by
  rw [recordCnipaGazetteOrchestrationIssueEvidence, parse_toInput hplan, ok_bind]
  simp only [bind_eq_ok, derive_eq_ok digests hplan, pure_eq_ok]
  constructor
  · rintro ⟨_, ⟨hexisting, -⟩, _, ⟨hitem, -⟩, merged, hmerged, _, ⟨hsorted, -⟩, rfl⟩
    exact ⟨hexisting, hitem, merged, hmerged, rfl, hsorted⟩
  · rintro ⟨hexisting, hitem, merged, hmerged, rfl, hsorted⟩
    exact ⟨_, ⟨hexisting, rfl⟩, _, ⟨hitem, rfl⟩, merged, hmerged, _, ⟨hsorted, rfl⟩, rfl⟩

theorem mem_sortEvidence {issues : List Nat} {merged : List CnipaGazetteOrchestrationIssueEvidence}
    {entry : CnipaGazetteOrchestrationIssueEvidence} :
    entry ∈ sortEvidence issues merged ↔ entry ∈ merged := Window.mem_ordered

theorem lt_of_idxOf_lt {issues : List Nat} (hissues : issues.Pairwise (· < ·)) {left right : Nat}
    (hleft : left ∈ issues) (hright : right ∈ issues) (h : issues.idxOf left < issues.idxOf right) :
    left < right := by
  have hlt := List.pairwise_iff_getElem.mp hissues _ _ (List.idxOf_lt_length_of_mem hleft)
    (List.idxOf_lt_length_of_mem hright) h
  rwa [List.getElem_idxOf, List.getElem_idxOf] at hlt

/-- Accepted evidence that was sorted names issues of the plan in the plan's order, each once. -/
theorem sublist_sortEvidence (hplan : Accepted plan)
    {merged : List CnipaGazetteOrchestrationIssueEvidence}
    (h : AcceptedEvidence plan
      (sortEvidence (expandCnipaGazetteOrchestrationIssues plan) merged)) :
    ((sortEvidence (expandCnipaGazetteOrchestrationIssues plan) merged).map
      (·.announcementIssue)).Sublist (expandCnipaGazetteOrchestrationIssues plan) := by
  set issues := expandCnipaGazetteOrchestrationIssues plan
  have hascending : issues.Pairwise (· < ·) := pairwise_expandSelection hplan.selection
  have hmem : ∀ entry ∈ sortEvidence issues merged, entry.announcementIssue ∈ issues :=
    fun entry hentry => (h.items entry hentry).authorized
  have hkeys : (merged.map fun entry => issues.idxOf entry.announcementIssue).Nodup := by
    have hsorted : ((sortEvidence issues merged).map fun entry =>
        issues.idxOf entry.announcementIssue).Nodup := by
      have hunique : ((sortEvidence issues merged).map (·.announcementIssue)).Nodup := h.unique
      rw [← Function.comp_def issues.idxOf, ← List.map_map]
      refine hunique.map_on fun left hleft right _ heq => ?_
      obtain ⟨entry, hentry, rfl⟩ := List.mem_map.mp hleft
      exact (List.idxOf_inj (hmem entry hentry)).mp heq
    exact (Window.ordered_perm.map _).nodup_iff.mp hsorted
  have hpairwise : ((sortEvidence issues merged).map (·.announcementIssue)).Pairwise (· < ·) := by
    rw [List.pairwise_map]
    refine (Window.ordered_pairwise hkeys).imp_of_mem fun hleft hright hlt => ?_
    exact lt_of_idxOf_lt hascending (hmem _ hleft) (hmem _ hright) hlt
  refine List.sublist_of_subperm_of_pairwise (List.subperm_of_subset h.unique ?_) hpairwise hascending
  intro issue hissue
  obtain ⟨entry, hentry, rfl⟩ := List.mem_map.mp hissue
  exact hmem entry hentry

/-- What a successful merge does to the evidence of each issue. -/
theorem find?_merge {merged : List CnipaGazetteOrchestrationIssueEvidence}
    (h : mergeEvidence existing item = .ok merged) (issue : Nat) :
    find? merged issue = if issue = item.announcementIssue then some item else find? existing issue := by
  rw [mergeEvidence] at h
  cases hfind : find? existing item.announcementIssue with
  | none =>
    rw [hfind] at h
    obtain rfl : existing ++ [item] = merged := by simpa using h
    rw [find?_append_singleton, key_issueEvidence]
    by_cases hissue : issue = item.announcementIssue
    · rw [if_pos hissue, if_pos hissue.symm, hissue, hfind, Option.none_or]
    · rw [if_neg hissue, if_neg (Ne.symm hissue), Option.or_none]
  | some previous =>
    rw [hfind] at h
    simp only [bind_eq_ok, pure_eq_ok] at h
    obtain ⟨-, -, rfl⟩ := h
    split_ifs with hissue
    · rw [hissue]
      exact find?_update_self ⟨previous, mem_of_find? hfind, key_of_find? hfind⟩
    · exact find?_update_of_ne hissue

theorem monotonic_of_merge {merged : List CnipaGazetteOrchestrationIssueEvidence}
    (h : mergeEvidence existing item = .ok merged) :
    ∀ previous ∈ find? existing item.announcementIssue,
      assertMonotonicIssueEvidence previous item = .ok () := by
  intro previous hfind
  rw [mergeEvidence, Option.mem_def.mp hfind] at h
  simp only [bind_eq_ok] at h
  obtain ⟨_, hmonotonic, -⟩ := h
  exact hmonotonic

theorem find?_sortEvidence {merged : List CnipaGazetteOrchestrationIssueEvidence} {issues : List Nat}
    (h : KeysUnique (sortEvidence issues merged)) (issue : Nat) :
    find? (sortEvidence issues merged) issue = find? merged issue := by
  have hmerged : KeysUnique merged := (Window.ordered_perm.map _).nodup_iff.mp h
  cases hfind : find? merged issue with
  | none =>
    rw [find?_eq_none] at hfind ⊢
    exact fun entry hentry => hfind entry (mem_sortEvidence.mp hentry)
  | some entry =>
    refine (h.find?_eq_some_iff).mpr ?_
    obtain ⟨hentry, hkey⟩ := (hmerged.find?_eq_some_iff).mp hfind
    exact ⟨mem_sortEvidence.mpr hentry, hkey⟩

/-! ### The order of the actions -/

/-- `START_CAPTURE`, `RESUME_CAPTURE`, `BUILD_ADMISSION`, `NONE`, in this order. -/
def CnipaGazetteOrchestrationNextAction.rank : CnipaGazetteOrchestrationNextAction → Nat
  | .startCapture => 0
  | .resumeCapture => 1
  | .buildAdmission => 2
  | .none => 3

/-- How far the evidence of an issue is. -/
def evidenceRank (item : Option CnipaGazetteOrchestrationIssueEvidence) (issue : Nat) : Nat :=
  (issueProgress issue item).nextAction.rank

theorem evidenceRank_admitted {admission : CnipaGazetteOrchestrationAdmission}
    {browser : CnipaGazetteOrchestrationBrowserEvidence} (hbrowser : item.browser = some browser)
    (hadmission : item.admission = some admission) (issue : Nat) : evidenceRank (some item) issue = 3 := by
  simp [evidenceRank, issueProgress, hbrowser, hadmission, CnipaGazetteOrchestrationNextAction.rank]

theorem evidenceRank_open {browser : CnipaGazetteOrchestrationBrowserEvidence}
    (hbrowser : item.browser = some browser) (hadmission : item.admission = none) (issue : Nat) :
    evidenceRank (some item) issue =
      if browser.completed = true then 2 else if 0 < browser.rowsSeen then 1 else 0 := by
  simp only [evidenceRank, issueProgress, Option.bind_some, hbrowser, hadmission]
  split_ifs <;> rfl

theorem rank_le_of_monotonic {previous next : CnipaGazetteOrchestrationIssueEvidence}
    (h : assertMonotonicIssueEvidence previous next = .ok ()) (issue : Nat) :
    evidenceRank (some previous) issue ≤ evidenceRank (some next) issue := by
  rw [assertMonotonicIssueEvidence] at h
  split_ifs at h with hsame
  · rw [hsame]
  simp only [bind_eq_ok, require_eq_ok] at h
  obtain ⟨-, hopen, result, hbrowser, -⟩ := h
  cases hprevious : previous.browser with
  | none => simp [evidenceRank, issueProgress, hprevious, CnipaGazetteOrchestrationNextAction.rank]
  | some browser =>
    have hstep := exists_mapM_unit.mp ⟨result, hbrowser⟩ browser hprevious
    rw [assertMonotonicBrowser] at hstep
    simp only [bind_eq_ok, orThrow_eq_ok, require_eq_ok] at hstep
    obtain ⟨browser', hnext, -, hcompleted, -, ⟨hrows, -⟩, -⟩ := hstep
    rw [evidenceRank_open hprevious hopen]
    cases hadmission : next.admission with
    | some admission =>
      rw [evidenceRank_admitted hnext hadmission]
      split_ifs <;> decide
    | none =>
      rw [evidenceRank_open hnext hadmission]
      by_cases hdone : browser.completed = true
      · rw [if_pos hdone, if_pos (hcompleted hdone)]
      · rw [if_neg hdone]
        split_ifs <;> omega

/-- An item with an admission is replaced by itself. -/
theorem eq_of_monotonic {previous next : CnipaGazetteOrchestrationIssueEvidence}
    (h : assertMonotonicIssueEvidence previous next = .ok ()) (hadmission : previous.admission ≠ none) :
    next = previous := by
  rw [assertMonotonicIssueEvidence] at h
  split_ifs at h with hsame
  · exact hsame.symm
  simp only [bind_eq_ok, require_eq_ok] at h
  obtain ⟨-, hopen, -⟩ := h
  exact absurd hopen hadmission

/-! ### Runs -/

/-- The evidence of a plan, to which items are recorded; an item that is refused changes nothing. -/
def recording (plan : CnipaGazetteOrchestrationPlan) :
    Machine (List CnipaGazetteOrchestrationIssueEvidence) CnipaGazetteOrchestrationIssueEvidence where
  init := []
  step evidence item :=
    match recordCnipaGazetteOrchestrationIssueEvidence digests plan evidence item with
    | .ok recorded => recorded
    | .error _ => evidence

/-- The evidence is accepted and in the order of the plan. -/
structure Recorded (plan : CnipaGazetteOrchestrationPlan)
    (evidence : List CnipaGazetteOrchestrationIssueEvidence) : Prop where
  accepted : AcceptedEvidence plan evidence
  ordered : (evidence.map (·.announcementIssue)).Sublist (expandCnipaGazetteOrchestrationIssues plan)

/-- From one evidence to a later one: no action goes back, and finalized evidence stays. -/
structure Advances (before after : List CnipaGazetteOrchestrationIssueEvidence) : Prop where
  rank : ∀ issue, evidenceRank (find? before issue) issue ≤ evidenceRank (find? after issue) issue
  finalized : ∀ item ∈ before, item.admission ≠ none → item ∈ after

theorem Advances.refl (evidence : List CnipaGazetteOrchestrationIssueEvidence) :
    Advances evidence evidence := ⟨fun _ => le_rfl, fun _ hmem _ => hmem⟩

theorem Advances.trans {a b c : List CnipaGazetteOrchestrationIssueEvidence} (hab : Advances a b)
    (hbc : Advances b c) : Advances a c :=
  ⟨fun issue => (hab.rank issue).trans (hbc.rank issue),
    fun item hmem hadmission => hbc.finalized item (hab.finalized item hmem hadmission) hadmission⟩

theorem record_spec (hplan : Accepted plan)
    (h : recordCnipaGazetteOrchestrationIssueEvidence digests plan existing item = .ok recorded) :
    Recorded plan recorded ∧ Advances existing recorded := by
  obtain ⟨hexisting, -, merged, hmerged, rfl, hsorted⟩ := (record_eq_ok digests hplan).mp h
  refine ⟨⟨hsorted, sublist_sortEvidence hplan hsorted⟩, ?_⟩
  have hmonotonic := monotonic_of_merge hmerged
  have hfind := fun issue => (find?_sortEvidence hsorted.unique issue).trans (find?_merge hmerged issue)
  constructor
  · intro issue
    rw [hfind issue]
    by_cases hissue : issue = item.announcementIssue
    · rw [if_pos hissue]
      cases hprevious : find? existing issue with
      | none => exact Nat.zero_le _
      | some previous => exact rank_le_of_monotonic (hmonotonic previous (hissue ▸ hprevious)) issue
    · rw [if_neg hissue]
  · intro entry hentry hadmission
    have hold := hexisting.unique.find?_of_mem hentry
    have hnew := hfind entry.announcementIssue
    rw [key_issueEvidence] at hold
    by_cases hissue : entry.announcementIssue = item.announcementIssue
    · rw [if_pos hissue] at hnew
      rw [hissue] at hold
      rw [← eq_of_monotonic (hmonotonic entry hold) hadmission]
      exact mem_of_find? hnew
    · rw [if_neg hissue, hold] at hnew
      exact mem_of_find? hnew

theorem step_recorded (hplan : Accepted plan) (hrecorded : Recorded plan existing)
    (item : CnipaGazetteOrchestrationIssueEvidence) :
    Recorded plan ((recording digests plan).step existing item) ∧
      Advances existing ((recording digests plan).step existing item) := by
  dsimp only [recording]
  cases h : recordCnipaGazetteOrchestrationIssueEvidence digests plan existing item with
  | ok recorded => exact record_spec digests hplan h
  | error message => exact ⟨hrecorded, Advances.refl existing⟩

/-- What one record keeps, a sequence of records keeps. -/
theorem runFrom_recorded (hplan : Accepted plan) (hrecorded : Recorded plan existing)
    (items : List CnipaGazetteOrchestrationIssueEvidence) :
    Recorded plan ((recording digests plan).runFrom existing items) ∧
      Advances existing ((recording digests plan).runFrom existing items) := by
  induction items generalizing existing with
  | nil => exact ⟨hrecorded, Advances.refl existing⟩
  | cons item items ih =>
    obtain ⟨hstep, hadvance⟩ := step_recorded digests hplan hrecorded item
    obtain ⟨hrest, hadvances⟩ := ih hstep
    exact ⟨hrest, hadvance.trans hadvances⟩

theorem recorded_nil (plan : CnipaGazetteOrchestrationPlan) : Recorded plan [] :=
  ⟨⟨List.nodup_nil, fun _ h => absurd h List.not_mem_nil⟩, List.nil_sublist _⟩

end MarkorbitKnowledge.Orchestration
