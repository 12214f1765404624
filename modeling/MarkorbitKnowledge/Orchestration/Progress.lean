import MarkorbitKnowledge.Orchestration.Accepted
import MarkorbitKnowledge.Orchestration.Evidence

/-!
# What the orchestration accepts as evidence

`AcceptedEvidence` is what `deriveCnipaGazetteOrchestrationProgress` checks; over accepted evidence
the progress of an issue is read from its item, and the next preparation succeeds: the references a
capture resumes from went through the parser of browser plans when they were recorded.
-/

namespace MarkorbitKnowledge.Orchestration

open Contracts Fallible Tables

variable (digests : OrchestrationDigests) {plan : CnipaGazetteOrchestrationPlan}
  {evidence : List CnipaGazetteOrchestrationIssueEvidence}

/-! ### Accepted evidence -/

/-- The checks of one evidence item. -/
@[mk_iff] structure AcceptedItem (plan : CnipaGazetteOrchestrationPlan)
    (item : CnipaGazetteOrchestrationIssueEvidence) : Prop where
  authorized : item.announcementIssue ∈ expandCnipaGazetteOrchestrationIssues plan
  finalized : item.admission ≠ none → ∃ browser ∈ item.browser, browser.completed = true
  browser : ∀ browser ∈ item.browser, checkBrowser plan item.announcementIssue browser = .ok ()
  admission : ∀ admission ∈ item.admission, checkAdmission admission = .ok ()

structure AcceptedEvidence (plan : CnipaGazetteOrchestrationPlan)
    (evidence : List CnipaGazetteOrchestrationIssueEvidence) : Prop where
  unique : KeysUnique evidence
  items : ∀ item ∈ evidence, AcceptedItem plan item

theorem exists_mapM_unit {ε α : Type} {f : α → Except ε Unit} {o : Option α} :
    (∃ result, o.mapM f = .ok result) ↔ ∀ a ∈ o, f a = .ok () := by
  cases o with
  | none => simp
  | some a =>
    simp only [Option.mapM_some, map_eq_ok, Option.mem_def, Option.some.injEq]
    constructor
    · intro h other hother
      obtain ⟨_, _, hunit, -⟩ := h
      exact hother ▸ hunit
    · intro h
      exact ⟨some (), (), h a rfl, rfl⟩

theorem addEvidence_eq_ok {kept all : List CnipaGazetteOrchestrationIssueEvidence}
    {item : CnipaGazetteOrchestrationIssueEvidence} :
    addEvidence plan (expandCnipaGazetteOrchestrationIssues plan) kept item = .ok all ↔
      find? kept item.announcementIssue = none ∧ AcceptedItem plan item ∧ all = kept ++ [item] := by
  have hbrowser := exists_mapM_unit (f := checkBrowser plan item.announcementIssue) (o := item.browser)
  have hadmission := exists_mapM_unit (f := checkAdmission) (o := item.admission)
  simp only [addEvidence, bind_eq_ok, require_eq_ok, pure_eq_ok, acceptedItem_iff, ← hbrowser,
    ← hadmission]
  constructor
  · rintro ⟨-, hauthorized, -, hnew, -, hfinalized, browser, hb, admission, ha, rfl⟩
    exact ⟨hnew, ⟨hauthorized, hfinalized, ⟨browser, hb⟩, ⟨admission, ha⟩⟩, rfl⟩
  · rintro ⟨hnew, ⟨hauthorized, hfinalized, ⟨browser, hb⟩, ⟨admission, ha⟩⟩, rfl⟩
    exact ⟨(), hauthorized, (), hnew, (), hfinalized, browser, hb, admission, ha, rfl⟩

theorem foldlM_addEvidence {kept all : List CnipaGazetteOrchestrationIssueEvidence}
    (hkept : KeysUnique kept) :
    evidence.foldlM (addEvidence plan (expandCnipaGazetteOrchestrationIssues plan)) kept = .ok all ↔
      KeysUnique (kept ++ evidence) ∧ (∀ item ∈ evidence, AcceptedItem plan item) ∧
        all = kept ++ evidence := by
  induction evidence generalizing kept with
  | nil =>
    rw [List.foldlM_nil, pure_eq_ok]
    simp [hkept, eq_comm]
  | cons item rest ih =>
    have hsplit : kept ++ item :: rest = kept ++ [item] ++ rest := by simp
    simp only [List.foldlM_cons, bind_eq_ok, addEvidence_eq_ok, hsplit, List.forall_mem_cons]
    constructor
    · rintro ⟨_, ⟨hnew, hitem, rfl⟩, hrest⟩
      have hunique := hkept.append_singleton (find?_eq_none.mp hnew)
      obtain ⟨hall, hitems, rfl⟩ := (ih hunique).mp hrest
      exact ⟨hall, ⟨hitem, hitems⟩, rfl⟩
    · rintro ⟨hall, ⟨hitem, hitems⟩, rfl⟩
      have hunique : KeysUnique (kept ++ [item]) := by
        rw [KeysUnique, List.map_append] at hall
        exact hall.of_append_left
      refine ⟨kept ++ [item], ⟨?_, hitem, rfl⟩, (ih hunique).mpr ⟨hall, hitems, rfl⟩⟩
      rw [find?_eq_none]
      intro other hother heq
      rw [KeysUnique, List.map_append] at hunique
      exact List.disjoint_of_nodup_append hunique (List.mem_map_of_mem hother) (by simp [heq])

theorem derive_eq_ok (hplan : Accepted plan) {progress : CnipaGazetteOrchestrationProgress} :
    deriveCnipaGazetteOrchestrationProgress digests plan evidence = .ok progress ↔
      AcceptedEvidence plan evidence ∧ progress = progressOf digests plan evidence := by
  have hempty : KeysUnique ([] : List CnipaGazetteOrchestrationIssueEvidence) := List.nodup_nil
  rw [deriveCnipaGazetteOrchestrationProgress, parse_toInput hplan, ok_bind, bind_eq_ok]
  simp only [foldlM_addEvidence hempty, List.nil_append, pure_eq_ok]
  constructor
  · rintro ⟨_, ⟨hunique, hitems, rfl⟩, rfl⟩
    exact ⟨⟨hunique, hitems⟩, rfl⟩
  · rintro ⟨⟨hunique, hitems⟩, rfl⟩
    exact ⟨evidence, ⟨hunique, hitems, rfl⟩, rfl⟩

/-! ### The next action of an issue -/

/-- The evidence of the issue holds a finalized admission. -/
def Finalized (evidence : List CnipaGazetteOrchestrationIssueEvidence) (issue : Nat) : Prop :=
  ∃ item ∈ evidence, item.announcementIssue = issue ∧ item.admission ≠ none

instance (issue : Nat) : Decidable (Finalized evidence issue) :=
  inferInstanceAs (Decidable (∃ item ∈ evidence, item.announcementIssue = issue ∧ item.admission ≠ none))

@[simp] theorem issueProgress_announcementIssue (issue : Nat)
    (item : Option CnipaGazetteOrchestrationIssueEvidence) :
    (issueProgress issue item).announcementIssue = issue := by
  unfold issueProgress
  split
  · rfl
  · split_ifs <;> rfl
  · rfl

/-- What is left to do for an issue that is not completed. -/
theorem issueProgress_action (issue : Nat) (item : Option CnipaGazetteOrchestrationIssueEvidence)
    (h : (issueProgress issue item).status ≠ .completed) :
    (issueProgress issue item).nextAction = .buildAdmission ∨
      (issueProgress issue item).nextAction = .startCapture ∨
      (issueProgress issue item).nextAction = .resumeCapture := by
  unfold issueProgress at h ⊢
  split at h
  · exact absurd rfl h
  · split_ifs
    · exact Or.inl rfl
    · exact Or.inr (Or.inr rfl)
    · exact Or.inr (Or.inl rfl)
  · exact Or.inr (Or.inl rfl)

theorem finalized_iff_find? (h : AcceptedEvidence plan evidence) {issue : Nat} :
    Finalized evidence issue ↔ ∃ item, find? evidence issue = some item ∧ item.admission ≠ none := by
  constructor
  · rintro ⟨item, hmem, rfl, hadmission⟩
    exact ⟨item, h.unique.find?_of_mem hmem, hadmission⟩
  · rintro ⟨item, hfind, hadmission⟩
    exact ⟨item, mem_of_find? hfind, key_of_find? hfind, hadmission⟩

/-- Over accepted evidence, an issue is completed when its evidence is finalized. -/
theorem completed_iff_finalized (h : AcceptedEvidence plan evidence) (issue : Nat) :
    (issueProgress issue (find? evidence issue)).status = .completed ↔ Finalized evidence issue := by
  rw [finalized_iff_find? h]
  cases hfind : find? evidence issue with
  | none => simp [issueProgress]
  | some item =>
    have haccepted := h.items item (mem_of_find? hfind)
    cases hbrowser : item.browser with
    | none =>
      have hadmission : item.admission = none := by
        by_contra hne
        obtain ⟨browser, hmem, -⟩ := haccepted.finalized hne
        rw [hbrowser] at hmem
        cases hmem
      simp [issueProgress, hbrowser, hadmission]
    | some browser =>
      cases hadmission : item.admission with
      | none =>
        simp only [issueProgress, Option.bind_some, hbrowser, hadmission]
        split_ifs <;> simp [hadmission]
      | some admission => simp [issueProgress, hbrowser, hadmission]

theorem find?_unfinished (h : AcceptedEvidence plan evidence) (issues : List Nat) :
    ((issues.map fun issue => issueProgress issue (find? evidence issue)).find? fun issue =>
        decide (issue.status ≠ .completed)) =
      (issues.find? fun issue => decide ¬Finalized evidence issue).map fun issue =>
        issueProgress issue (find? evidence issue) := by
  rw [List.find?_map]
  congr 2
  funext issue
  rw [Function.comp_apply]
  exact decide_eq_decide.mpr (not_congr (completed_iff_finalized h issue))

/-- The next issue of the progress is the first issue of the plan that is not finalized. -/
theorem nextIssue_progressOf (h : AcceptedEvidence plan evidence) :
    (progressOf digests plan evidence).nextIssue =
      (expandCnipaGazetteOrchestrationIssues plan).find? fun issue =>
        decide ¬Finalized evidence issue := by
  dsimp only [progressOf]
  rw [find?_unfinished h, Option.map_map]
  simp [Function.comp_def]

/-! ### The next preparation -/

/-- The input of a browser plan that its parser accepts. -/
@[mk_iff] structure AcceptedBrowserInput (input : CnipaGazetteBrowserAuthorityPlan) : Prop where
  operationId : OPERATION_ID input.operationId = true
  workspaceId : WORKSPACE_ID input.workspaceId = true
  issue : 1 ≤ input.announcementIssue ∧ input.announcementIssue ≤ 999999
  target : 1 ≤ input.targetLogicalPagesPerCheckpoint ∧ input.targetLogicalPagesPerCheckpoint ≤ 100
  runtime : 60 ≤ input.maxRuntimeSeconds ∧ input.maxRuntimeSeconds ≤ 86400
  version : input.captureToolVersion ∈ ["1.0.0", "1.0.1", "1.0.2", "1.0.3"]
  named : trim input.captureToolBundleName ≠ "" ∧ jsLength input.captureToolBundleName ≤ 255
  digest : SHA256 input.captureToolBundleSha256 = true
  resumeFrom : ∃ parsed, input.resumeFrom.mapM Browser.parseResumeFrom = .ok parsed

theorem exists_browserPlan_iff {input : CnipaGazetteBrowserAuthorityPlan} :
    (∃ browserPlan, Browser.cnipaGazetteBrowserAuthorityPlan input = .ok browserPlan) ↔
      AcceptedBrowserInput input := by
  simp only [Browser.cnipaGazetteBrowserAuthorityPlan, Browser.positiveInteger, bind_eq_ok,
    require_eq_ok, pure_eq_ok, acceptedBrowserInput_iff]
  constructor
  · rintro ⟨_, -, hoperation, -, hworkspace, _, ⟨-, hissue, rfl⟩, _, ⟨-, htarget, rfl⟩, _,
      ⟨-, hruntime, rfl⟩, -, hmin, -, hversion, -, hnamed, -, hdigest, parsed, hparsed, -⟩
    exact ⟨hoperation, hworkspace, hissue, htarget, ⟨hmin, hruntime.2⟩, hversion, hnamed, hdigest,
      parsed, hparsed⟩
  · rintro ⟨hoperation, hworkspace, hissue, htarget, ⟨hmin, hmax⟩, hversion, hnamed, hdigest, parsed,
      hparsed⟩
    exact ⟨_, (), hoperation, (), hworkspace, _, ⟨(), hissue, rfl⟩, _, ⟨(), htarget, rfl⟩, _,
      ⟨(), ⟨le_trans (by decide) hmin, hmax⟩, rfl⟩, (), hmin, (), hversion, (), hnamed, (), hdigest,
      parsed, hparsed, rfl⟩

/-- The browser plan of an issue is accepted when its operation id is a slug and its resume
    references parse. -/
theorem acceptedBrowserInput (hplan : Accepted plan) {issue : Nat} (hissue : IsIssue issue)
    {operationId : String} {resumeFrom : Option CnipaGazetteBrowserAuthorityResumeFrom}
    (hoperation : OPERATION_ID operationId = true)
    (hresume : ∃ parsed, resumeFrom.mapM Browser.parseResumeFrom = .ok parsed) :
    AcceptedBrowserInput (browserPlanInput plan operationId issue resumeFrom) := by
  obtain ⟨htarget, hruntime, htrimmed, hnamed, hshort, hdigest⟩ := hplan.template
  refine ⟨hoperation, hplan.workspaceId, ⟨le_trans (by decide) hissue.1, hissue.2⟩, htarget,
    ⟨hruntime.1, hruntime.2.trans (by decide)⟩, by simp [browserPlanInput], ⟨?_, hshort⟩, hdigest, hresume⟩
  dsimp only [browserPlanInput]
  rw [htrimmed]
  exact hnamed

/-- What the progress says of an issue whose capture is to be resumed. -/
theorem resumable (h : AcceptedEvidence plan evidence) {issue : Nat}
    (haction : (issueProgress issue (find? evidence issue)).nextAction = .resumeCapture) :
    ∃ item browser resumeFrom parsed, find? evidence issue = some item ∧ item.browser = some browser ∧
      ARTIFACT_ID browser.stateArtifactId = true ∧
      (issueProgress issue (find? evidence issue)).stateArtifactId = some browser.stateArtifactId ∧
      browser.resumeFrom = some resumeFrom ∧
      Browser.parseResumeFrom resumeFrom = .ok parsed := by
  cases hfind : find? evidence issue with
  | none => simp [issueProgress, hfind] at haction
  | some item =>
    have haccepted := h.items item (mem_of_find? hfind)
    cases hbrowser : item.browser with
    | none => simp [issueProgress, hfind, hbrowser] at haction
    | some browser =>
      cases hadmission : item.admission with
      | some admission => simp [issueProgress, hfind, hbrowser, hadmission] at haction
      | none =>
        have hcheck := haccepted.browser browser hbrowser
        simp only [issueProgress, hfind, Option.bind_some, hbrowser, hadmission] at haction ⊢
        split_ifs at haction ⊢ with hcompleted hrows
        rw [checkBrowser, artifactId] at hcheck
        simp only [bind_eq_ok, require_eq_ok, integer_eq_ok] at hcheck
        obtain ⟨-, hartifact, _, -, rowsSeen, ⟨-, rfl⟩, -, -, hpartial⟩ := hcheck
        have hopen : browser.completed = false := Bool.eq_false_iff.mpr hcompleted
        have hseen : 0 < browser.rowsSeen.toNat := by omega
        rw [if_pos ⟨hopen, hseen⟩, checkPartial] at hpartial
        simp only [bind_eq_ok, orThrow_eq_ok, require_eq_ok] at hpartial
        obtain ⟨resumeFrom, hresume, -, -, browserPlan, hbrowserPlan, -⟩ := hpartial
        obtain ⟨parsed, hparsed⟩ := (exists_browserPlan_iff.mp ⟨browserPlan, hbrowserPlan⟩).resumeFrom
        simp only [browserPlanInput, Option.mapM_some, map_eq_ok] at hparsed
        obtain ⟨parsed, hparsed, -⟩ := hparsed
        exact ⟨item, browser, resumeFrom, parsed, rfl, hbrowser, hartifact, rfl, hresume, hparsed⟩

/-! ### Operation ids -/

theorem isSha256Text_sha256Hex (digest : Digest) : SHA256 (sha256Hex digest) = true := by
  obtain ⟨hlength, hdigits⟩ := Staging.hexText_digits 64 digest
  have hhex : ∀ digit < 16, ((hexDigit digit).isDigit ||
      decide ('a' ≤ hexDigit digit) && decide (hexDigit digit ≤ 'f')) = true := by decide
  rw [SHA256, isSha256Text, sha256Hex, String.toList_ofList, Bool.and_eq_true, decide_eq_true_eq,
    List.all_eq_true]
  refine ⟨hlength, fun c hc => ?_⟩
  obtain ⟨digit, hlt, rfl⟩ := hdigits c hc
  exact hhex digit hlt

theorem isSlug_shortDigest (digest : Digest) : isSlug (shortDigest digest) = true := by
  obtain ⟨hlength, hdigits⟩ := Staging.hexText_digits 64 digest
  have hhex : ∀ digit < 16, isLowerAlnum (hexDigit digit) = true := by decide
  refine isSlug_of_alnum ?_ fun c hc => ?_
  · intro hnil
    have hshort := congrArg List.length hnil
    rw [List.length_take, Staging.digestText, hlength] at hshort
    simp at hshort
  · obtain ⟨digit, hlt, rfl⟩ := hdigits c (List.mem_of_mem_take hc)
    exact hhex digit hlt

/-- A slug goes on with a word and a slug. -/
theorem isSlug_word {a word joined b : String} (hjoined : joined = "-" ++ word ++ "-")
    (ha : isSlug a = true) (hword : isSlug word = true) (hb : isSlug b = true) :
    isSlug (a ++ joined ++ b) = true := by
  have htext : a ++ ("-" ++ word ++ "-") ++ b = a ++ "-" ++ word ++ "-" ++ b := by
    simp only [String.append_assoc]
  rw [hjoined, htext]
  exact isSlug_append (isSlug_append ha hword) hb

/-- Every browser action has an operation id, and it is a slug. -/
theorem browserOperationId_isSlug (hplan : Accepted plan) (issue : Nat) {stateArtifactId : Option String}
    {action : CnipaGazetteOrchestrationNextAction}
    (haction : action = .startCapture ∨
      action = .resumeCapture ∧ ∃ id, stateArtifactId = some id ∧ ARTIFACT_ID id = true) :
    ∃ operationId, browserOperationId digests plan issue stateArtifactId action = .ok operationId ∧
      OPERATION_ID operationId = true := by
  have hword : "-issue-" = "-" ++ "issue" ++ "-" := by decide
  have hresume : "-resume-" = "-" ++ "resume" ++ "-" := by decide
  have hissue : isSlug (plan.operationId ++ "-issue-" ++ toString issue) = true :=
    isSlug_word hword hplan.operationId (by decide : isSlug "issue" = true) (isSlug_toString issue)
  rcases haction with rfl | ⟨rfl, id, rfl, hid⟩
  · refine ⟨_, rfl, ?_⟩
    have hstart : "-start" = "-" ++ "start" := by decide
    have happend := isSlug_append hissue (by decide : isSlug "start" = true)
    rw [String.append_assoc, ← hstart] at happend
    exact happend
  · have hne : id ≠ "" := by
      rintro rfl
      exact absurd hid (by decide)
    refine ⟨plan.operationId ++ "-issue-" ++ toString issue ++ "-resume-" ++
      shortDigest (digests.text id), ?_, ?_⟩
    · simp [browserOperationId, hne]
    · exact isSlug_word hresume hissue (by decide : isSlug "resume" = true)
        (isSlug_shortDigest (digests.text id))

/-- A browser action whose resume references parse gets its browser plan. -/
theorem nextBrowserPlan_of_action (hplan : Accepted plan)
    {next : CnipaGazetteOrchestrationIssueProgress} (hissue : IsIssue next.announcementIssue)
    (haction : next.nextAction = .startCapture ∨
      next.nextAction = .resumeCapture ∧ ∃ id, next.stateArtifactId = some id ∧ ARTIFACT_ID id = true)
    {resumeFrom : Option CnipaGazetteBrowserAuthorityResumeFrom}
    (hresumeFrom : resumeFromOf evidence next = .ok resumeFrom)
    (hparsed : ∃ parsed, resumeFrom.mapM Browser.parseResumeFrom = .ok parsed) :
    ∃ browserPlan, nextBrowserPlan digests plan evidence next = .ok browserPlan := by
  obtain ⟨operationId, hoperation, hslug⟩ :=
    browserOperationId_isSlug digests hplan next.announcementIssue haction
  obtain ⟨browserPlan, hbrowserPlan⟩ :=
    exists_browserPlan_iff.mpr (acceptedBrowserInput hplan hissue hslug hparsed)
  have hcapture : next.nextAction = .startCapture ∨ next.nextAction = .resumeCapture :=
    haction.imp_right And.left
  have hbuild : next.nextAction ≠ .buildAdmission := by
    intro hbuild
    rw [hbuild] at hcapture
    exact absurd hcapture (by decide)
  refine ⟨some browserPlan, ?_⟩
  rw [nextBrowserPlan, if_neg hbuild, hresumeFrom, hoperation]
  simp [require, hcapture, ok_bind, hbrowserPlan]

/-- The browser plan of an unfinished issue is accepted. -/
theorem nextBrowserPlan_ok (hplan : Accepted plan) (h : AcceptedEvidence plan evidence) {issue : Nat}
    (hissue : IsIssue issue) (hopen : ¬Finalized evidence issue) :
    ∃ browserPlan, nextBrowserPlan digests plan evidence
      (issueProgress issue (find? evidence issue)) = .ok browserPlan := by
  set next := issueProgress issue (find? evidence issue) with hnext
  have hname : next.announcementIssue = issue := issueProgress_announcementIssue issue _
  have hstatus : next.status ≠ .completed := mt (completed_iff_finalized h issue).mp hopen
  rcases issueProgress_action issue _ hstatus with hbuild | hstart | hresume
  · exact ⟨none, by rw [nextBrowserPlan, if_pos hbuild]; rfl⟩
  · have hnone : resumeFromOf evidence next = .ok none := by
      rw [resumeFromOf, if_neg (by rw [hstart]; decide)]
      rfl
    exact nextBrowserPlan_of_action digests hplan (hname ▸ hissue) (Or.inl hstart) hnone ⟨none, rfl⟩
  · obtain ⟨item, browser, resumeFrom, parsed, hfind, hbrowser, hartifact, hstate, hresumeFrom, hparsed⟩ :=
      resumable h hresume
    have hreferences : resumeFromOf evidence next = .ok (some resumeFrom) := by
      rw [resumeFromOf, if_pos hresume, hname]
      simp [hfind, hbrowser, hresumeFrom, orThrow]
    refine nextBrowserPlan_of_action digests hplan (hname ▸ hissue)
      (Or.inr ⟨hresume, _, hstate, hartifact⟩) hreferences ⟨some parsed, ?_⟩
    rw [Option.mapM_some, hparsed]
    rfl

/-- An unfinished issue of the plan is prepared. -/
theorem prepareNext_ok (hplan : Accepted plan) (h : AcceptedEvidence plan evidence) {issue : Nat}
    (hmem : issue ∈ expandCnipaGazetteOrchestrationIssues plan) (hopen : ¬Finalized evidence issue) :
    ∃ next, prepareNext digests plan evidence (progressOf digests plan evidence) issue = .ok next ∧
      next.announcementIssue = issue := by
  have hissue := isIssue_of_mem_expandSelection hplan.selection issue hmem
  obtain ⟨browserPlan, hbrowserPlan⟩ := nextBrowserPlan_ok digests hplan h hissue hopen
  have hfind : ((progressOf digests plan evidence).issues.find? fun progress =>
      decide (progress.announcementIssue = issue)) =
        some (issueProgress issue (find? evidence issue)) := by
    dsimp only [progressOf]
    rw [List.find?_map, Function.comp_def]
    simp only [issueProgress_announcementIssue]
    have hself : ((expandCnipaGazetteOrchestrationIssues plan).find? fun other => decide (other = issue)) =
        some issue := by
      cases hother : (expandCnipaGazetteOrchestrationIssues plan).find? fun other =>
          decide (other = issue) with
      | none =>
        have := List.find?_eq_none.mp hother issue hmem
        simp at this
      | some other =>
        have hsame := List.find?_some hother
        rw [of_decide_eq_true hsame]
    rw [hself, Option.map_some]
  rw [prepareNext, hfind]
  simp only [orThrow, ok_bind, hbrowserPlan, issueProgress_announcementIssue]
  exact ⟨_, rfl, rfl⟩

/-- Over accepted evidence the next preparation succeeds, and names the first issue that is not
    finalized. -/
theorem nextPreparation_ok (hplan : Accepted plan) (h : AcceptedEvidence plan evidence) :
    ∃ preparation, buildCnipaGazetteOrchestrationNextPreparation digests plan evidence =
        .ok preparation ∧ preparation.progress = progressOf digests plan evidence ∧
      preparation.next.map (·.announcementIssue) =
        (expandCnipaGazetteOrchestrationIssues plan).find? fun issue =>
          decide ¬Finalized evidence issue := by
  have hderive := (derive_eq_ok digests hplan).mpr ⟨h, rfl⟩
  rw [buildCnipaGazetteOrchestrationNextPreparation, parse_toInput hplan, ok_bind, hderive, ok_bind,
    nextIssue_progressOf digests h]
  cases hnext : (expandCnipaGazetteOrchestrationIssues plan).find? fun issue =>
      decide ¬Finalized evidence issue with
  | none => exact ⟨_, rfl, rfl, rfl⟩
  | some issue =>
    obtain ⟨next, hprepare, hissue⟩ := prepareNext_ok digests hplan h
      (List.mem_of_find?_eq_some hnext) (by simpa using List.find?_some hnext)
    rw [Option.mapM_some, hprepare]
    exact ⟨_, rfl, rfl, congrArg some hissue⟩

end MarkorbitKnowledge.Orchestration
