import MarkorbitKnowledge.Orchestration.Advance

/-!
# Batches of the gazette orchestration

`buildCnipaGazetteOrchestrationNextBatchPlan` proposes the plan of the issues that follow a finished
plan, up to a bound that is the same for every batch.  `nextBatch_eq_ok` says when the call succeeds
and what it proposes, and `batches_cover` follows a sequence of proposals: their issues are the
consecutive issues after the first plan.
-/

namespace MarkorbitKnowledge.Orchestration

open Contracts Fallible Tables Transitions

variable (digests : OrchestrationDigests) {plan : CnipaGazetteOrchestrationPlan}
  {evidence : List CnipaGazetteOrchestrationIssueEvidence} {upper : Nat}

/-! ### The bound -/

def lastIssue (plan : CnipaGazetteOrchestrationPlan) : Nat :=
  (expandCnipaGazetteOrchestrationIssues plan).getLastD 0

/-- The last issue of all batches after a plan: the `historicalUpperBound` of the calls, or the
    `observedMaxIssue` of the plan. -/
def UpperBound (plan : CnipaGazetteOrchestrationPlan) (historicalUpperBound : Option Int)
    (upper : Nat) : Prop :=
  match plan.purpose with
  | .historicalBackfill =>
    historicalUpperBound = some (upper : Int) ∧ IsIssue upper ∧ lastIssue plan ≤ upper
  | .incrementalCatchup => historicalUpperBound = none ∧ plan.observedMaxIssue = some upper

theorem lastIssue_mem (hplan : Accepted plan) :
    lastIssue plan ∈ expandCnipaGazetteOrchestrationIssues plan := by
  have hne : expandCnipaGazetteOrchestrationIssues plan ≠ [] := expandSelection_ne_nil hplan.selection
  rw [lastIssue, List.getLastD_eq_getLast?, List.getLast?_eq_some_getLast hne, Option.getD_some]
  exact List.getLast_mem hne

theorem batchUpperBound_eq_ok (hplan : Accepted plan) {historicalUpperBound : Option Int} :
    batchUpperBound plan (lastIssue plan) historicalUpperBound = .ok upper ↔
      UpperBound plan historicalUpperBound upper := by
  have hpurpose := hplan.purpose
  unfold batchUpperBound UpperBound
  unfold AcceptedPurpose at hpurpose
  cases hcase : plan.purpose with
  | historicalBackfill =>
    simp only [bind_eq_ok, orThrow_eq_ok, integer_issue_iff, require_eq_ok, pure_eq_ok]
    constructor
    · rintro ⟨value, rfl, bound, ⟨hbound, rfl⟩, -, hlast, rfl⟩
      exact ⟨rfl, hbound, hlast⟩
    · rintro ⟨rfl, hbound, hlast⟩
      exact ⟨upper, rfl, upper, ⟨hbound, rfl⟩, (), hlast, rfl⟩
  | incrementalCatchup =>
    rw [hcase] at hpurpose
    obtain ⟨-, maximum, hmaximum, -⟩ := hpurpose
    simp only [bind_eq_ok, require_eq_ok, pure_eq_ok, hmaximum, Option.getD_some, Option.some.injEq]
    constructor
    · rintro ⟨-, hnone, rfl⟩
      exact ⟨hnone, rfl⟩
    · rintro ⟨hnone, rfl⟩
      exact ⟨(), hnone, rfl⟩

theorem UpperBound.spec (hplan : Accepted plan) {historicalUpperBound : Option Int}
    (h : UpperBound plan historicalUpperBound upper) : IsIssue upper ∧ lastIssue plan ≤ upper := by
  have hpurpose := hplan.purpose
  unfold UpperBound at h
  unfold AcceptedPurpose at hpurpose
  cases hcase : plan.purpose with
  | historicalBackfill =>
    rw [hcase] at h
    exact h.2
  | incrementalCatchup =>
    rw [hcase] at h hpurpose
    obtain ⟨-, maximum, hmaximum, hissue, hissues⟩ := hpurpose
    obtain rfl : maximum = upper := Option.some.inj (hmaximum.symm.trans h.2)
    exact ⟨hissue, hissues _ (lastIssue_mem hplan)⟩

/-! ### The plan of the next batch -/

def endIssue (plan : CnipaGazetteOrchestrationPlan) (upper batchSize : Nat) : Nat :=
  min upper (lastIssue plan + 1 + batchSize - 1)

/-- The plan of the issues after the last one of a plan. -/
def nextBatch (plan : CnipaGazetteOrchestrationPlan) (upper batchSize : Nat) :
    CnipaGazetteOrchestrationPlan :=
  { plan with
    operationId := "gazette-" ++ purposeSlug plan.purpose ++ "-" ++ toString (lastIssue plan + 1) ++
      "-" ++ toString (endIssue plan upper batchSize) ++ "-" ++ shortDigest (digests.plan plan)
    issueSelection := .range (lastIssue plan + 1) (endIssue plan upper batchSize)
    parentPlanSha256 := some (cnipaGazetteOrchestrationPlanSha256 digests plan) }

theorem nextBatchInput_eq (hplan : Accepted plan) (batchSize : Nat) :
    nextBatchInput digests plan (lastIssue plan + 1) (endIssue plan upper batchSize) =
      (nextBatch digests plan upper batchSize).toInput := by
  have hpurpose := hplan.purpose
  unfold AcceptedPurpose at hpurpose
  unfold nextBatchInput nextBatch CnipaGazetteOrchestrationPlan.toInput
  cases hcase : plan.purpose with
  | historicalBackfill =>
    rw [hcase] at hpurpose
    simp [selectionInput, hpurpose.2]
  | incrementalCatchup => simp [selectionInput]

theorem isSlug_purposeSlug (purpose : CnipaGazetteOrchestrationPurpose) :
    isSlug ("gazette-" ++ purposeSlug purpose) = true := by
  cases purpose with
  | historicalBackfill => decide
  | incrementalCatchup => decide

theorem nextBatch_issues (hlast : lastIssue plan < upper) {batchSize : Nat} (hsize : 1 ≤ batchSize) :
    expandCnipaGazetteOrchestrationIssues (nextBatch digests plan upper batchSize) =
        List.range' (lastIssue plan + 1) (endIssue plan upper batchSize - lastIssue plan) ∧
      lastIssue (nextBatch digests plan upper batchSize) = endIssue plan upper batchSize ∧
      lastIssue plan < endIssue plan upper batchSize ∧ endIssue plan upper batchSize ≤ upper ∧
      endIssue plan upper batchSize ≤ lastIssue plan + batchSize := by
  have hend : lastIssue plan < endIssue plan upper batchSize := by
    rw [endIssue]
    omega
  have hissues : expandCnipaGazetteOrchestrationIssues (nextBatch digests plan upper batchSize) =
      List.range' (lastIssue plan + 1) (endIssue plan upper batchSize - lastIssue plan) := by
    have hcount : endIssue plan upper batchSize - (lastIssue plan + 1) + 1 =
        endIssue plan upper batchSize - lastIssue plan := by omega
    rw [← hcount]
    rfl
  refine ⟨hissues, ?_, hend, min_le_left _ _, ?_⟩
  · rw [lastIssue, hissues, List.getLastD_eq_getLast?, List.getLast?_range']
    rw [if_neg (by omega), Option.getD_some]
    omega
  · rw [endIssue]
    omega

theorem nextBatch_upperBound {historicalUpperBound : Option Int}
    (hupper : UpperBound plan historicalUpperBound upper) (hlast : lastIssue plan < upper)
    {batchSize : Nat} (hsize : 1 ≤ batchSize) :
    UpperBound (nextBatch digests plan upper batchSize) historicalUpperBound upper := by
  obtain ⟨-, hlastIssue, -, hle, -⟩ := nextBatch_issues digests hlast hsize
  have hsame : (nextBatch digests plan upper batchSize).purpose = plan.purpose := rfl
  unfold UpperBound at hupper ⊢
  rw [hlastIssue, hsame]
  cases hcase : plan.purpose with
  | historicalBackfill =>
    rw [hcase] at hupper
    exact ⟨hupper.1, hupper.2.1, hle⟩
  | incrementalCatchup =>
    rw [hcase] at hupper
    exact hupper

theorem nextBatch_purpose (hplan : Accepted plan) {historicalUpperBound : Option Int}
    (hupper : UpperBound plan historicalUpperBound upper) (hlast : lastIssue plan < upper)
    {batchSize : Nat} (hsize : 1 ≤ batchSize) :
    AcceptedPurpose (nextBatch digests plan upper batchSize) := by
  obtain ⟨hissues, -, -, hle, -⟩ := nextBatch_issues digests hlast hsize
  have hissue := (hupper.spec hplan).1
  have hsame : (nextBatch digests plan upper batchSize).purpose = plan.purpose := rfl
  have hpurpose := hplan.purpose
  unfold AcceptedPurpose at hpurpose ⊢
  unfold UpperBound at hupper
  rw [hsame]
  cases hcase : plan.purpose with
  | historicalBackfill =>
    rw [hcase] at hpurpose
    exact hpurpose
  | incrementalCatchup =>
    rw [hcase] at hpurpose hupper
    refine ⟨hpurpose.1, upper, hupper.2, hissue, fun issue hmem => ?_⟩
    rw [hissues] at hmem
    have := (List.mem_range'_1.mp hmem).2
    omega

theorem nextBatch_accepted (hplan : Accepted plan) {historicalUpperBound : Option Int}
    (hupper : UpperBound plan historicalUpperBound upper) (hlast : lastIssue plan < upper)
    {batchSize : Nat} (hsize : 1 ≤ batchSize ∧ batchSize ≤ CNIPA_GAZETTE_ORCHESTRATION_MAX_ISSUES) :
    Accepted (nextBatch digests plan upper batchSize) := by
  obtain ⟨-, -, hlt, hle, hcount⟩ := nextBatch_issues digests hlast hsize.1
  obtain ⟨hissue, -⟩ := hupper.spec hplan
  have hmin := (isIssue_of_mem_expandSelection hplan.selection _ (lastIssue_mem hplan)).1
  have hstart : IsIssue (lastIssue plan + 1) := ⟨hmin.trans (Nat.le_succ _), hlast.trans_le hissue.2⟩
  have hend : IsIssue (endIssue plan upper batchSize) := ⟨hmin.trans hlt.le, hle.trans hissue.2⟩
  refine ⟨?_, hplan.workspaceId, ⟨hstart, hend, hlt, ?_⟩, hplan.template, ?_,
    nextBatch_purpose digests hplan hupper hlast hsize.1⟩
  · exact isSlug_append (isSlug_append (isSlug_append (isSlug_purposeSlug plan.purpose)
      (isSlug_toString _)) (isSlug_toString _)) (isSlug_shortDigest _)
  · have := hsize.2
    omega
  · intro digest hdigest
    rw [← Option.some.inj hdigest]
    exact isSha256Text_sha256Hex _

/-! ### One call -/

/-- The plan is finished by the evidence. -/
def Finished (plan : CnipaGazetteOrchestrationPlan)
    (evidence : List CnipaGazetteOrchestrationIssueEvidence) : Prop :=
  ∃ progress, deriveCnipaGazetteOrchestrationProgress digests plan evidence = .ok progress ∧
    progress.completed = true

theorem finished_iff (hplan : Accepted plan) :
    Finished digests plan evidence ↔
      AcceptedEvidence plan evidence ∧ (progressOf digests plan evidence).completed = true := by
  constructor
  · rintro ⟨progress, hderive, hcompleted⟩
    obtain ⟨haccepted, rfl⟩ := (derive_eq_ok digests hplan).mp hderive
    exact ⟨haccepted, hcompleted⟩
  · rintro ⟨haccepted, hcompleted⟩
    exact ⟨_, (derive_eq_ok digests hplan).mpr ⟨haccepted, rfl⟩, hcompleted⟩

/-- What a call proposes: the next batch, none when the bound is reached. -/
def proposedPlan (plan : CnipaGazetteOrchestrationPlan) (upper : Nat) (batchSize : Int) :
    Option CnipaGazetteOrchestrationPlan :=
  if upper ≤ lastIssue plan then none else some (nextBatch digests plan upper batchSize.toNat)

theorem nextBatch_ok (hplan : Accepted plan) {historicalUpperBound : Option Int}
    (hupper : UpperBound plan historicalUpperBound upper) (hfinished : Finished digests plan evidence)
    {batchSize : Int} (hsize : 1 ≤ batchSize ∧ batchSize ≤ 100) :
    ∃ proposal, buildCnipaGazetteOrchestrationNextBatchPlan digests plan evidence batchSize
        historicalUpperBound = .ok proposal ∧
      proposal.nextPlan = proposedPlan digests plan upper batchSize := by
  obtain ⟨haccepted, hcompleted⟩ := (finished_iff digests hplan).mp hfinished
  have hbatchSize : 1 ≤ batchSize.toNat ∧ batchSize.toNat ≤ CNIPA_GAZETTE_ORCHESTRATION_MAX_ISSUES := by
    rw [CNIPA_GAZETTE_ORCHESTRATION_MAX_ISSUES]
    omega
  have hinteger : integer batchSize "batchSize" 1 CNIPA_GAZETTE_ORCHESTRATION_MAX_ISSUES =
      .ok batchSize.toNat := integer_eq_ok.mpr ⟨hsize, rfl⟩
  have hlastIssue : (expandCnipaGazetteOrchestrationIssues plan).getLastD 0 = lastIssue plan := rfl
  rw [buildCnipaGazetteOrchestrationNextBatchPlan, parse_toInput hplan, ok_bind,
    (derive_eq_ok digests hplan).mpr ⟨haccepted, rfl⟩, ok_bind, require, if_pos hcompleted, ok_bind,
    hinteger, ok_bind, proposedPlan]
  dsimp only
  rw [hlastIssue, (batchUpperBound_eq_ok hplan).mpr hupper, ok_bind]
  by_cases hlast : upper ≤ lastIssue plan
  · rw [if_pos hlast, if_pos hlast]
    exact ⟨_, rfl, rfl⟩
  · rw [if_neg hlast, if_neg hlast]
    rw [not_le] at hlast
    have hnext := parse_toInput (nextBatch_accepted digests hplan hupper hlast hbatchSize)
    rw [← nextBatchInput_eq digests hplan, endIssue] at hnext
    have hdigest : SHA256 (cnipaGazetteOrchestrationPlanSha256 digests
        (nextBatch digests plan upper batchSize.toNat)) = true := isSha256Text_sha256Hex _
    rw [hnext, ok_bind, expectedCnipaGazetteOrchestrationAuthorityToken, require, if_pos hdigest]
    exact ⟨_, rfl, rfl⟩

theorem nextBatch_inv (hplan : Accepted plan) {historicalUpperBound : Option Int} {batchSize : Int}
    {proposal : CnipaGazetteOrchestrationNextBatchProposal}
    (h : buildCnipaGazetteOrchestrationNextBatchPlan digests plan evidence batchSize
      historicalUpperBound = .ok proposal) :
    Finished digests plan evidence ∧ (1 ≤ batchSize ∧ batchSize ≤ 100) := by
  rw [buildCnipaGazetteOrchestrationNextBatchPlan, parse_toInput hplan, ok_bind] at h
  simp only [bind_eq_ok, derive_eq_ok digests hplan, require_eq_ok, integer_eq_ok] at h
  obtain ⟨_, ⟨haccepted, rfl⟩, -, hcompleted, _, ⟨hsize, rfl⟩, -⟩ := h
  exact ⟨(finished_iff digests hplan).mpr ⟨haccepted, hcompleted⟩, hsize⟩

/-- A proposed plan is accepted, under the same bound, and holds the issues after the plan. -/
theorem nextBatch_step (hplan : Accepted plan) {historicalUpperBound : Option Int}
    (hupper : UpperBound plan historicalUpperBound upper) {batchSize : Int}
    {proposal : CnipaGazetteOrchestrationNextBatchProposal} {next : CnipaGazetteOrchestrationPlan}
    (hcall : buildCnipaGazetteOrchestrationNextBatchPlan digests plan evidence batchSize
      historicalUpperBound = .ok proposal)
    (hnext : proposal.nextPlan = some next) :
    Accepted next ∧ UpperBound next historicalUpperBound upper ∧ lastIssue plan < lastIssue next ∧
      expandCnipaGazetteOrchestrationIssues next =
        List.range' (lastIssue plan + 1) (lastIssue next - lastIssue plan) := by
  obtain ⟨hfinished, hsize⟩ := nextBatch_inv digests hplan hcall
  obtain ⟨_, hproposal, hproposed⟩ := nextBatch_ok digests hplan hupper hfinished hsize
  obtain rfl := Except.ok.inj (hproposal.symm.trans hcall)
  have hbatchSize : 1 ≤ batchSize.toNat ∧
      batchSize.toNat ≤ CNIPA_GAZETTE_ORCHESTRATION_MAX_ISSUES := by
    rw [CNIPA_GAZETTE_ORCHESTRATION_MAX_ISSUES]
    omega
  rw [hnext, proposedPlan] at hproposed
  split_ifs at hproposed with hlast
  rw [not_le] at hlast
  obtain rfl := Option.some.inj hproposed
  obtain ⟨hissues, hlastIssue, hlt, -, -⟩ := nextBatch_issues digests hlast hbatchSize.1
  rw [hlastIssue]
  exact ⟨nextBatch_accepted digests hplan hupper hlast hbatchSize,
    nextBatch_upperBound digests hupper hlast hbatchSize.1, hlt, hissues⟩

/-! ### A sequence of batches -/

/-- Plans each proposed by a successful call for the one before it. -/
inductive Batches (historicalUpperBound : Option Int) :
    CnipaGazetteOrchestrationPlan → List CnipaGazetteOrchestrationPlan → Prop
  | nil (first : CnipaGazetteOrchestrationPlan) : Batches historicalUpperBound first []
  | cons {first next : CnipaGazetteOrchestrationPlan} {rest : List CnipaGazetteOrchestrationPlan}
      {finished : List CnipaGazetteOrchestrationIssueEvidence} {batchSize : Int}
      {proposal : CnipaGazetteOrchestrationNextBatchProposal}
      (hcall : buildCnipaGazetteOrchestrationNextBatchPlan digests first finished batchSize
        historicalUpperBound = .ok proposal)
      (hnext : proposal.nextPlan = some next) (hrest : Batches historicalUpperBound next rest) :
      Batches historicalUpperBound first (next :: rest)

/-- The batches after a plan hold the issues after it, one after the other. -/
theorem batches_cover (hplan : Accepted plan) {historicalUpperBound : Option Int}
    (hupper : UpperBound plan historicalUpperBound upper) {batches : List CnipaGazetteOrchestrationPlan}
    (h : Batches digests historicalUpperBound plan batches) :
    Accepted (batches.getLastD plan) ∧ UpperBound (batches.getLastD plan) historicalUpperBound upper ∧
      lastIssue plan + batches.length ≤ lastIssue (batches.getLastD plan) ∧
      batches.flatMap expandCnipaGazetteOrchestrationIssues =
        List.range' (lastIssue plan + 1) (lastIssue (batches.getLastD plan) - lastIssue plan) ∧
      ∀ batch ∈ batches, expandCnipaGazetteOrchestrationIssues batch ≠ [] := by
  induction h with
  | nil first => exact ⟨hplan, hupper, le_rfl, by simp, by simp⟩
  | @cons first next rest finished batchSize proposal hcall hnext hrest ih =>
    obtain ⟨haccepted, hbound, hlt, hissues⟩ := nextBatch_step digests hplan hupper hcall hnext
    obtain ⟨hfinal, hfinalUpper, hlength, hrange, hne⟩ := ih haccepted hbound
    rw [List.getLastD_cons]
    refine ⟨hfinal, hfinalUpper, ?_, ?_, ?_⟩
    · rw [List.length_cons]
      omega
    · have hstart : lastIssue next + 1 = lastIssue first + 1 + (lastIssue next - lastIssue first) := by
        omega
      rw [List.flatMap_cons, hissues, hrange, hstart, List.range'_append_1]
      congr 1
      omega
    · intro batch hbatch
      rcases List.mem_cons.mp hbatch with rfl | hbatch
      · exact expandSelection_ne_nil haccepted.selection
      · exact hne batch hbatch

/-! ### Finished plans -/

/-- Evidence that finishes a plan. -/
def finishedEvidence (plan : CnipaGazetteOrchestrationPlan) :
    List CnipaGazetteOrchestrationIssueEvidence :=
  (expandCnipaGazetteOrchestrationIssues plan).map fun issue =>
    { announcementIssue := issue
      browser := some ⟨"art_00000000000000000000000000", true, 1, 0, none⟩
      admission := some ⟨sha256Hex 0, "art_00000000000000000000000000"⟩ }

/-- Every plan can be finished. -/
theorem finished_finishedEvidence (hplan : Accepted plan) :
    Finished digests plan (finishedEvidence plan) := by
  have hissues : (finishedEvidence plan).map (·.announcementIssue) =
      expandCnipaGazetteOrchestrationIssues plan := by
    simp [finishedEvidence, Function.comp_def]
  have hartifact : ARTIFACT_ID "art_00000000000000000000000000" = true := by decide +kernel
  have haccepted : AcceptedEvidence plan (finishedEvidence plan) := by
    constructor
    · have hkeys : (finishedEvidence plan).map Keyed.key =
          expandCnipaGazetteOrchestrationIssues plan := hissues
      rw [KeysUnique, hkeys]
      exact (pairwise_expandSelection hplan.selection).imp ne_of_lt
    · intro item hitem
      obtain ⟨issue, hissue, rfl⟩ := List.mem_map.mp hitem
      refine ⟨hissue, fun _ => ⟨_, rfl, rfl⟩, ?_, ?_⟩
      · rintro browser ⟨⟩
        simp [checkBrowser, artifactId, hartifact, integer, require, MAX_SAFE_INTEGER, ok_bind]
      · rintro admission ⟨⟩
        simp [checkAdmission, sha256, artifactId, hartifact, isSha256Text_sha256Hex]
  refine (finished_iff digests hplan).mpr ⟨haccepted, ?_⟩
  have hnone : (progressOf digests plan (finishedEvidence plan)).nextIssue = none := by
    rw [nextIssue_progressOf digests haccepted, List.find?_eq_none]
    intro issue hissue
    have hfinalized : Finalized (finishedEvidence plan) issue :=
      ⟨_, List.mem_map_of_mem hissue, rfl, by simp⟩
    simp [hfinalized]
  dsimp only [progressOf] at hnone ⊢
  rw [Option.map_eq_none_iff] at hnone
  rw [hnone]
  rfl

/-! ### The orchestration moves forward -/

/-- The progress of an issue later on: the same issue, its next action no earlier one. -/
def NotBack (before after : CnipaGazetteOrchestrationIssueProgress) : Prop :=
  before.announcementIssue = after.announcementIssue ∧ before.nextAction.rank ≤ after.nextAction.rank

/-- Evidence recorded for an accepted plan names issues of the plan in its order, each once; from then
    on no next action goes back and no finalized item changes, and the next preparation names the first
    issue without a finalized item.  The batches after a plan hold the consecutive issues after it; the
    last of them is followed by another one until the bound is reached. -/
theorem orchestration_moves_forward {input : PlanInput}
    (hparse : parseCnipaGazetteOrchestrationPlan input = .ok plan) :
    (∀ items later,
      let evidence := (recording digests plan).run items
      let evidence' := (recording digests plan).runFrom evidence later
      (evidence.map (·.announcementIssue)).Sublist (expandCnipaGazetteOrchestrationIssues plan) ∧
      (∃ progress progress',
        deriveCnipaGazetteOrchestrationProgress digests plan evidence = .ok progress ∧
        deriveCnipaGazetteOrchestrationProgress digests plan evidence' = .ok progress' ∧
        List.Forall₂ NotBack progress.issues progress'.issues) ∧
      (∀ item ∈ evidence, item.admission ≠ none → item ∈ evidence') ∧
      ∃ preparation,
        buildCnipaGazetteOrchestrationNextPreparation digests plan evidence = .ok preparation ∧
        preparation.next.map (·.announcementIssue) =
          (expandCnipaGazetteOrchestrationIssues plan).find? fun issue =>
            decide ¬Finalized evidence issue) ∧
    ∀ historicalUpperBound upper batches, UpperBound plan historicalUpperBound upper →
      Batches digests historicalUpperBound plan batches →
      batches.length ≤ upper - lastIssue plan ∧
      batches.flatMap expandCnipaGazetteOrchestrationIssues =
        List.range' (lastIssue plan + 1) (lastIssue (batches.getLastD plan) - lastIssue plan) ∧
      (∀ batch ∈ batches, expandCnipaGazetteOrchestrationIssues batch ≠ []) ∧
      (∃ evidence, Finished digests (batches.getLastD plan) evidence) ∧
      ∀ evidence batchSize, Finished digests (batches.getLastD plan) evidence →
        1 ≤ batchSize ∧ batchSize ≤ 100 →
        ∃ proposal, buildCnipaGazetteOrchestrationNextBatchPlan digests (batches.getLastD plan) evidence
            batchSize historicalUpperBound = .ok proposal ∧
          (proposal.nextPlan = none ↔ lastIssue (batches.getLastD plan) = upper) := by
  have hplan := parse_accepted hparse
  constructor
  · intro items later
    obtain ⟨hrecorded, -⟩ := runFrom_recorded digests hplan (recorded_nil plan) items
    obtain ⟨hrecorded', hadvances⟩ := runFrom_recorded digests hplan hrecorded later
    obtain ⟨preparation, hpreparation, -, hnext⟩ := nextPreparation_ok digests hplan hrecorded.accepted
    refine ⟨hrecorded.ordered, ⟨_, _, (derive_eq_ok digests hplan).mpr ⟨hrecorded.accepted, rfl⟩,
      (derive_eq_ok digests hplan).mpr ⟨hrecorded'.accepted, rfl⟩, ?_⟩, hadvances.finalized,
      preparation, hpreparation, hnext⟩
    dsimp only [progressOf]
    rw [List.forall₂_map_left_iff, List.forall₂_map_right_iff, List.forall₂_same]
    intro issue _
    refine ⟨?_, hadvances.rank issue⟩
    rw [issueProgress_announcementIssue, issueProgress_announcementIssue]
  · intro historicalUpperBound upper batches hupper hbatches
    obtain ⟨hfinal, hfinalUpper, hlength, hissues, hne⟩ := batches_cover digests hplan hupper hbatches
    obtain ⟨-, hle⟩ := hfinalUpper.spec hfinal
    refine ⟨by omega, hissues, hne, ⟨_, finished_finishedEvidence digests hfinal⟩, ?_⟩
    intro evidence batchSize hfinished hsize
    obtain ⟨proposal, hproposal, hnext⟩ := nextBatch_ok digests hfinal hfinalUpper hfinished hsize
    refine ⟨proposal, hproposal, ?_⟩
    rw [hnext, proposedPlan]
    constructor
    · intro hnone
      split_ifs at hnone with hreached
      exact le_antisymm hle hreached
    · intro heq
      rw [if_pos heq.ge]

/-- A plan of the issues 73 to 75 of a workspace. -/
def threeIssues : PlanInput where
  version := 1
  operationId := "gazette-historical"
  workspaceId := "wsp_00000000000000000000000000"
  authorityMode := "INTERNAL_SERVICE_GO_V1"
  stage := "MULTI_ISSUE_ORCHESTRATION"
  purpose := "HISTORICAL_BACKFILL"
  issueSelection := .range 73 75
  parentPlanSha256 := none
  observedMaxIssue := none
  announcementTypeSelection := "ALL"
  anncType := ""
  concurrency := 1
  browserTemplate := ⟨24, 3600, "1.0.3", "bundle.zip",
    "0000000000000000000000000000000000000000000000000000000000000000"⟩
  dataEngineMutation := "DISABLED"
  historicalReplayActivated := true

def threeIssuesPlan : CnipaGazetteOrchestrationPlan where
  operationId := "gazette-historical"
  workspaceId := "wsp_00000000000000000000000000"
  purpose := .historicalBackfill
  issueSelection := .range 73 75
  parentPlanSha256 := none
  observedMaxIssue := none
  browserTemplate := ⟨24, 3600, "bundle.zip",
    "0000000000000000000000000000000000000000000000000000000000000000"⟩
  historicalReplayActivated := true

def sampleDigests : OrchestrationDigests := ⟨fun _ => 0, fun _ => 0⟩

/-- The capture of an issue, interrupted after two source pages. -/
def interrupted (issue : Nat) : CnipaGazetteOrchestrationIssueEvidence where
  announcementIssue := issue
  browser := some ⟨"art_00000000000000000000000001", false, 3, 60,
    some ⟨"art_00000000000000000000000001", ["art_00000000000000000000000002"],
      "art_00000000000000000000000003", "art_00000000000000000000000004",
      "art_00000000000000000000000005", none⟩⟩
  admission := none

def captured (issue : Nat) : CnipaGazetteOrchestrationIssueEvidence where
  announcementIssue := issue
  browser := some ⟨"art_00000000000000000000000006", true, 5, 130, none⟩
  admission := none

def finalized (issue : Nat) : CnipaGazetteOrchestrationIssueEvidence :=
  { captured issue with
    admission := some ⟨"0000000000000000000000000000000000000000000000000000000000000000",
      "art_00000000000000000000000007"⟩ }

/-- The issue 74 is interrupted, 73 captured and finalized, and what is recorded for 73 afterwards is
    refused. -/
theorem orchestration_moves_forward_three :
    parseCnipaGazetteOrchestrationPlan threeIssues = .ok threeIssuesPlan ∧
      (∃ preparation, buildCnipaGazetteOrchestrationNextPreparation sampleDigests threeIssuesPlan
          [finalized 73, interrupted 74] = .ok preparation ∧
        preparation.next.map (·.announcementIssue) = some 74) ∧
      finalized 73 ∈ (recording sampleDigests threeIssuesPlan).runFrom
        [finalized 73, interrupted 74] [captured 73, captured 74] ∧
      ∃ evidence proposal, buildCnipaGazetteOrchestrationNextBatchPlan sampleDigests threeIssuesPlan
          evidence 2 (some 80) = .ok proposal ∧ proposal.nextPlan ≠ none := by
  have hparse : parseCnipaGazetteOrchestrationPlan threeIssues = .ok threeIssuesPlan := rfl
  have hrun : (recording sampleDigests threeIssuesPlan).run [interrupted 74, captured 73, finalized 73] =
      [finalized 73, interrupted 74] := by decide +kernel
  obtain ⟨hrecords, hbatches⟩ := orchestration_moves_forward sampleDigests hparse
  obtain ⟨-, -, hkept, preparation, hpreparation, hnext⟩ :=
    hrecords [interrupted 74, captured 73, finalized 73] [captured 73, captured 74]
  rw [hrun] at hkept hpreparation hnext
  refine ⟨hparse, ⟨preparation, hpreparation, hnext⟩, ?_, ?_⟩
  · exact hkept (finalized 73) List.mem_cons_self (by decide)
  · obtain ⟨-, -, -, ⟨evidence, hfinished⟩, hcalls⟩ :=
      hbatches (some 80) 80 [] ⟨rfl, ⟨by decide, by decide⟩, by decide⟩
        (.nil threeIssuesPlan)
    obtain ⟨proposal, hproposal, hnext⟩ := hcalls evidence 2 hfinished (by decide)
    exact ⟨evidence, proposal, hproposal, fun hnone => absurd (hnext.mp hnone) (by decide)⟩

end MarkorbitKnowledge.Orchestration
