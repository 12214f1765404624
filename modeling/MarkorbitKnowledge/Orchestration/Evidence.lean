import MarkorbitKnowledge.Lib.Tables
import MarkorbitKnowledge.Lib.Window
import MarkorbitKnowledge.Orchestration.Plan

/-!
# Evidence of the gazette orchestration

`deriveCnipaGazetteOrchestrationProgress`, `buildCnipaGazetteOrchestrationNextPreparation`,
`recordCnipaGazetteOrchestrationIssueEvidence` and `buildCnipaGazetteOrchestrationNextBatchPlan`.
An evidence item names its issue by a natural number: any other number is outside every plan.  Items
are compared by their canonical JSON, which is the same for equal items only.
-/

namespace MarkorbitKnowledge.Orchestration

open Contracts Fallible Tables

structure CnipaGazetteOrchestrationBrowserEvidence where
  stateArtifactId : String
  completed : Bool
  nextSourcePageIndex : Int
  rowsSeen : Int
  resumeFrom : Option CnipaGazetteBrowserAuthorityResumeFrom
deriving DecidableEq

structure CnipaGazetteOrchestrationAdmission where
  sourceDatasetSha256 : String
  finalizeReceiptArtifactId : String
deriving DecidableEq

structure CnipaGazetteOrchestrationIssueEvidence where
  announcementIssue : Nat
  browser : Option CnipaGazetteOrchestrationBrowserEvidence
  admission : Option CnipaGazetteOrchestrationAdmission
deriving DecidableEq

instance : Keyed CnipaGazetteOrchestrationIssueEvidence Nat := ⟨(·.announcementIssue)⟩

@[simp] theorem key_issueEvidence (item : CnipaGazetteOrchestrationIssueEvidence) :
    Keyed.key item = item.announcementIssue := rfl

inductive CnipaGazetteOrchestrationIssueStatus where
  | completed
  | resume
  | pending
deriving DecidableEq

inductive CnipaGazetteOrchestrationNextAction where
  | none
  | resumeCapture
  | buildAdmission
  | startCapture
deriving DecidableEq

structure CnipaGazetteOrchestrationIssueProgress where
  announcementIssue : Nat
  status : CnipaGazetteOrchestrationIssueStatus
  nextAction : CnipaGazetteOrchestrationNextAction
  stateArtifactId : Option String
  sourceDatasetSha256 : Option String
  finalizeReceiptArtifactId : Option String
deriving DecidableEq

structure CnipaGazetteOrchestrationCounts where
  total : Nat
  completed : Nat
  resume : Nat
  pending : Nat
deriving DecidableEq

structure CnipaGazetteOrchestrationProgress where
  operationId : String
  planSha256 : String
  workspaceId : String
  issues : List CnipaGazetteOrchestrationIssueProgress
  counts : CnipaGazetteOrchestrationCounts
  nextIssue : Option Nat
  completed : Bool
deriving DecidableEq

/-- The digests: of the canonical JSON of a plan, and of a text. -/
structure OrchestrationDigests where
  plan : CnipaGazetteOrchestrationPlan → Digest
  text : String → Digest

def sha256Hex (digest : Digest) : String := String.ofList (Staging.digestText digest)

/-- `slice(0, 12)` of a digest. -/
def shortDigest (digest : Digest) : String := String.ofList ((Staging.digestText digest).take 12)

variable (digests : OrchestrationDigests)

def cnipaGazetteOrchestrationPlanSha256 (plan : CnipaGazetteOrchestrationPlan) : String :=
  sha256Hex (digests.plan plan)

def expectedCnipaGazetteOrchestrationAuthorityToken (plan : CnipaGazetteOrchestrationPlan)
    (planSha256 : String) : Except String String := do
  require (SHA256 planSha256 = true) "planSha256 must be lowercase SHA-256"
  return "GO #898 CNIPA-GAZETTE-ORCHESTRATION " ++ plan.operationId ++ " MULTI_ISSUE_ORCHESTRATION " ++
    planSha256

/-! ### Progress -/

def invalidEvidence (message : String) : String :=
  "CNIPA Gazette orchestration evidence invalid: " ++ message

def artifactId (value label : String) : Except String Unit :=
  require (ARTIFACT_ID value = true) (invalidEvidence (label ++ " must be a RawArtifact id"))

def sha256 (value label : String) : Except String Unit :=
  require (SHA256 value = true) (invalidEvidence (label ++ " must be lowercase SHA-256"))

/-- What a browser capture of an issue of the plan is built from. -/
def browserPlanInput (plan : CnipaGazetteOrchestrationPlan) (operationId : String) (issue : Nat)
    (resumeFrom : Option CnipaGazetteBrowserAuthorityResumeFrom) : CnipaGazetteBrowserAuthorityPlan where
  operationId := operationId
  workspaceId := plan.workspaceId
  dispatchMode := .prepareOnly
  announcementIssue := issue
  targetLogicalPagesPerCheckpoint := plan.browserTemplate.targetLogicalPagesPerCheckpoint
  maxRuntimeSeconds := plan.browserTemplate.maxRuntimeSeconds
  captureToolVersion := "1.0.3"
  captureToolBundleName := plan.browserTemplate.captureToolBundleName
  captureToolBundleSha256 := plan.browserTemplate.captureToolBundleSha256
  resumeFrom := resumeFrom

/-- The checks of partial progress: it can be resumed. -/
def checkPartial (plan : CnipaGazetteOrchestrationPlan) (issue : Nat)
    (browser : CnipaGazetteOrchestrationBrowserEvidence) : Except String Unit := do
  let resumeFrom ← orThrow browser.resumeFrom
    (invalidEvidence "partial browser progress requires frozen resumeFrom refs")
  require (resumeFrom.stateArtifactId = browser.stateArtifactId)
    (invalidEvidence "resumeFrom state artifact mismatch")
  let _ ← Browser.cnipaGazetteBrowserAuthorityPlan
    (browserPlanInput plan ("evidence-" ++ toString issue ++ "-resume") issue (some resumeFrom))
  return ()

def MAX_SAFE_INTEGER : Nat := 9007199254740991

def checkBrowser (plan : CnipaGazetteOrchestrationPlan) (issue : Nat)
    (browser : CnipaGazetteOrchestrationBrowserEvidence) : Except String Unit := do
  artifactId browser.stateArtifactId "browser.stateArtifactId"
  let nextSourcePageIndex ←
    integer browser.nextSourcePageIndex "browser.nextSourcePageIndex" 1 100000
  let rowsSeen ← integer browser.rowsSeen "browser.rowsSeen" 0 MAX_SAFE_INTEGER
  require (¬(browser.completed = false ∧ rowsSeen = 0 ∧ nextSourcePageIndex ≠ 1))
    (invalidEvidence "zero-row browser progress must remain at source page 1")
  if browser.completed = false ∧ 0 < rowsSeen then checkPartial plan issue browser else return ()

def checkAdmission (admission : CnipaGazetteOrchestrationAdmission) : Except String Unit := do
  sha256 admission.sourceDatasetSha256 "admission.sourceDatasetSha256"
  artifactId admission.finalizeReceiptArtifactId "admission.finalizeReceiptArtifactId"

/-- One evidence item is checked and added to those before it. -/
def addEvidence (plan : CnipaGazetteOrchestrationPlan) (authorizedIssues : List Nat)
    (evidenceByIssue : List CnipaGazetteOrchestrationIssueEvidence)
    (item : CnipaGazetteOrchestrationIssueEvidence) :
    Except String (List CnipaGazetteOrchestrationIssueEvidence) := do
  require (item.announcementIssue ∈ authorizedIssues)
    (invalidEvidence "evidence issue is outside frozen authority")
  require (find? evidenceByIssue item.announcementIssue = none)
    (invalidEvidence "duplicate evidence for announcement issue")
  require (item.admission ≠ none → ∃ browser ∈ item.browser, browser.completed = true)
    (invalidEvidence "finalized admission requires completed browser evidence")
  let _ ← item.browser.mapM (checkBrowser plan item.announcementIssue)
  let _ ← item.admission.mapM checkAdmission
  return evidenceByIssue ++ [item]

/-- The progress of one issue, from its evidence. -/
def issueProgress (announcementIssue : Nat) (item : Option CnipaGazetteOrchestrationIssueEvidence) :
    CnipaGazetteOrchestrationIssueProgress :=
  match item.bind (·.browser), item.bind (·.admission) with
  | some browser, some admission =>
    ⟨announcementIssue, .completed, .none, some browser.stateArtifactId,
      some admission.sourceDatasetSha256, some admission.finalizeReceiptArtifactId⟩
  | some browser, none =>
    if browser.completed then
      ⟨announcementIssue, .resume, .buildAdmission, some browser.stateArtifactId, none, none⟩
    else if 0 < browser.rowsSeen then
      ⟨announcementIssue, .resume, .resumeCapture, some browser.stateArtifactId, none, none⟩
    else ⟨announcementIssue, .pending, .startCapture, none, none, none⟩
  | none, _ => ⟨announcementIssue, .pending, .startCapture, none, none, none⟩

def countStatus (issues : List CnipaGazetteOrchestrationIssueProgress)
    (status : CnipaGazetteOrchestrationIssueStatus) : Nat :=
  issues.countP fun issue => decide (issue.status = status)

def progressOf (plan : CnipaGazetteOrchestrationPlan)
    (evidence : List CnipaGazetteOrchestrationIssueEvidence) : CnipaGazetteOrchestrationProgress :=
  let issues := (expandCnipaGazetteOrchestrationIssues plan).map fun issue =>
    issueProgress issue (find? evidence issue)
  let next := issues.find? fun issue => decide (issue.status ≠ .completed)
  { operationId := plan.operationId
    planSha256 := cnipaGazetteOrchestrationPlanSha256 digests plan
    workspaceId := plan.workspaceId
    issues := issues
    counts := ⟨issues.length, countStatus issues .completed, countStatus issues .resume,
      countStatus issues .pending⟩
    nextIssue := next.map (·.announcementIssue)
    completed := next.isNone }

def deriveCnipaGazetteOrchestrationProgress (input : CnipaGazetteOrchestrationPlan)
    (evidence : List CnipaGazetteOrchestrationIssueEvidence) :
    Except String CnipaGazetteOrchestrationProgress := do
  let plan ← parseCnipaGazetteOrchestrationPlan input.toInput
  let evidenceByIssue ←
    evidence.foldlM (addEvidence plan (expandCnipaGazetteOrchestrationIssues plan)) []
  return progressOf digests plan evidenceByIssue

/-! ### The next preparation -/

structure CnipaGazetteOrchestrationNext where
  announcementIssue : Nat
  status : CnipaGazetteOrchestrationIssueStatus
  nextAction : CnipaGazetteOrchestrationNextAction
  browserPlan : Option CnipaGazetteBrowserAuthorityPlan
deriving DecidableEq

structure CnipaGazetteOrchestrationNextPreparation where
  progress : CnipaGazetteOrchestrationProgress
  next : Option CnipaGazetteOrchestrationNext
deriving DecidableEq

def invalidPreparation (message : String) : String :=
  "CNIPA Gazette orchestration preparation invalid: " ++ message

def browserOperationId (plan : CnipaGazetteOrchestrationPlan) (issue : Nat)
    (stateArtifactId : Option String) : CnipaGazetteOrchestrationNextAction → Except String String
  | .startCapture => return plan.operationId ++ "-issue-" ++ toString issue ++ "-start"
  | .resumeCapture => do
    let stateArtifactId ← orThrow (stateArtifactId.filter (· ≠ ""))
      (invalidPreparation "resume capture requires state artifact")
    return plan.operationId ++ "-issue-" ++ toString issue ++ "-resume-" ++
      shortDigest (digests.text stateArtifactId)
  | _ => throw (invalidPreparation "browser plan requested for non-browser action")

/-- The resume references of a capture that goes on, none for one that starts. -/
def resumeFromOf (evidence : List CnipaGazetteOrchestrationIssueEvidence)
    (next : CnipaGazetteOrchestrationIssueProgress) :
    Except String (Option CnipaGazetteBrowserAuthorityResumeFrom) :=
  if next.nextAction = .resumeCapture then
    some <$> orThrow
      (((find? evidence next.announcementIssue).bind (·.browser)).bind (·.resumeFrom))
      (invalidPreparation "resume capture requires frozen resumeFrom refs")
  else return none

/-- The browser plan of the next issue, none where its admission is to be built. -/
def nextBrowserPlan (plan : CnipaGazetteOrchestrationPlan)
    (evidence : List CnipaGazetteOrchestrationIssueEvidence)
    (next : CnipaGazetteOrchestrationIssueProgress) :
    Except String (Option CnipaGazetteBrowserAuthorityPlan) :=
  if next.nextAction = .buildAdmission then return none
  else do
    require (next.nextAction = .startCapture ∨ next.nextAction = .resumeCapture)
      (invalidPreparation "unsupported next browser action")
    let resumeFrom ← resumeFromOf evidence next
    let operationId ←
      browserOperationId digests plan next.announcementIssue next.stateArtifactId next.nextAction
    some <$> Browser.cnipaGazetteBrowserAuthorityPlan
      (browserPlanInput plan operationId next.announcementIssue resumeFrom)

/-- The next issue to prepare, with its browser plan. -/
def prepareNext (plan : CnipaGazetteOrchestrationPlan)
    (evidence : List CnipaGazetteOrchestrationIssueEvidence)
    (progress : CnipaGazetteOrchestrationProgress) (nextIssue : Nat) :
    Except String CnipaGazetteOrchestrationNext := do
  let next ← orThrow (progress.issues.find? fun issue => decide (issue.announcementIssue = nextIssue))
    (invalidPreparation "next issue progress is missing")
  let browserPlan ← nextBrowserPlan digests plan evidence next
  return ⟨next.announcementIssue, next.status, next.nextAction, browserPlan⟩

def buildCnipaGazetteOrchestrationNextPreparation (input : CnipaGazetteOrchestrationPlan)
    (evidence : List CnipaGazetteOrchestrationIssueEvidence) :
    Except String CnipaGazetteOrchestrationNextPreparation := do
  let plan ← parseCnipaGazetteOrchestrationPlan input.toInput
  let progress ← deriveCnipaGazetteOrchestrationProgress digests plan evidence
  let next ← progress.nextIssue.mapM (prepareNext digests plan evidence progress)
  return ⟨progress, next⟩

/-! ### Recording evidence -/

/-- The change of the browser evidence of an issue. -/
def assertMonotonicBrowser (previous : CnipaGazetteOrchestrationBrowserEvidence)
    (next : Option CnipaGazetteOrchestrationBrowserEvidence) : Except String Unit := do
  let next ← orThrow next (invalidEvidence "browser evidence cannot be removed")
  require (previous.completed = true → next.completed = true)
    (invalidEvidence "completed browser evidence cannot regress")
  require (previous.rowsSeen ≤ next.rowsSeen ∧ previous.nextSourcePageIndex ≤ next.nextSourcePageIndex)
    (invalidEvidence "browser progress cannot move backwards")
  require ((previous.rowsSeen < next.rowsSeen ∨
      previous.nextSourcePageIndex < next.nextSourcePageIndex ∨
      (previous.completed = false ∧ next.completed = true)) ∨ previous = next)
    (invalidEvidence "browser evidence changed without durable progress")

def assertMonotonicIssueEvidence (previous next : CnipaGazetteOrchestrationIssueEvidence) :
    Except String Unit :=
  if previous = next then return ()
  else do
    require (previous.admission = none) (invalidEvidence "finalized issue evidence is immutable")
    let _ ← previous.browser.mapM fun browser => assertMonotonicBrowser browser next.browser
    return ()

/-- `existing` with the update in place of the item of its issue, or at the end. -/
def mergeEvidence (existing : List CnipaGazetteOrchestrationIssueEvidence)
    (item : CnipaGazetteOrchestrationIssueEvidence) :
    Except String (List CnipaGazetteOrchestrationIssueEvidence) :=
  match find? existing item.announcementIssue with
  | some previous => do
    assertMonotonicIssueEvidence previous item
    return update existing item
  | none => return existing ++ [item]

/-- The items in the order of the plan's issues. -/
def sortEvidence (authorizedIssues : List Nat)
    (evidence : List CnipaGazetteOrchestrationIssueEvidence) :
    List CnipaGazetteOrchestrationIssueEvidence :=
  Window.ordered (fun item => authorizedIssues.idxOf item.announcementIssue) evidence

def recordCnipaGazetteOrchestrationIssueEvidence (input : CnipaGazetteOrchestrationPlan)
    (existing : List CnipaGazetteOrchestrationIssueEvidence)
    (item : CnipaGazetteOrchestrationIssueEvidence) :
    Except String (List CnipaGazetteOrchestrationIssueEvidence) := do
  let plan ← parseCnipaGazetteOrchestrationPlan input.toInput
  let _ ← deriveCnipaGazetteOrchestrationProgress digests plan existing
  let _ ← deriveCnipaGazetteOrchestrationProgress digests plan [item]
  let merged ← mergeEvidence existing item
  let sorted := sortEvidence (expandCnipaGazetteOrchestrationIssues plan) merged
  let _ ← deriveCnipaGazetteOrchestrationProgress digests plan sorted
  return sorted

/-! ### The next batch -/

structure CnipaGazetteOrchestrationNextBatchProposal where
  parentPlanSha256 : String
  nextPlan : Option CnipaGazetteOrchestrationPlan
  nextPlanSha256 : Option String
  expectedAuthorityToken : Option String
deriving DecidableEq

def invalidBatch (message : String) : String :=
  "CNIPA Gazette orchestration next batch invalid: " ++ message

/-- The last issue a batch may have. -/
def batchUpperBound (plan : CnipaGazetteOrchestrationPlan) (lastIssue : Nat)
    (historicalUpperBound : Option Int) : Except String Nat :=
  match plan.purpose with
  | .historicalBackfill => do
    let value ← orThrow historicalUpperBound
      (invalidPlan "historicalUpperBound must be an integer in 73..999999")
    let upperBound ← integer value "historicalUpperBound" CNIPA_GAZETTE_ORCHESTRATION_MIN_ISSUE 999999
    require (lastIssue ≤ upperBound) (invalidBatch "historicalUpperBound precedes current batch")
    return upperBound
  | .incrementalCatchup => do
    require (historicalUpperBound = none)
      (invalidBatch "incremental catch-up cannot override frozen observedMaxIssue")
    return plan.observedMaxIssue.getD 0

def purposeSlug : CnipaGazetteOrchestrationPurpose → String
  | .historicalBackfill => "historical"
  | .incrementalCatchup => "incremental"

/-- The input of the plan of the batch from `startIssue` to `endIssue`. -/
def nextBatchInput (plan : CnipaGazetteOrchestrationPlan) (startIssue endIssue : Nat) : PlanInput :=
  { plan.toInput with
    operationId := "gazette-" ++ purposeSlug plan.purpose ++ "-" ++ toString startIssue ++ "-" ++
      toString endIssue ++ "-" ++ shortDigest (digests.plan plan)
    issueSelection := .range startIssue endIssue
    parentPlanSha256 := some (cnipaGazetteOrchestrationPlanSha256 digests plan)
    observedMaxIssue :=
      match plan.purpose with
      | .historicalBackfill => none
      | .incrementalCatchup => plan.observedMaxIssue.map Int.ofNat }

def buildCnipaGazetteOrchestrationNextBatchPlan (input : CnipaGazetteOrchestrationPlan)
    (evidence : List CnipaGazetteOrchestrationIssueEvidence) (batchSize : Int)
    (historicalUpperBound : Option Int) :
    Except String CnipaGazetteOrchestrationNextBatchProposal := do
  let plan ← parseCnipaGazetteOrchestrationPlan input.toInput
  let progress ← deriveCnipaGazetteOrchestrationProgress digests plan evidence
  require (progress.completed = true) (invalidBatch "current batch must be fully finalized")
  let batchSize ← integer batchSize "batchSize" 1 CNIPA_GAZETTE_ORCHESTRATION_MAX_ISSUES
  let parentPlanSha256 := cnipaGazetteOrchestrationPlanSha256 digests plan
  let lastIssue := (expandCnipaGazetteOrchestrationIssues plan).getLastD 0
  let upperBound ← batchUpperBound plan lastIssue historicalUpperBound
  if upperBound ≤ lastIssue then return ⟨parentPlanSha256, none, none, none⟩
  else do
    let startIssue := lastIssue + 1
    let endIssue := min upperBound (startIssue + batchSize - 1)
    let nextPlan ← parseCnipaGazetteOrchestrationPlan (nextBatchInput digests plan startIssue endIssue)
    let nextPlanSha256 := cnipaGazetteOrchestrationPlanSha256 digests nextPlan
    let expectedAuthorityToken ←
      expectedCnipaGazetteOrchestrationAuthorityToken nextPlan nextPlanSha256
    return ⟨parentPlanSha256, some nextPlan, some nextPlanSha256, some expectedAuthorityToken⟩

end MarkorbitKnowledge.Orchestration
