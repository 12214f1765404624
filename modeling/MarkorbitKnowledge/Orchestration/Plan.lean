import MarkorbitKnowledge.Contracts.Patterns
import MarkorbitKnowledge.Lib.Fallible
import MarkorbitKnowledge.Staging.Evaluation

/-!
# Plans of the gazette orchestration

The plan of one browser capture (`cnipa-gazette-browser-authority-plan.ts`) and the frozen plan of many
issues (`parseCnipaGazetteOrchestrationPlan`).  An input has the fields of a plan with any values, and
an error is its message; the fields that are the same in every plan are checked and left out of the
parsed plan.
-/

namespace MarkorbitKnowledge.Orchestration

open Contracts Fallible

def OPERATION_ID (s : String) : Bool := isSlug s

def WORKSPACE_ID (s : String) : Bool := isTypedId "wsp" s

def SHA256 (s : String) : Bool := isSha256Text s

def ARTIFACT_ID (s : String) : Bool := isTypedId "art" s

/-! ### The plan of a browser capture -/

structure CnipaGazetteBrowserAuthorityResumeFrom where
  stateArtifactId : String
  logicalProjectionArtifactIds : List String
  firstSourceRawArtifactId : String
  firstSourceProjectionArtifactId : String
  previousSourceProjectionArtifactId : String
  tailSourceProjectionArtifactIds : Option (List String)
deriving DecidableEq

inductive CnipaGazetteBrowserDispatchMode where
  | prepareOnly
  | prepareAndDispatchOnce
deriving DecidableEq

/-- A plan of a browser capture, and what it is built from. -/
structure CnipaGazetteBrowserAuthorityPlan where
  operationId : String
  workspaceId : String
  dispatchMode : CnipaGazetteBrowserDispatchMode
  announcementIssue : Nat
  targetLogicalPagesPerCheckpoint : Nat
  maxRuntimeSeconds : Nat
  captureToolVersion : String
  captureToolBundleName : String
  captureToolBundleSha256 : String
  resumeFrom : Option CnipaGazetteBrowserAuthorityResumeFrom
deriving DecidableEq

namespace Browser

def invalid (message : String) : String := "CNIPA Gazette browser authority plan invalid: " ++ message

def artifactId (value label : String) : Except String String := do
  require (ARTIFACT_ID value = true) (invalid (label ++ " must be a RawArtifact id"))
  return value

/-- A list of 1 to 100 artifact ids without a repetition. -/
def artifactIds (values : List String) (label what : String) : Except String (List String) := do
  require (1 ≤ values.length ∧ values.length ≤ 100)
    (invalid (label ++ " must contain 1..100 RawArtifact ids"))
  let ids ← values.zipIdx.mapM fun entry =>
    artifactId entry.1 (label ++ "[" ++ toString entry.2 ++ "]")
  require ids.Nodup (invalid ("resumeFrom " ++ what ++ " refs must be unique"))
  return ids

def parseResumeFrom (raw : CnipaGazetteBrowserAuthorityResumeFrom) :
    Except String CnipaGazetteBrowserAuthorityResumeFrom := do
  let logicalProjectionArtifactIds ← artifactIds raw.logicalProjectionArtifactIds
    "resumeFrom.logicalProjectionArtifactIds" "logical projection"
  let tailSourceProjectionArtifactIds ← raw.tailSourceProjectionArtifactIds.mapM fun values =>
    artifactIds values "resumeFrom.tailSourceProjectionArtifactIds" "tail source projection"
  let stateArtifactId ← artifactId raw.stateArtifactId "resumeFrom.stateArtifactId"
  let firstSourceRawArtifactId ←
    artifactId raw.firstSourceRawArtifactId "resumeFrom.firstSourceRawArtifactId"
  let firstSourceProjectionArtifactId ←
    artifactId raw.firstSourceProjectionArtifactId "resumeFrom.firstSourceProjectionArtifactId"
  let previousSourceProjectionArtifactId ←
    artifactId raw.previousSourceProjectionArtifactId "resumeFrom.previousSourceProjectionArtifactId"
  return ⟨stateArtifactId, logicalProjectionArtifactIds, firstSourceRawArtifactId,
    firstSourceProjectionArtifactId, previousSourceProjectionArtifactId,
    tailSourceProjectionArtifactIds⟩

def positiveInteger (value : Nat) (label : String) (maximum : Nat) : Except String Nat := do
  require (1 ≤ value ∧ value ≤ maximum)
    (invalid (label ++ " must be a positive integer <= " ++ toString maximum))
  return value

/-- `cnipaGazetteBrowserAuthorityPlan`: the plan of the input, through the parser. -/
def cnipaGazetteBrowserAuthorityPlan (input : CnipaGazetteBrowserAuthorityPlan) :
    Except String CnipaGazetteBrowserAuthorityPlan := do
  require (OPERATION_ID input.operationId = true) (invalid "operationId must be a lowercase slug")
  require (WORKSPACE_ID input.workspaceId = true) (invalid "workspaceId must be Schema v1")
  let announcementIssue ← positiveInteger input.announcementIssue "announcementIssue" 999999
  let targetLogicalPagesPerCheckpoint ← positiveInteger input.targetLogicalPagesPerCheckpoint
    "targetLogicalPagesPerCheckpoint" 100
  let maxRuntimeSeconds ← positiveInteger input.maxRuntimeSeconds "maxRuntimeSeconds" 86400
  require (60 ≤ maxRuntimeSeconds) (invalid "maxRuntimeSeconds must be >= 60")
  require (input.captureToolVersion ∈ ["1.0.0", "1.0.1", "1.0.2", "1.0.3"])
    (invalid "frozen browser-stream scope mismatch")
  require (trim input.captureToolBundleName ≠ "" ∧ jsLength input.captureToolBundleName ≤ 255)
    (invalid "captureToolBundleName is invalid")
  require (SHA256 input.captureToolBundleSha256 = true) (invalid "captureToolBundleSha256 is invalid")
  let resumeFrom ← input.resumeFrom.mapM parseResumeFrom
  return { input with
    announcementIssue := announcementIssue
    targetLogicalPagesPerCheckpoint := targetLogicalPagesPerCheckpoint
    maxRuntimeSeconds := maxRuntimeSeconds
    captureToolBundleName := trim input.captureToolBundleName
    resumeFrom := resumeFrom }

end Browser

/-! ### The plan of many issues -/

def CNIPA_GAZETTE_ORCHESTRATION_MAX_ISSUES : Nat := 100
def CNIPA_GAZETTE_ORCHESTRATION_MIN_ISSUE : Nat := 73

inductive CnipaGazetteOrchestrationPurpose where
  | historicalBackfill
  | incrementalCatchup
deriving DecidableEq

def CnipaGazetteOrchestrationPurpose.text : CnipaGazetteOrchestrationPurpose → String
  | .historicalBackfill => "HISTORICAL_BACKFILL"
  | .incrementalCatchup => "INCREMENTAL_CATCHUP"

inductive CnipaGazetteOrchestrationIssueSelection where
  | range (startIssue endIssue : Nat)
  | explicit (issues : List Nat)
deriving DecidableEq

structure CnipaGazetteOrchestrationBrowserTemplate where
  targetLogicalPagesPerCheckpoint : Nat
  maxRuntimeSeconds : Nat
  captureToolBundleName : String
  captureToolBundleSha256 : String
deriving DecidableEq

structure CnipaGazetteOrchestrationPlan where
  operationId : String
  workspaceId : String
  purpose : CnipaGazetteOrchestrationPurpose
  issueSelection : CnipaGazetteOrchestrationIssueSelection
  parentPlanSha256 : Option String
  observedMaxIssue : Option Nat
  browserTemplate : CnipaGazetteOrchestrationBrowserTemplate
  historicalReplayActivated : Bool
deriving DecidableEq

/-- `issueSelection` of an input, by its mode. -/
inductive IssueSelectionInput where
  | range (startIssue endIssue : Int)
  | explicit (issues : List Int)
  | unknown (mode : String)
deriving DecidableEq

structure BrowserTemplateInput where
  targetLogicalPagesPerCheckpoint : Int
  maxRuntimeSeconds : Int
  captureToolVersion : String
  captureToolBundleName : String
  captureToolBundleSha256 : String
deriving DecidableEq

structure PlanInput where
  version : Int
  operationId : String
  workspaceId : String
  authorityMode : String
  stage : String
  purpose : String
  issueSelection : IssueSelectionInput
  parentPlanSha256 : Option String
  observedMaxIssue : Option Int
  announcementTypeSelection : String
  anncType : String
  concurrency : Int
  browserTemplate : BrowserTemplateInput
  dataEngineMutation : String
  historicalReplayActivated : Bool
deriving DecidableEq

def invalidPlan (message : String) : String := "CNIPA Gazette orchestration plan invalid: " ++ message

def integer (value : Int) (label : String) (minimum maximum : Nat) : Except String Nat := do
  require ((minimum : Int) ≤ value ∧ value ≤ maximum)
    (invalidPlan (label ++ " must be an integer in " ++ toString minimum ++ ".." ++ toString maximum))
  return value.toNat

def parseIssueSelection : IssueSelectionInput →
    Except String CnipaGazetteOrchestrationIssueSelection
  | .range start «end» => do
    let startIssue ← integer start "issueSelection.startIssue" CNIPA_GAZETTE_ORCHESTRATION_MIN_ISSUE
      999999
    let endIssue ← integer «end» "issueSelection.endIssue" CNIPA_GAZETTE_ORCHESTRATION_MIN_ISSUE 999999
    require (startIssue ≤ endIssue) (invalidPlan "issueSelection endIssue precedes startIssue")
    require (endIssue - startIssue + 1 ≤ CNIPA_GAZETTE_ORCHESTRATION_MAX_ISSUES)
      (invalidPlan "a frozen plan may contain at most 100 issues")
    return .range startIssue endIssue
  | .explicit values => do
    require (1 ≤ values.length ∧ values.length ≤ CNIPA_GAZETTE_ORCHESTRATION_MAX_ISSUES)
      (invalidPlan "issueSelection.issues must contain 1..100 issues")
    let issues ← values.zipIdx.mapM fun entry =>
      integer entry.1 ("issueSelection.issues[" ++ toString entry.2 ++ "]")
        CNIPA_GAZETTE_ORCHESTRATION_MIN_ISSUE 999999
    require (issues.IsChain (· < ·))
      (invalidPlan "explicit issues must be unique and strictly ascending")
    return .explicit issues
  | .unknown _ => throw (invalidPlan "issueSelection.mode must be RANGE or EXPLICIT")

def parseBrowserTemplate (template : BrowserTemplateInput) :
    Except String CnipaGazetteOrchestrationBrowserTemplate := do
  let maxRuntimeSeconds ←
    integer template.maxRuntimeSeconds "browserTemplate.maxRuntimeSeconds" 60 3600
  require (template.captureToolVersion = "1.0.3" ∧ trim template.captureToolBundleName ≠ "" ∧
      jsLength template.captureToolBundleName ≤ 255 ∧
      SHA256 template.captureToolBundleSha256 = true)
    (invalidPlan "frozen browser template mismatch")
  let targetLogicalPagesPerCheckpoint ← integer template.targetLogicalPagesPerCheckpoint
    "browserTemplate.targetLogicalPagesPerCheckpoint" 1 100
  return ⟨targetLogicalPagesPerCheckpoint, maxRuntimeSeconds, trim template.captureToolBundleName,
    template.captureToolBundleSha256⟩

def expandSelection : CnipaGazetteOrchestrationIssueSelection → List Nat
  | .explicit issues => issues
  | .range startIssue endIssue => List.range' startIssue (endIssue - startIssue + 1)

def expandCnipaGazetteOrchestrationIssues (plan : CnipaGazetteOrchestrationPlan) : List Nat :=
  expandSelection plan.issueSelection

def parsePurpose (purpose : String) : Option CnipaGazetteOrchestrationPurpose :=
  if purpose = "HISTORICAL_BACKFILL" then some .historicalBackfill
  else if purpose = "INCREMENTAL_CATCHUP" then some .incrementalCatchup
  else none

/-- The checks of `observedMaxIssue` and of the replay that go with the purpose. -/
def parseObservedMaxIssue (purpose : CnipaGazetteOrchestrationPurpose) (issues : List Nat)
    (observedMaxIssue : Option Int) (historicalReplayActivated : Bool) :
    Except String (Option Nat) :=
  match purpose with
  | .historicalBackfill => do
    require (historicalReplayActivated = true ∧ observedMaxIssue = none)
      (invalidPlan ("historical backfill requires explicit historical replay and no dynamic " ++
        "max issue"))
    return none
  | .incrementalCatchup => do
    require (historicalReplayActivated = false)
      (invalidPlan "incremental catch-up must not activate historical replay")
    let value ← orThrow observedMaxIssue
      (invalidPlan "observedMaxIssue must be an integer in 73..999999")
    let maximum ← integer value "observedMaxIssue" CNIPA_GAZETTE_ORCHESTRATION_MIN_ISSUE 999999
    require (∀ issue ∈ issues, issue ≤ maximum)
      (invalidPlan "frozen incremental issues exceed observedMaxIssue")
    return some maximum

def parseCnipaGazetteOrchestrationPlan (input : PlanInput) :
    Except String CnipaGazetteOrchestrationPlan := do
  require (input.version = 1) (invalidPlan "version must be 1")
  require (OPERATION_ID input.operationId = true) (invalidPlan "operationId must be a lowercase slug")
  require (WORKSPACE_ID input.workspaceId = true) (invalidPlan "workspaceId must be Schema v1")
  require (input.authorityMode = "INTERNAL_SERVICE_GO_V1" ∧ input.stage = "MULTI_ISSUE_ORCHESTRATION" ∧
      input.announcementTypeSelection = "ALL" ∧ input.anncType = "" ∧ input.concurrency = 1 ∧
      input.dataEngineMutation = "DISABLED")
    (invalidPlan "frozen orchestration scope mismatch")
  let purpose ← orThrow (parsePurpose input.purpose)
    (invalidPlan "frozen orchestration scope mismatch")
  let issueSelection ← parseIssueSelection input.issueSelection
  let browserTemplate ← parseBrowserTemplate input.browserTemplate
  require (∀ digest ∈ input.parentPlanSha256, SHA256 digest = true)
    (invalidPlan "parentPlanSha256 must be lowercase SHA-256")
  let observedMaxIssue ← parseObservedMaxIssue purpose (expandSelection issueSelection)
    input.observedMaxIssue input.historicalReplayActivated
  return {
    operationId := input.operationId
    workspaceId := input.workspaceId
    purpose := purpose
    issueSelection := issueSelection
    parentPlanSha256 := input.parentPlanSha256
    observedMaxIssue := observedMaxIssue
    browserTemplate := browserTemplate
    historicalReplayActivated := input.historicalReplayActivated }

/-! ### A plan as an input again

Every function parses the plan it is given. -/

def selectionInput : CnipaGazetteOrchestrationIssueSelection → IssueSelectionInput
  | .range startIssue endIssue => .range startIssue endIssue
  | .explicit issues => .explicit (issues.map Int.ofNat)

def templateInput (template : CnipaGazetteOrchestrationBrowserTemplate) : BrowserTemplateInput :=
  ⟨template.targetLogicalPagesPerCheckpoint, template.maxRuntimeSeconds, "1.0.3",
    template.captureToolBundleName, template.captureToolBundleSha256⟩

def CnipaGazetteOrchestrationPlan.toInput (plan : CnipaGazetteOrchestrationPlan) : PlanInput where
  version := 1
  operationId := plan.operationId
  workspaceId := plan.workspaceId
  authorityMode := "INTERNAL_SERVICE_GO_V1"
  stage := "MULTI_ISSUE_ORCHESTRATION"
  purpose := plan.purpose.text
  issueSelection := selectionInput plan.issueSelection
  parentPlanSha256 := plan.parentPlanSha256
  observedMaxIssue := plan.observedMaxIssue.map Int.ofNat
  announcementTypeSelection := "ALL"
  anncType := ""
  concurrency := 1
  browserTemplate := templateInput plan.browserTemplate
  dataEngineMutation := "DISABLED"
  historicalReplayActivated := plan.historicalReplayActivated

end MarkorbitKnowledge.Orchestration
