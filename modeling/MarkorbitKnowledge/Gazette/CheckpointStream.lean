import MarkorbitKnowledge.Gazette.Checkpoint

/-!
# The checkpoint stream

`cnipa-gazette-browser-checkpoint-stream.ts`: accepting a source page, cut at the writes of its
artifacts.  What a cut reads of the stream it reads when it starts; the stream itself is changed by the
last one only, `commitPage`.
-/

namespace MarkorbitKnowledge.Gazette

open Contracts Fallible

/-- What a stream is created with. -/
structure StreamConfig where
  session : CnipaGazetteBrowserStreamSession
  ranges : List CnipaGazetteBrowserCheckpointRangePlan
  effectiveLogicalPagesPerCheckpoint : Nat

/-- What a stream keeps between pages. -/
structure StreamMemory where
  state : CnipaGazetteBrowserStreamState
  checkpointIndex : Nat
  logicalPages : List CnipaGazetteBrowserLogicalPage
  firstSourcePageEvidence : Option CnipaGazetteBrowserSourcePageEvidence
  datasetIdentity : Option CnipaGazetteDatasetIdentityEnvelope

/-- The constructor, without a resume. -/
def createStream (env : Env) (session : CnipaGazetteBrowserStreamSession)
    (targetLogicalPagesPerCheckpoint : Option Nat) : Except String (StreamConfig × StreamMemory) := do
  let effective ← cnipaGazetteBrowserEffectiveCheckpointPages session.sourcePageSize
    targetLogicalPagesPerCheckpoint
  let ranges ← planCnipaGazetteBrowserCheckpointRanges session.sourceTotal session.sourcePageSize
    (some effective)
  pure
    ({ session, ranges, effectiveLogicalPagesPerCheckpoint := effective },
      { state := createCnipaGazetteBrowserStreamState env.hashes session, checkpointIndex := 0
        logicalPages := [], firstSourcePageEvidence := none, datasetIdentity := none })

/-- A page that was received and is not accepted yet. -/
structure ReceivedPage where
  range : CnipaGazetteBrowserCheckpointRangePlan
  evidence : CnipaGazetteBrowserSourcePageEvidence

/-- A page that was accepted, with the state and the logical pages it gives. -/
structure AcceptedPage where
  received : ReceivedPage
  state : CnipaGazetteBrowserStreamState
  logicalPages : List CnipaGazetteBrowserLogicalPage
  stateArtifact : AcquiredCollectionArtifact
  logicalArtifacts : List AcquiredCollectionArtifact

structure CheckpointCommit where
  rangePlan : CnipaGazetteBrowserCheckpointRangePlan
  checkpoint : CnipaGazetteCheckpoint
  package : CnipaGazetteDataEngineChunkPackage
  artifacts : List AcquiredCollectionArtifact

/-- A page before the stream changes, with what it will be changed to. -/
structure ClosedPage where
  accepted : AcceptedPage
  nextLogicalPages : List CnipaGazetteBrowserLogicalPage
  firstSourcePageEvidence : Option CnipaGazetteBrowserSourcePageEvidence
  datasetIdentity : Option CnipaGazetteDatasetIdentityEnvelope
  checkpoint : Option CheckpointCommit

section Steps

variable (env : Env) (config : StreamConfig)

/-- Before the raw body is written. -/
def receivePage (memory : StreamMemory) (input : SourcePageInput) : Except String ReceivedPage := do
  require (isSafeInteger input.requestedPageIndex = true ∧
      input.requestedPageIndex = memory.state.nextSourcePageIndex)
    ("source page sequence mismatch: expected " ++ toString memory.state.nextSourcePageIndex ++
      ", got " ++ toString input.requestedPageIndex)
  let range ← orThrow config.ranges[memory.checkpointIndex]?
    "browser Gazette checkpoint stream has no remaining range"
  require (range.sourceRange.startPage ≤ input.requestedPageIndex ∧
      input.requestedPageIndex ≤ range.sourceRange.endPage)
    "source page is outside the active checkpoint range"
  let evidence ← buildCnipaGazetteBrowserSourcePageEvidence env config.session input
  pure { range, evidence }

/-- After the raw body and the projection of the source page are written. -/
def acceptPage (memory : StreamMemory) (received : ReceivedPage) : Except String AcceptedPage := do
  let page := received.evidence.page
  let accepted ← acceptCnipaGazetteBrowserSourcePage env.hashes config.session memory.state page
  let stateArtifact ←
    buildCnipaGazetteBrowserStreamStateArtifact env config.session accepted.1 page.observedAt
  let logicalArtifacts ←
    accepted.2.mapM (buildCnipaGazetteBrowserLogicalPageEvidence config.session)
  pure { received, state := accepted.1, logicalPages := accepted.2, stateArtifact, logicalArtifacts }

/-- The identity the stream has, or that of its first checkpoint. -/
def checkpointIdentity (evidence : CnipaGazetteBrowserCheckpointEvidence)
    (firstSourcePageEvidence : Option CnipaGazetteBrowserSourcePageEvidence)
    (datasetIdentity : Option CnipaGazetteDatasetIdentityEnvelope) :
    Except String CnipaGazetteDatasetIdentityEnvelope :=
  match datasetIdentity with
  | some identity => pure identity
  | none => do
    let first ← orThrow firstSourcePageEvidence
      "first browser checkpoint is missing source page 1 evidence"
    buildCnipaGazetteBrowserDatasetIdentity env config.session evidence first

/-- The checkpoint that ends with a page. -/
def buildCheckpointCommit (accepted : AcceptedPage)
    (nextLogicalPages : List CnipaGazetteBrowserLogicalPage)
    (firstSourcePageEvidence : Option CnipaGazetteBrowserSourcePageEvidence)
    (datasetIdentity : Option CnipaGazetteDatasetIdentityEnvelope) :
    Except String (CnipaGazetteDatasetIdentityEnvelope × CheckpointCommit) := do
  let range := accepted.received.range
  let observedAt := accepted.received.evidence.page.observedAt
  require (nextLogicalPages.length = range.logicalRange.endPage + 1 - range.logicalRange.startPage ∧
      nextLogicalPages.head?.map (·.pageIndex) = some range.logicalRange.startPage ∧
      nextLogicalPages.getLast?.map (·.pageIndex) = some range.logicalRange.endPage)
    "browser checkpoint logical pages do not match the planned range"
  require (range.terminal = true ∨ accepted.state.tailRows = [])
    "non-terminal browser checkpoint cannot retain a logical tail"
  let evidence ← buildCnipaGazetteBrowserCheckpointEvidence env config.session range.logicalRange
    nextLogicalPages config.effectiveLogicalPagesPerCheckpoint
  let identity ← checkpointIdentity env config evidence firstSourcePageEvidence datasetIdentity
  let package ← buildCnipaGazetteDataEngineChunkPackage env evidence.checkpoint identity observedAt
  let request ← buildCnipaGazetteChunkAdmissionRequestArtifact env package
    identity.artifact.canonicalUri evidence.checkpointArtifact.canonicalUri observedAt
  pure
    (identity,
      { rangePlan := range, checkpoint := evidence.checkpoint, package
        artifacts := [evidence.checkpointArtifact, identity.artifact, request] })

/-- After the state and the logical pages are written. -/
def closePage (memory : StreamMemory) (accepted : AcceptedPage) : Except String ClosedPage := do
  let page := accepted.received.evidence.page
  let nextLogicalPages := memory.logicalPages ++ accepted.logicalPages
  let firstSourcePageEvidence := memory.firstSourcePageEvidence.or
    (if page.sourcePageIndex = 1 then some accepted.received.evidence else none)
  if page.sourcePageIndex = accepted.received.range.sourceRange.endPage then do
    let (identity, checkpoint) ← buildCheckpointCommit env config accepted nextLogicalPages
      firstSourcePageEvidence memory.datasetIdentity
    pure
      { accepted, nextLogicalPages, firstSourcePageEvidence, datasetIdentity := some identity
        checkpoint := some checkpoint }
  else
    pure
      { accepted, nextLogicalPages, firstSourcePageEvidence, datasetIdentity := memory.datasetIdentity
        checkpoint := none }

/-- After everything is written. -/
def commitPage (memory : StreamMemory) (closed : ClosedPage) : StreamMemory :=
  match closed.checkpoint with
  | some _ =>
    { state := closed.accepted.state
      checkpointIndex := memory.checkpointIndex + 1
      logicalPages := []
      firstSourcePageEvidence :=
        if closed.datasetIdentity.isSome then none else closed.firstSourcePageEvidence
      datasetIdentity := closed.datasetIdentity }
  | none =>
    { state := closed.accepted.state
      checkpointIndex := memory.checkpointIndex
      logicalPages := closed.nextLogicalPages
      firstSourcePageEvidence := closed.firstSourcePageEvidence
      datasetIdentity := closed.datasetIdentity }

/-- `acceptSourcePage`, with a writer that does not fail. -/
def acceptSourcePage (memory : StreamMemory) (input : SourcePageInput) :
    Except String (ClosedPage × StreamMemory) := do
  let received ← receivePage env config memory input
  let accepted ← acceptPage env config memory received
  let closed ← closePage env config memory accepted
  pure (closed, commitPage memory closed)

/-- The pages of a source, accepted one after another. -/
def acceptSourcePages (memory : StreamMemory) :
    List SourcePageInput → Except String (List ClosedPage × StreamMemory)
  | [] => pure ([], memory)
  | input :: inputs => do
    let (closed, memory) ← acceptSourcePage env config memory input
    let (rest, memory) ← acceptSourcePages memory inputs
    pure (closed :: rest, memory)

end Steps

end MarkorbitKnowledge.Gazette
