import MarkorbitKnowledge.Contracts.Execution

/-!
# Artifact ingestion contracts

Ingestion sessions, their verification results, receipts and events, and the `RawArtifact` a
finalized session stores.  An artifact of version 1 supersedes nothing and every later version names
the artifact it supersedes; `versionRelationshipIsValid` is that half of `isRawArtifact`, and it
says nothing about which artifact is named.
-/

namespace MarkorbitKnowledge.Contracts

inductive ArtifactIngestionStatus where
  | created | uploading | verified | finalized | aborted | quarantined
deriving DecidableEq

def ArtifactIngestionStatus.text : ArtifactIngestionStatus → String
  | .created => "CREATED"
  | .uploading => "UPLOADING"
  | .verified => "VERIFIED"
  | .finalized => "FINALIZED"
  | .aborted => "ABORTED"
  | .quarantined => "QUARANTINED"

inductive ArtifactVerificationStatus where
  | matched | sizeMismatch | digestMismatch
deriving DecidableEq

inductive ArtifactIngestionEventType where
  | sessionCreated | uploadStarted | uploadVerified | uploadRejected | finalized | aborted
deriving DecidableEq

structure ArtifactUploadDescriptor where
  artifactKind : ArtifactKind
  expectedSizeBytes : Nat
  expectedSha256 : Digest
  sourceUri : String
  canonicalUri : Option String
  parentArtifactIds : Option (List Id)
deriving DecidableEq

structure ArtifactIngestionSession where
  id : Id
  workspaceId : Id
  sourceId : Id
  runId : Id
  jobId : Id
  jobAttempt : Nat
  executionAttemptId : Id
  leaseId : Id
  workerId : Id
  connector : ConnectorRef
  descriptor : ArtifactUploadDescriptor
  status : ArtifactIngestionStatus
  idempotencyKey : String
  createdAt : Timestamp
  updatedAt : Timestamp
  finalizedAt : Option Timestamp

structure ArtifactVerificationResult where
  sessionId : Id
  status : ArtifactVerificationStatus
  observedSizeBytes : Nat
  observedSha256 : Digest
  verifiedAt : Timestamp
  failureCode : Option String

structure ArtifactIngestionReceipt where
  id : Id
  sessionId : Id
  artifactId : Id
  executionAttemptId : Id
  contentSha256 : Digest
  sizeBytes : Nat
  artifactKind : ArtifactKind
  finalizedAt : Timestamp

structure ArtifactIngestionFailure where
  code : String
  message : String
  occurredAt : Timestamp

structure ArtifactIngestionEvent where
  id : Id
  sessionId : Id
  sequence : Nat
  eventType : ArtifactIngestionEventType
  recordedAt : Timestamp
  failure : Option ArtifactIngestionFailure

structure RawArtifact where
  id : Id
  workspaceId : Id
  sourceId : Id
  collectionRunId : Id
  version : Nat
  supersedesArtifactId : Option Id
  artifactKind : ArtifactKind
  canonicalUri : Option String
  /-- `binaryHash.value`, which is also `contentHash.value` and names the storage URI. -/
  binaryHash : Digest
  sizeBytes : Nat
  capturedAt : Timestamp
  sourceUri : String
  parentArtifactIds : Option (List Id)
  createdAt : Timestamp

def isArtifactUploadDescriptor (descriptor : ArtifactUploadDescriptor) : Bool :=
  isUri descriptor.sourceUri && descriptor.canonicalUri.all isUri &&
    descriptor.parentArtifactIds.all fun ids => decide ids.Nodup

def isArtifactIngestionSession (session : ArtifactIngestionSession) : Bool :=
  decide (0 < session.jobAttempt) && session.connector.isValid &&
    isArtifactUploadDescriptor session.descriptor &&
    decide (0 < jsLength session.idempotencyKey) &&
    decide (jsLength session.idempotencyKey ≤ 128) && isRfc3339 session.createdAt &&
    isRfc3339 session.updatedAt && session.finalizedAt.all isRfc3339 &&
    decide (session.status = .finalized ↔ session.finalizedAt.isSome)

def isArtifactVerificationResult (result : ArtifactVerificationResult) : Bool :=
  isRfc3339 result.verifiedAt && result.failureCode.all isFailureCode &&
    decide (result.status = .matched ↔ result.failureCode.isNone)

def isArtifactIngestionReceipt (receipt : ArtifactIngestionReceipt) : Bool :=
  isRfc3339 receipt.finalizedAt

def isArtifactIngestionFailure (failure : ArtifactIngestionFailure) : Bool :=
  isFailureCode failure.code && decide (0 < jsLength failure.message) &&
    decide (jsLength failure.message ≤ 1000) && isRfc3339 failure.occurredAt

def isArtifactIngestionEvent (event : ArtifactIngestionEvent) : Bool :=
  decide (0 < event.sequence) && isRfc3339 event.recordedAt &&
    event.failure.all isArtifactIngestionFailure &&
    decide (event.eventType = .uploadRejected ↔ event.failure.isSome)

def versionRelationshipIsValid (artifact : RawArtifact) : Bool :=
  decide (artifact.version = 1) && artifact.supersedesArtifactId.isNone ||
    decide (1 < artifact.version) &&
      artifact.supersedesArtifactId.any fun superseded => decide (superseded ≠ artifact.id)

def isRawArtifact (artifact : RawArtifact) : Bool :=
  versionRelationshipIsValid artifact && artifact.canonicalUri.all isUri &&
    isRfc3339 artifact.capturedAt && isUri artifact.sourceUri && isRfc3339 artifact.createdAt

end MarkorbitKnowledge.Contracts
