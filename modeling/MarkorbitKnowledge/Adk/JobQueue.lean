import MarkorbitKnowledge.Contracts.Conversion
import MarkorbitKnowledge.Lib.Fallible
import MarkorbitKnowledge.Lib.Tables
import Mathlib.Data.List.Sort
import Mathlib.Data.String.Basic

/-!
# The queue of AI-knowledge jobs

`adk-knowledge-job-queue.ts` and `adk-knowledge-job-queue-store.ts`: the documents of the queue, what
one transition makes of a document, and the calls of the store.  Every update of a row writes the
whole document; `saveIfStatus` compares the stored status only.  An error is its message.
-/

namespace MarkorbitKnowledge.Adk

open Contracts Fallible Tables

inductive AiKnowledgeJobStatus where
  | queued | claimed | running | succeeded | failed | retryPending | blockedCredential
  | blockedRecovery | blockedExecution
deriving DecidableEq

inductive AiKnowledgeJobExecutionMode where
  | legacyProvider | groundedPrepared
deriving DecidableEq

structure AiKnowledgeJob where
  id : String
  assignmentId : String
  provider : String
  executionMode : Option AiKnowledgeJobExecutionMode
  groundedExecutionInputSha256 : Option String
  status : AiKnowledgeJobStatus
  attempts : Nat
  maxAttempts : Option Nat
  executionKey : Option String
  createdAt : Timestamp
  updatedAt : Timestamp
  artifactIds : List String
  error : Option String
deriving DecidableEq

def executionModeOf (job : AiKnowledgeJob) : AiKnowledgeJobExecutionMode :=
  job.executionMode.getD .legacyProvider

/-- `job.maxAttempts ?? 3`. -/
def AiKnowledgeJob.attemptLimit (job : AiKnowledgeJob) : Nat := job.maxAttempts.getD 3

/-! ### Transitions of a document -/

def claimJob (job : AiKnowledgeJob) (now : Timestamp) : Except String AiKnowledgeJob := do
  require (job.status = .queued) "Only queued jobs can be claimed"
  pure { job with status := .claimed, updatedAt := now }

def markCredentialBlocked (job : AiKnowledgeJob) (error : String) (now : Timestamp) :
    Except String AiKnowledgeJob := do
  require (job.status = .claimed ∨ job.status = .running)
    "Only claimed or running jobs can be credential-blocked"
  pure { job with status := .blockedCredential, error := some error, updatedAt := now }

def markExecutionBlocked (job : AiKnowledgeJob) (error : String) (now : Timestamp) :
    Except String AiKnowledgeJob := do
  require (job.status = .claimed) "Only claimed jobs can be execution-blocked"
  pure { job with status := .blockedExecution, error := some error, updatedAt := now }

def markRunning (job : AiKnowledgeJob) (now : Timestamp) : Except String AiKnowledgeJob := do
  require (job.status = .claimed) "Only claimed jobs can start running"
  pure { job with status := .running, updatedAt := now }

def failJob (job : AiKnowledgeJob) (error : String) (retryable : Bool) (now : Timestamp) :
    Except String AiKnowledgeJob := do
  require (job.status = .running) "Only running jobs can fail"
  let attempts := job.attempts + 1
  pure
    { job with
      attempts
      status := if retryable = true ∧ attempts < job.attemptLimit then .retryPending else .failed
      error := some error, updatedAt := now }

def requeueJob (job : AiKnowledgeJob) (now : Timestamp) : Except String AiKnowledgeJob := do
  require (job.status = .retryPending) "Only retry-pending jobs can be requeued"
  pure { job with status := .queued, error := none, updatedAt := now }

def requeueCredentialBlockedJob (job : AiKnowledgeJob) (now : Timestamp) :
    Except String AiKnowledgeJob := do
  require (job.status = .blockedCredential) "Only credential-blocked jobs can be requeued"
  pure { job with status := .queued, error := none, updatedAt := now }

def recoverClaimedJob (job : AiKnowledgeJob) (now : Timestamp) : Except String AiKnowledgeJob := do
  require (job.status = .claimed) "Only claimed jobs can be recovered safely"
  pure { job with status := .queued, error := none, updatedAt := now }

def blockJobForRecovery (job : AiKnowledgeJob) (error : String) (now : Timestamp) :
    Except String AiKnowledgeJob := do
  require (job.status = .running) "Only running jobs can be blocked for recovery"
  pure { job with status := .blockedRecovery, error := some error, updatedAt := now }

def completeJob (job : AiKnowledgeJob) (artifactIds : List String) (now : Timestamp) :
    Except String AiKnowledgeJob := do
  require (job.status = .running) "Only running jobs can complete"
  require (artifactIds ≠ []) "Successful jobs require at least one artifact"
  pure { job with status := .succeeded, artifactIds, error := none, updatedAt := now }

/-! ### The store -/

/-- A row of `ai_knowledge_jobs`; its columns but the key repeat the document. -/
structure JobRow where
  executionKey : String
  job : AiKnowledgeJob
deriving DecidableEq

instance : Keyed JobRow String := ⟨fun row => row.job.id⟩

@[simp] theorem key_jobRow (row : JobRow) : key row = row.job.id := rfl

/-- `/^[a-f0-9]{64}$/u`. -/
def isSha256Text (text : String) : Bool :=
  text.length == 64 && text.toList.all fun c => c.isDigit || ('a' ≤ c && c ≤ 'f')

/-- The identity of a grounded job. -/
def hasGroundedIdentity (job : AiKnowledgeJob) : Bool :=
  job.provider == "PROVIDER_DISABLED" &&
    job.groundedExecutionInputSha256.any fun sha256 =>
      isSha256Text sha256 && job.executionKey == some ("grounded-prepared:" ++ sha256)

def parseJob (job : AiKnowledgeJob) : Except String AiKnowledgeJob := do
  require (isSafeInteger job.attempts = true) "Persisted AI knowledge job is invalid"
  match executionModeOf job with
  | .groundedPrepared =>
    require (hasGroundedIdentity job = true)
      "Persisted grounded PREPARED AI knowledge job identity is invalid"
    pure job
  | .legacyProvider =>
    require (job.groundedExecutionInputSha256 = none)
      "Legacy provider AI knowledge jobs cannot carry grounded execution identity"
    pure job

def executionKeyOf (job : AiKnowledgeJob) : Except String String := do
  let executionKey := trim (job.executionKey.getD "")
  require (executionKey ≠ "") "AI knowledge jobs require a non-empty executionKey"
  pure executionKey

/-- The fields `assertImmutableIdentity` compares. -/
structure SameIdentity (existing next : AiKnowledgeJob) : Prop where
  assignmentId : existing.assignmentId = next.assignmentId
  provider : existing.provider = next.provider
  executionKey : existing.executionKey = next.executionKey
  executionMode : executionModeOf existing = executionModeOf next
  groundedSha256 : existing.groundedExecutionInputSha256 = next.groundedExecutionInputSha256
  createdAt : existing.createdAt = next.createdAt

instance (existing next : AiKnowledgeJob) : Decidable (SameIdentity existing next) :=
  decidable_of_iff
    (existing.assignmentId = next.assignmentId ∧ existing.provider = next.provider ∧
      existing.executionKey = next.executionKey ∧
      executionModeOf existing = executionModeOf next ∧
      existing.groundedExecutionInputSha256 = next.groundedExecutionInputSha256 ∧
      existing.createdAt = next.createdAt)
    ⟨fun ⟨ha, hp, hk, hm, hg, hc⟩ => ⟨ha, hp, hk, hm, hg, hc⟩,
      fun ⟨ha, hp, hk, hm, hg, hc⟩ => ⟨ha, hp, hk, hm, hg, hc⟩⟩

def getJob (store : List JobRow) (id : String) : Except String (Option AiKnowledgeJob) :=
  match find? store id with
  | none => pure none
  | some row => some <$> parseJob row.job

def getByExecutionKey (store : List JobRow) (executionKey : String) :
    Except String (Option AiKnowledgeJob) :=
  match store.find? fun row => decide (row.executionKey = executionKey) with
  | none => pure none
  | some row => some <$> parseJob row.job

/-- `this.get(job.id) ?? this.getByExecutionKey(executionKey)`. -/
def existingJob (store : List JobRow) (id executionKey : String) :
    Except String (Option AiKnowledgeJob) := do
  match ← getJob store id with
  | some existing => pure (some existing)
  | none => getByExecutionKey store executionKey

def put (store : List JobRow) (job : AiKnowledgeJob) :
    Except String (AiKnowledgeJob × List JobRow) := do
  let executionKey ← executionKeyOf job
  match ← existingJob store job.id executionKey with
  | some existing => do
    require (existing = job)
      ("AI knowledge job execution key " ++ executionKey ++ " conflicts with existing job")
    pure (existing, store)
  | none => pure (job, store ++ [{ executionKey := executionKey, job := job }])

/-- `UPDATE ai_knowledge_jobs SET … WHERE id = ?`. -/
def setJob (store : List JobRow) (job : AiKnowledgeJob) : List JobRow :=
  store.map fun row => if row.job.id = job.id then { row with job := job } else row

def saveIfStatus (store : List JobRow) (job : AiKnowledgeJob) (expectedStatus : AiKnowledgeJobStatus) :
    Except String (Option AiKnowledgeJob × List JobRow) := do
  let _ ← executionKeyOf job
  let existing ← orThrow (← getJob store job.id)
    ("AI knowledge job " ++ job.id ++ " does not exist")
  require (SameIdentity existing job)
    ("AI knowledge job " ++ job.id ++ " immutable identity changed")
  if existing.status = expectedStatus then pure (some job, setJob store job)
  else pure (none, store)

def listJobs (store : List JobRow) : Except String (List AiKnowledgeJob) :=
  (store.insertionSort fun left right =>
    toLex (isoOrder left.job.createdAt, left.job.id) ≤
      toLex (isoOrder right.job.createdAt, right.job.id)).mapM fun row => parseJob row.job

def claimNext (store : List JobRow) (now : Timestamp) :
    Except String (Option AiKnowledgeJob × List JobRow) := do
  let queued := (store.filter fun row => decide (row.job.status = .queued)).insertionSort
    fun left right => toLex (isoOrder left.job.createdAt, left.job.id) ≤
      toLex (isoOrder right.job.createdAt, right.job.id)
  match queued.head? with
  | none => pure (none, store)
  | some row => do
    let job ← parseJob row.job
    let claimed ← claimJob job now
    pure (some claimed, setJob store claimed)

end MarkorbitKnowledge.Adk
