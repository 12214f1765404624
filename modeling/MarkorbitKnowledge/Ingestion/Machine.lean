import MarkorbitKnowledge.Ingestion.Registry
import MarkorbitKnowledge.Lib.Transitions

/-!
# The registry at work

Calls of the registry run in one process.  A call that waits for the file system is a `Task`, which holds
what it has read, and every step takes one task from one wait to the next or carries out a whole call that
does not wait.  The other repositories change their own tables at any time.  A task can end at any wait
with an exception, and a crash ends all of them; what is in the database and in the files stays.
-/

namespace MarkorbitKnowledge.Ingestion

open Contracts Fallible Execution

/-! ### Tasks -/

/-- Where a call of `uploadContent` waits: for its file, for a chunk, for the file to be closed, for the file
    to be moved to the quarantine, and before it rejects the session. -/
inductive UploadPhase where
  | opening
  | writing (received : ByteArray)
  | written (received : ByteArray)
  | mismatched (verification : ArtifactVerificationResult)
  | rejecting (failure : ArtifactIngestionFailure) (verification : Option ArtifactVerificationResult)

/-- Where a call of `finalize` waits: for the link, for the hash of the object, for the upload to be
    removed, and before its transaction. -/
inductive FinalizePhase where
  | linking | hashing | removing | committing
deriving DecidableEq

/-- A call that waits; an upload holds the document it has written at its start. -/
inductive Task where
  | upload (session : ArtifactIngestionSession) (phase : UploadPhase)
  | finalize (f : Finalization) (phase : FinalizePhase)

def Task.session : Task → ArtifactIngestionSession
  | .upload session _ => session
  | .finalize f _ => f.session

structure State where
  db : Database
  files : Files
  tasks : Nat → Option Task

def State.init : State := { db := .empty, files := .empty, tasks := fun _ => none }

def setTask (tasks : Nat → Option Task) (t : Nat) (task : Option Task) : Nat → Option Task :=
  fun u => if u = t then task else tasks u

/-! ### Steps -/

inductive Action where
  | elsewhere (db : Database)
  | createSession (input : CreateArtifactSessionInput) (now : Timestamp) (sessionId eventId : Id)
  | uploadContent (t : Nat) (caller : Caller) (sessionId : Id) (now : Timestamp) (eventId : Id)
  | openFile (t : Nat) (failure : ArtifactIngestionFailure)
  | writeChunk (t : Nat) (chunk : ByteArray) (failedAt : Timestamp)
  | closeFile (t : Nat)
  | failUpload (t : Nat) (failure : ArtifactIngestionFailure)
  | verifyUpload (t : Nat) (verifiedAt : Timestamp) (eventId : Id)
  | quarantine (t : Nat)
  | rejectUpload (t : Nat) (eventId : Id)
  | finalize (t : Nat) (caller : Caller) (sessionId : Id) (now : Timestamp)
  | linkObject (t : Nat)
  | hashObject (t : Nat)
  | removeTemporary (t : Nat)
  | commitFinalized (t : Nat) (artifactId receiptId eventId : Id)
  | abort (caller : Caller) (sessionId : Id) (reason : Option String) (now : Timestamp) (eventId : Id)
      (commits : Bool)
  | cleanupAbandoned (olderThan now : Timestamp) (eventIds : Id → Id) (commits : Bool)
  | throws (t : Nat)
  | crash

/-- The database after the other repositories have changed their tables. -/
def Database.elsewhere (db next : Database) : Database :=
  { next with
    sessions := db.sessions
    contentObjects := db.contentObjects
    rawArtifacts := db.rawArtifacts
    ingestionEvents := db.ingestionEvents }

variable (platform : IngestionPlatform)

def tooLarge (failedAt : Timestamp) : ArtifactIngestionFailure where
  code := "ARTIFACT_TOO_LARGE"
  message := "Artifact exceeds " ++ toString platform.maxBytes ++ " bytes"
  occurredAt := failedAt

/-- The part of `uploadContent` between two waits. -/
def stepUpload (s : State) (t : Nat) (session : ArtifactIngestionSession) :
    UploadPhase → Action → State
  | .opening, .openFile _ failure =>
    if (s.files.sessions session.id).isSome then
      { s with tasks := setTask s.tasks t (some (.upload session (.rejecting failure none))) }
    else
      { s with
        files := s.files.setSession session.id (some .empty)
        tasks := setTask s.tasks t (some (.upload session (.writing .empty))) }
  | .writing received, .writeChunk _ chunk failedAt =>
    if platform.maxBytes < received.size + chunk.size then
      { s with
        files := s.files.setSession session.id none
        tasks := setTask s.tasks t
          (some (.upload session (.rejecting (tooLarge platform failedAt) none))) }
    else
      { s with
        files := s.files.appendSession session.id chunk
        tasks := setTask s.tasks t (some (.upload session (.writing (received ++ chunk)))) }
  | .writing received, .closeFile _ =>
    { s with tasks := setTask s.tasks t (some (.upload session (.written received))) }
  | .opening, .failUpload _ failure =>
    { s with tasks := setTask s.tasks t (some (.upload session (.rejecting failure none))) }
  | .writing _, .failUpload _ failure =>
    { s with
      files := s.files.setSession session.id none
      tasks := setTask s.tasks t (some (.upload session (.rejecting failure none))) }
  | .written received, .verifyUpload _ verifiedAt eventId =>
    let verification := verificationOf platform session received verifiedAt
    if isArtifactVerificationResult verification = true ∧ verification.status = .matched then
      { s with
        db := (commit (fun db => (verifySession session verification eventId db).map fun db => ((), db))
          s.db).2
        tasks := setTask s.tasks t none }
    else if isArtifactVerificationResult verification then
      { s with tasks := setTask s.tasks t (some (.upload session (.mismatched verification))) }
    else { s with tasks := setTask s.tasks t none }
  | .mismatched verification, .quarantine _ =>
    { s with
      files := s.files.setSession session.id none
      tasks := setTask s.tasks t
        (some (.upload session (.rejecting (mismatchFailure verification) (some verification)))) }
  | .rejecting failure verification, .rejectUpload _ eventId =>
    { s with
      db := (commit (fun db => (rejectSession session failure verification eventId db).map
        fun db => ((), db)) s.db).2
      tasks := setTask s.tasks t none }
  | _, _ => s

/-- The part of `finalize` between two waits. -/
def stepFinalize (s : State) (t : Nat) (f : Finalization) : FinalizePhase → Action → State
  | .linking, .linkObject _ =>
    -- The `lstat` of the upload before this finds no file where the link does not.
    match s.files.linkObject f.session.id f.verification.observedSha256 with
    | none => { s with tasks := setTask s.tasks t none }
    | some files => { s with files, tasks := setTask s.tasks t (some (.finalize f .hashing)) }
  | .hashing, .hashObject _ =>
    if verifiesObject platform s.files f.verification.observedSha256 f.verification.observedSizeBytes then
      { s with tasks := setTask s.tasks t (some (.finalize f .removing)) }
    else { s with tasks := setTask s.tasks t none }
  | .removing, .removeTemporary _ =>
    { s with
      files := s.files.setSession f.session.id none
      tasks := setTask s.tasks t (some (.finalize f .committing)) }
  | .committing, .commitFinalized _ artifactId receiptId eventId =>
    { s with
      db := (commit (fun db => (finalizeSession f artifactId receiptId eventId db).map
        fun db => ((), db)) s.db).2
      tasks := setTask s.tasks t none }
  | _, _ => s

/-- The task an action takes on. -/
def Action.task : Action → Option Nat
  | .openFile t _ | .writeChunk t _ _ | .closeFile t | .failUpload t _ | .verifyUpload t _ _
  | .quarantine t | .rejectUpload t _ | .linkObject t | .hashObject t | .removeTemporary t
  | .commitFinalized t _ _ _ => some t
  | _ => none

def stepTask (s : State) (a : Action) : State :=
  match a.task with
  | none => s
  | some t =>
    match s.tasks t with
    | none => s
    | some (.upload session phase) => stepUpload platform s t session phase a
    | some (.finalize f phase) => stepFinalize platform s t f phase a

/-- `cleanupSession`. -/
def cleanupSession (files : Files) (row : SessionRow) : Files :=
  if row.tempRelativePath then files.setSession row.session.id none else files

/-- `abort`; where its transaction fails, the file is removed all the same. -/
def stepAbort (s : State) (caller : Caller) (sessionId : Id) (reason : Option String)
    (now : Timestamp) (eventId : Id) (commits : Bool) : State :=
  match beginAbort platform caller sessionId s.db with
  | .ok (some session) =>
    let failure : ArtifactIngestionFailure :=
      { code := "ARTIFACT_INGESTION_ABORTED", message := abortReason reason, occurredAt := now }
    { s with
      files := ((Tables.find? s.db.sessions sessionId).map (cleanupSession s.files)).getD s.files
      db := if commits then
          (commit (fun db => (abortSession session failure eventId db).map fun db => ((), db)) s.db).2
        else s.db }
  | _ => s

/-- The loop of `cleanupAbandoned`: the files it has removed, and the database it would commit. -/
def cleanupRows (now : Timestamp) (eventIds : Id → Id) :
    List SessionRow → Files → Database → Files × Except RegistryError Database
  | [], files, db => (files, .ok db)
  | row :: rows, files, db =>
    match abandonSession now db row.session.id (eventIds row.session.id) with
    | .error e => (cleanupSession files row, .error e)
    | .ok db => cleanupRows now eventIds rows (cleanupSession files row) db

def stepCleanup (s : State) (olderThan now : Timestamp) (eventIds : Id → Id) (commits : Bool) :
    State :=
  let (files, result) := cleanupRows now eventIds (abandonedSessions s.db olderThan) s.files s.db
  { s with files, db := if commits then result.toOption.getD s.db else s.db }

def step (s : State) (a : Action) : State :=
  match a with
  | .elsewhere db => { s with db := Database.elsewhere s.db db }
  | .createSession input now sessionId eventId =>
    { s with db := (commit (createSession platform input now sessionId eventId) s.db).2 }
  | .uploadContent t caller sessionId now eventId =>
    if (s.tasks t).isSome then s
    else
      match beginUpload platform caller sessionId now eventId s.db with
      | (.ok (some session), db) =>
        { s with db, tasks := setTask s.tasks t (some (.upload session .opening)) }
      | (_, db) => { s with db }
  | .finalize t caller sessionId now =>
    if (s.tasks t).isSome then s
    else
      match beginFinalize platform caller sessionId now s.db with
      | .ok (some f) => { s with tasks := setTask s.tasks t (some (.finalize f .linking)) }
      | _ => s
  | .abort caller sessionId reason now eventId commits =>
    stepAbort platform s caller sessionId reason now eventId commits
  | .cleanupAbandoned olderThan now eventIds commits => stepCleanup s olderThan now eventIds commits
  | .throws t => { s with tasks := setTask s.tasks t none }
  | .crash => { s with tasks := fun _ => none }
  | a => stepTask platform s a

/-- The registry, from an empty database and an empty store on. -/
def machine : Transitions.Machine State Action where
  init := .init
  step := step platform

end MarkorbitKnowledge.Ingestion
