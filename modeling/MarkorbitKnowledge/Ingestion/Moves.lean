import MarkorbitKnowledge.Ingestion.Machine

/-!
# What a step of the registry can do

`Moved` says once what changes together: a session and the task that works on it, a file and the phase of
its task, an artifact with its content object and its session.  Every step is a sequence of such moves
(`step_moves`), of which only `cleanupAbandoned` makes several.
-/

namespace MarkorbitKnowledge.Ingestion

open Contracts Fallible Execution Transitions

/-! ### Moves -/

/-- What the calls of the registry read and write. -/
structure View where
  sessions : List SessionRow
  contentObjects : List ContentObject
  rawArtifacts : List RawArtifactRow
  files : Files
  tasks : Nat → Option Task

def viewOf (db : Database) (files : Files) (tasks : Nat → Option Task) : View :=
  ⟨db.sessions, db.contentObjects, db.rawArtifacts, files, tasks⟩

def State.view (s : State) : View := viewOf s.db s.files s.tasks

/-- A status no session leaves by itself. -/
def Terminal (status : ArtifactIngestionStatus) : Prop :=
  status = .finalized ∨ status = .aborted ∨ status = .quarantined

/-- The document of an upload. -/
def uploadingOf (session : ArtifactIngestionSession) (now : Timestamp) : ArtifactIngestionSession :=
  { session with status := .uploading, updatedAt := now }

def finalizedOf (f : Finalization) : ArtifactIngestionSession :=
  { f.session with status := .finalized, updatedAt := f.now, finalizedAt := some f.now }

def uploadChanges : SessionChanges where
  verification := none
  receipt := none
  failure := none
  tempRelativePath := true

def verifiedChanges (verification : ArtifactVerificationResult) : SessionChanges where
  verification := some verification
  receipt := none
  failure := none
  tempRelativePath := true

def closedChanges (verification : Option ArtifactVerificationResult)
    (receipt : Option ArtifactIngestionReceipt) (failure : Option ArtifactIngestionFailure) :
    SessionChanges where
  verification := verification
  receipt := receipt
  failure := failure
  tempRelativePath := false

inductive Moved (platform : IngestionPlatform) (v : View) : View → Prop
  | opened {row : SessionRow} (hfresh : ∀ r ∈ v.sessions, r.session.id ≠ row.session.id)
      (hcreated : row.session.status = .created) :
      Moved platform v { v with sessions := v.sessions ++ [row] }
  | started {row : SessionRow} {now : Timestamp} (hrow : row ∈ v.sessions)
      (hcreated : row.session.status = .created) :
      Moved platform v
        { v with sessions := uploadChanges.update (uploadingOf row.session now) v.sessions }
  | uploading {row : SessionRow} {now : Timestamp} {t : Nat} (hrow : row ∈ v.sessions)
      (hcreated : row.session.status = .created) (hfree : v.tasks t = none) :
      Moved platform v
        { v with
          sessions := uploadChanges.update (uploadingOf row.session now) v.sessions
          tasks := setTask v.tasks t (some (.upload (uploadingOf row.session now) .opening)) }
  | proceeded {t : Nat} {session : ArtifactIngestionSession} {phase phase' : UploadPhase}
      {content : Option ByteArray} (htask : v.tasks t = some (.upload session phase)) :
      Moved platform v
        { v with
          files := v.files.setSession session.id content
          tasks := setTask v.tasks t (some (.upload session phase')) }
  | verified {t : Nat} {session : ArtifactIngestionSession} {received : ByteArray}
      {verifiedAt : Timestamp} (htask : v.tasks t = some (.upload session (.written received)))
      (hmatched : (verificationOf platform session received verifiedAt).status = .matched) :
      Moved platform v
        { v with
          sessions := (verifiedChanges (verificationOf platform session received verifiedAt)).update
            { session with status := .verified, updatedAt := verifiedAt } v.sessions
          tasks := setTask v.tasks t none }
  | rejected {t : Nat} {session : ArtifactIngestionSession} {failure : ArtifactIngestionFailure}
      {verification : Option ArtifactVerificationResult}
      (htask : v.tasks t = some (.upload session (.rejecting failure verification))) :
      Moved platform v
        { v with
          sessions := (closedChanges verification none (some failure)).update
            { session with status := .quarantined, updatedAt := failure.occurredAt } v.sessions
          tasks := setTask v.tasks t none }
  | ended {tasks : Nat → Option Task} (hended : ∀ t, tasks t = none ∨ tasks t = v.tasks t) :
      Moved platform v { v with tasks }
  | finalizing {row : SessionRow} {verification : ArtifactVerificationResult} {now : Timestamp}
      {t : Nat} (hrow : row ∈ v.sessions) (hverified : row.session.status = .verified)
      (hverification : row.verification = some verification) (hfree : v.tasks t = none) :
      Moved platform v
        { v with
          tasks := setTask v.tasks t
            (some (.finalize { session := row.session, verification, now } .linking)) }
  | linked {t : Nat} {f : Finalization} {files : Files}
      (htask : v.tasks t = some (.finalize f .linking))
      (hlink : v.files.linkObject f.session.id f.verification.observedSha256 = some files) :
      Moved platform v
        { v with files, tasks := setTask v.tasks t (some (.finalize f .hashing)) }
  | hashed {t : Nat} {f : Finalization} (htask : v.tasks t = some (.finalize f .hashing))
      (hverifies : verifiesObject platform v.files f.verification.observedSha256
        f.verification.observedSizeBytes = true) :
      Moved platform v { v with tasks := setTask v.tasks t (some (.finalize f .removing)) }
  | removed {t : Nat} {f : Finalization} (htask : v.tasks t = some (.finalize f .removing)) :
      Moved platform v
        { v with
          files := v.files.setSession f.session.id none
          tasks := setTask v.tasks t (some (.finalize f .committing)) }
  | committed {t : Nat} {f : Finalization} {artifactId receiptId : Id}
      {rawArtifacts : List RawArtifactRow} (htask : v.tasks t = some (.finalize f .committing))
      (hinsert : insertArtifact v.rawArtifacts (newRow f (newArtifact f
        ((previousArtifact v.rawArtifacts f.session).map (·.artifact)) artifactId) receiptId) =
          .ok rawArtifacts) :
      Moved platform v
        { v with
          sessions := (closedChanges none (some (newReceipt f artifactId receiptId)) none).update
            (finalizedOf f) v.sessions
          contentObjects := countObject v.contentObjects f.verification.observedSha256
            f.verification.observedSizeBytes f.now
          rawArtifacts
          tasks := setTask v.tasks t none }
  | cleaned {id : Id} : Moved platform v { v with files := v.files.setSession id none }
  | aborted {row : SessionRow} {failure : ArtifactIngestionFailure} (hrow : row ∈ v.sessions)
      (hlive : ¬Terminal row.session.status) :
      Moved platform v
        { v with
          sessions := (closedChanges none none (some failure)).update
            { row.session with status := .aborted, updatedAt := failure.occurredAt } v.sessions }

/-! ### What the calls do -/

section Calls

variable {platform : IngestionPlatform} {db db' : Database} {caller : Caller}
  {session : ArtifactIngestionSession} {sessionId eventId : Id} {now : Timestamp}

theorem parsed_eq_ok {valid : Bool} {message : String} {u : Unit} :
    parsed valid message = .ok u ↔ valid = true := require_eq_ok

theorem updateSession_eq_ok {changes : SessionChanges} :
    updateSession db session changes = .ok db' ↔ isArtifactIngestionSession session = true ∧
      db' = { db with sessions := changes.update session db.sessions } := by
  simp only [updateSession, bind_eq_ok, parsed_eq_ok, pure_eq_ok, exists_const]
  exact and_congr_right fun _ => eq_comm

/-- An event changes the event table alone. -/
theorem viewOf_insertEvent {id : Id} {eventType : ArtifactIngestionEventType}
    {recordedAt : Timestamp} {failure : Option ArtifactIngestionFailure}
    (h : insertEvent db id eventType recordedAt failure eventId = .ok db') (files : Files)
    (tasks : Nat → Option Task) : viewOf db' files tasks = viewOf db files tasks := by
  simp only [insertEvent, bind_eq_ok, pure_eq_ok] at h
  obtain ⟨-, -, -, -, rfl⟩ := h
  rfl

/-- A session that is read is in its table. -/
theorem requireSession_spec {id : Id} {record : ArtifactSessionRecord}
    (h : requireSession db id = .ok record) :
    ∃ row ∈ db.sessions, row.session.id = id ∧ record.session = row.session ∧
      record.verification = row.verification := by
  simp only [requireSession, bind_eq_ok, orThrow_eq_ok, pure_eq_ok] at h
  obtain ⟨row, hrow, -, -, -, -, -, -, -, -, rfl⟩ := h
  exact ⟨row, Tables.mem_of_find? hrow, Tables.key_of_find? hrow, rfl, rfl⟩

theorem ownedSession_spec {record : ArtifactSessionRecord}
    (h : ownedSession platform db caller sessionId = .ok record) :
    ∃ row ∈ db.sessions, row.session.id = sessionId ∧ record.session = row.session ∧
      record.verification = row.verification := by
  simp only [ownedSession, bind_eq_ok, pure_eq_ok] at h
  obtain ⟨-, -, found, hfound, -, -, rfl⟩ := h
  exact requireSession_spec hfound

theorem createSession_spec {input : CreateArtifactSessionInput} {result : CreatedSession}
    (h : createSession platform input now sessionId eventId db = .ok (result, db')) :
    db' = db ∨ ∃ row : SessionRow, (∀ r ∈ db.sessions, r.session.id ≠ row.session.id) ∧
      row.session.status = .created ∧ ∀ files tasks, viewOf db' files tasks =
        { viewOf db files tasks with sessions := db.sessions ++ [row] } := by
  simp only [createSession, bind_eq_ok, parsed_eq_ok] at h
  obtain ⟨-, -, key, -, context, -, h⟩ := h
  split at h
  · simp only [bind_eq_ok, pure_eq_ok, Prod.mk.injEq] at h
    obtain ⟨-, -, -, -, -, rfl⟩ := h
    exact Or.inl rfl
  · simp only [bind_eq_ok, pure_eq_ok, Prod.mk.injEq, insertSession, require_eq_ok] at h
    obtain ⟨-, -, -, -, _, ⟨-, hfresh, rfl⟩, db₁, hevent, -, -, -, rfl⟩ := h
    refine Or.inr ⟨{ session := newSession input context key now sessionId
                     descriptorHash := input.descriptorHash
                     verification := none, receipt := none, failure := none
                     tempRelativePath := false }, hfresh, rfl, fun files tasks => ?_⟩
    rw [viewOf_insertEvent hevent]
    rfl

theorem beginUpload_spec {result : Except RegistryError (Option ArtifactIngestionSession)}
    (h : beginUpload platform caller sessionId now eventId db = (result, db')) :
    (db' = db ∧ ∀ uploading, result ≠ .ok (some uploading)) ∨
      ∃ row ∈ db.sessions, row.session.status = .created ∧
        (∀ uploading, result = .ok (some uploading) → uploading = uploadingOf row.session now) ∧
        ∀ files tasks, viewOf db' files tasks = { viewOf db files tasks with
          sessions := uploadChanges.update (uploadingOf row.session now) db.sessions } := by
  unfold beginUpload at h
  split at h
  · cases h
    exact Or.inl ⟨rfl, by simp⟩
  · cases h
    exact Or.inl ⟨rfl, by simp⟩
  · rename_i session huploadable
    have hrow : ∃ row ∈ db.sessions, row.session = session ∧ row.session.status = .created := by
      simp only [uploadable, bind_eq_ok] at huploadable
      obtain ⟨record, hrecord, huploadable⟩ := huploadable
      obtain ⟨row, hrow, -, hsession, -⟩ := ownedSession_spec hrecord
      split at huploadable
      · simp only [bind_eq_ok, pure_eq_ok] at huploadable
        obtain ⟨-, -, h⟩ := huploadable
        cases h
      · simp only [bind_eq_ok, pure_eq_ok, require_eq_ok, Option.some.injEq] at huploadable
        obtain ⟨-, hcreated, rfl⟩ := huploadable
        exact ⟨row, hrow, hsession.symm, hsession ▸ hcreated⟩
    obtain ⟨row, hrow, rfl, hcreated⟩ := hrow
    dsimp only at h
    split at h
    · cases h
      exact Or.inl ⟨rfl, by simp⟩
    · rename_i db₁ hupdate
      obtain ⟨-, rfl⟩ := updateSession_eq_ok.mp hupdate
      split at h
      · cases h
        exact Or.inr ⟨row, hrow, hcreated, by simp, fun _ _ => rfl⟩
      · rename_i db₂ hevent
        cases h
        refine Or.inr ⟨row, hrow, hcreated, ?_, fun files tasks => ?_⟩
        · intro uploading h
          cases h
          rfl
        · rw [viewOf_insertEvent hevent]
          rfl

theorem beginFinalize_spec {f : Finalization}
    (h : beginFinalize platform caller sessionId now db = .ok (some f)) :
    ∃ row ∈ db.sessions, row.session.status = .verified ∧ row.verification = some f.verification ∧
      f.session = row.session := by
  simp only [beginFinalize, bind_eq_ok] at h
  obtain ⟨record, hrecord, h⟩ := h
  obtain ⟨row, hrow, -, hsession, hverification⟩ := ownedSession_spec hrecord
  split at h
  · simp only [bind_eq_ok, pure_eq_ok] at h
    obtain ⟨-, -, -, -, h⟩ := h
    cases h
  · simp only [bind_eq_ok, pure_eq_ok, require_eq_ok, orThrow_eq_ok, Option.some.injEq] at h
    obtain ⟨-, hverified, verification, hfound, -, -, -, -, rfl⟩ := h
    exact ⟨row, hrow, hsession ▸ hverified, hverification ▸ hfound, hsession⟩

theorem beginAbort_spec (h : beginAbort platform caller sessionId db = .ok (some session)) :
    ∃ row ∈ db.sessions, row.session.id = sessionId ∧ row.session = session ∧
      ¬Terminal row.session.status := by
  simp only [beginAbort, bind_eq_ok] at h
  obtain ⟨record, hrecord, h⟩ := h
  obtain ⟨row, hrow, hid, hsession, -⟩ := ownedSession_spec hrecord
  split at h
  · cases h
  · rename_i hlive
    simp only [pure_eq_ok, Option.some.injEq] at h
    exact ⟨row, hrow, hid, hsession ▸ h, hsession ▸ hlive⟩

theorem verifySession_spec {verification : ArtifactVerificationResult}
    (h : verifySession session verification eventId db = .ok db') (files : Files)
    (tasks : Nat → Option Task) :
    viewOf db' files tasks = { viewOf db files tasks with
      sessions := (verifiedChanges verification).update
        { session with status := .verified, updatedAt := verification.verifiedAt } db.sessions } := by
  simp only [verifySession, bind_eq_ok, updateSession_eq_ok] at h
  obtain ⟨_, ⟨-, rfl⟩, hevent⟩ := h
  rw [viewOf_insertEvent hevent]
  rfl

theorem rejectSession_spec {failure : ArtifactIngestionFailure}
    {verification : Option ArtifactVerificationResult}
    (h : rejectSession session failure verification eventId db = .ok db') (files : Files)
    (tasks : Nat → Option Task) :
    viewOf db' files tasks = { viewOf db files tasks with
      sessions := (closedChanges verification none (some failure)).update
        { session with status := .quarantined, updatedAt := failure.occurredAt } db.sessions } := by
  simp only [rejectSession, bind_eq_ok, updateSession_eq_ok] at h
  obtain ⟨_, ⟨-, rfl⟩, hevent⟩ := h
  rw [viewOf_insertEvent hevent]
  rfl

theorem abortSession_spec {failure : ArtifactIngestionFailure}
    (h : abortSession session failure eventId db = .ok db') (files : Files)
    (tasks : Nat → Option Task) :
    viewOf db' files tasks = { viewOf db files tasks with
      sessions := (closedChanges none none (some failure)).update
        { session with status := .aborted, updatedAt := failure.occurredAt } db.sessions } := by
  simp only [abortSession, bind_eq_ok, updateSession_eq_ok] at h
  obtain ⟨_, ⟨-, rfl⟩, hevent⟩ := h
  rw [viewOf_insertEvent hevent]
  rfl

theorem finalizeSession_spec {f : Finalization} {artifactId receiptId : Id}
    (h : finalizeSession f artifactId receiptId eventId db = .ok db') (files : Files)
    (tasks : Nat → Option Task) :
    ∃ rawArtifacts, insertArtifact db.rawArtifacts (newRow f (newArtifact f
        ((previousArtifact db.rawArtifacts f.session).map (·.artifact)) artifactId) receiptId) =
          .ok rawArtifacts ∧
      viewOf db' files tasks = { viewOf db files tasks with
        sessions := (closedChanges none (some (newReceipt f artifactId receiptId)) none).update
          (finalizedOf f) db.sessions
        contentObjects := countObject db.contentObjects f.verification.observedSha256
          f.verification.observedSizeBytes f.now
        rawArtifacts } := by
  simp only [finalizeSession, bind_eq_ok, updateSession_eq_ok] at h
  obtain ⟨-, -, -, -, -, -, rawArtifacts, hinsert, _, ⟨-, rfl⟩, hevent⟩ := h
  refine ⟨rawArtifacts, hinsert, ?_⟩
  rw [viewOf_insertEvent hevent]
  rfl

end Calls

end MarkorbitKnowledge.Ingestion
