import MarkorbitKnowledge.Execution.Replay
import MarkorbitKnowledge.Ingestion.Steps

/-!
# The life of an ingestion session

A task works on with the document it began with and overwrites what it finds, so that an upload turns a
session that was aborted under it into a verified one.  What holds is that an upload is the only task on its
session, and that a session with its artifact is written no more (`Sound`); with it, a session that is over
and has no task left keeps its row for good (`settled_session_stays`).
-/

namespace MarkorbitKnowledge.Ingestion

open Contracts Fallible Execution Transitions

/-! ### A session and its tasks -/

/-- The document of a session as it was created. -/
def asCreated (session : ArtifactIngestionSession) : ArtifactIngestionSession :=
  { session with status := .created, updatedAt := session.createdAt, finalizedAt := none }

/-- The verification is of the content the session was opened for. -/
structure Vouches (session : ArtifactIngestionSession) (verification : ArtifactVerificationResult) :
    Prop where
  digest : verification.observedSha256 = session.descriptor.expectedSha256
  size : verification.observedSizeBytes = session.descriptor.expectedSizeBytes

theorem Vouches.congr {session session' : ArtifactIngestionSession}
    {verification : ArtifactVerificationResult} (h : Vouches session verification)
    (hsame : asCreated session' = asCreated session) : Vouches session' verification := by
  have hdescriptor : session'.descriptor = session.descriptor := congrArg (·.descriptor) hsame
  constructor
  · rw [hdescriptor]
    exact h.digest
  · rw [hdescriptor]
    exact h.size

theorem vouches_of_matched {platform : IngestionPlatform} {session : ArtifactIngestionSession}
    {received : ByteArray} {verifiedAt : Timestamp}
    (h : (verificationOf platform session received verifiedAt).status = .matched) :
    Vouches session (verificationOf platform session received verifiedAt) := by
  by_cases hsize : received.size = session.descriptor.expectedSizeBytes
  · by_cases hdigest : platform.sha256 received = session.descriptor.expectedSha256
    · exact ⟨hdigest, hsize⟩
    · simp [verificationOf, hsize, hdigest] at h
  · simp [verificationOf, hsize] at h

def Task.uploads : Task → Bool
  | .upload _ _ => true
  | .finalize _ _ => false

/-- The session that is stored while a task works on it. -/
inductive Working (session : ArtifactIngestionSession) : Task → Prop
  | upload {started : ArtifactIngestionSession} {phase : UploadPhase}
      (hsame : asCreated session = asCreated started)
      (hstatus : session.status = .uploading ∨ session.status = .aborted) :
      Working session (.upload started phase)
  | finalize {f : Finalization} {phase : FinalizePhase}
      (hsame : asCreated session = asCreated f.session)
      (hstatus : session.status = .verified ∨ session.status = .aborted ∨
        session.status = .finalized)
      (hvouches : Vouches session f.verification) : Working session (.finalize f phase)

/-- An upload is the only task on its session. -/
structure TasksSound (sessions : List SessionRow) (tasks : Nat → Option Task) : Prop where
  working : ∀ t task, tasks t = some task → ∃ row ∈ sessions, Working row.session task
  alone : ∀ t u task other, tasks t = some task → tasks u = some other →
    other.session.id = task.session.id → task.uploads = true → u = t

/-- A task and the same task at another wait. -/
inductive SameWork : Task → Task → Prop
  | upload (session : ArtifactIngestionSession) (phase phase' : UploadPhase) :
      SameWork (.upload session phase) (.upload session phase')
  | finalize (f : Finalization) (phase phase' : FinalizePhase) :
      SameWork (.finalize f phase) (.finalize f phase')

theorem SameWork.refl (task : Task) : SameWork task task := by
  cases task with
  | upload session phase => exact .upload session phase phase
  | finalize f phase => exact .finalize f phase phase

section Tasks

variable {session session' : ArtifactIngestionSession} {task task' : Task}
  {sessions : List SessionRow} {tasks tasks' : Nat → Option Task} {row : SessionRow}
  {changes : SessionChanges}

theorem SameWork.session_eq (h : SameWork task task') : task'.session = task.session := by
  cases h <;> rfl

theorem SameWork.uploads_eq (h : SameWork task task') : task'.uploads = task.uploads := by
  cases h <;> rfl

theorem Working.same (h : Working session task) : asCreated session = asCreated task.session := by
  cases h with
  | upload hsame hstatus => exact hsame
  | finalize hsame hstatus hvouches => exact hsame

theorem Working.id_eq (h : Working session task) : session.id = task.session.id :=
  congrArg (·.id) h.same

theorem Working.of_sameWork (h : Working session task) (hwork : SameWork task task') :
    Working session task' := by
  cases hwork with
  | upload started phase phase' =>
    cases h with
    | upload hsame hstatus => exact .upload hsame hstatus
  | finalize f phase phase' =>
    cases h with
    | finalize hsame hstatus hvouches => exact .finalize hsame hstatus hvouches

theorem Working.status_ne (h : Working session task) :
    session.status ≠ .created ∧ session.status ≠ .quarantined := by
  cases h with
  | upload hsame hstatus => rcases hstatus with hstatus | hstatus <;> simp [hstatus]
  | finalize hsame hstatus hvouches => rcases hstatus with hstatus | hstatus | hstatus <;> simp [hstatus]

/-- A verified or a finalized session is worked on by finalizations only. -/
theorem Working.not_uploads (h : Working session task)
    (hstatus : session.status = .verified ∨ session.status = .finalized) : task.uploads = false := by
  cases h with
  | upload hsame hworking =>
    exfalso
    rcases hworking with hworking | hworking <;> simp [hworking] at hstatus
  | finalize hsame hworking hvouches => rfl

/-- Every task works on with a session that was aborted under it. -/
theorem Working.aborted (h : Working session task) (hsame : asCreated session' = asCreated session)
    (haborted : session'.status = .aborted) : Working session' task := by
  cases h with
  | upload hworking hstatus => exact .upload (hsame.trans hworking) (Or.inr haborted)
  | finalize hworking hstatus hvouches =>
    exact .finalize (hsame.trans hworking) (Or.inr (Or.inl haborted)) (hvouches.congr hsame)

theorem TasksSound.kept (h : TasksSound sessions tasks)
    (hkept : ∀ u task', tasks' u = some task' → ∃ task, tasks u = some task ∧ SameWork task task') :
    TasksSound sessions tasks' := by
  constructor
  · intro t task' htask'
    obtain ⟨task, htask, hwork⟩ := hkept t task' htask'
    obtain ⟨row, hrow, hworking⟩ := h.working t task htask
    exact ⟨row, hrow, hworking.of_sameWork hwork⟩
  · intro t u task' other' htask' hother' hid huploads
    obtain ⟨task, htask, hwork⟩ := hkept t task' htask'
    obtain ⟨other, hother, hwork'⟩ := hkept u other' hother'
    refine h.alone t u task other htask hother ?_ (hwork.uploads_eq ▸ huploads)
    rw [← hwork.session_eq, ← hwork'.session_eq]
    exact hid

theorem kept_setTask {t : Nat} (htask : tasks t = some task) (hwork : SameWork task task') :
    ∀ u new, setTask tasks t (some task') u = some new →
      ∃ old, tasks u = some old ∧ SameWork old new := by
  intro u new hnew
  by_cases hu : u = t
  · rw [setTask, if_pos hu] at hnew
    cases hnew
    exact ⟨task, hu ▸ htask, hwork⟩
  · rw [setTask, if_neg hu] at hnew
    exact ⟨new, hnew, .refl new⟩

theorem kept_ended (hended : ∀ u, tasks' u = none ∨ tasks' u = tasks u) :
    ∀ u new, tasks' u = some new → ∃ old, tasks u = some old ∧ SameWork old new := by
  intro u new hnew
  rcases hended u with hnone | hsame
  · rw [hnone] at hnew
    cases hnew
  · exact ⟨new, hsame ▸ hnew, .refl new⟩

/-- A task begins on a stored session; next to another one only where both finalize it. -/
theorem TasksSound.begin (h : TasksSound sessions tasks) {t : Nat} (hrow : row ∈ sessions)
    (hworking : Working row.session task)
    (hothers : ∀ u other, tasks u = some other → other.session.id = task.session.id →
      task.uploads = false ∧ other.uploads = false) :
    TasksSound sessions (setTask tasks t (some task)) := by
  constructor
  · intro u new hnew
    by_cases hu : u = t
    · rw [setTask, if_pos hu] at hnew
      cases hnew
      exact ⟨row, hrow, hworking⟩
    · rw [setTask, if_neg hu] at hnew
      exact h.working u new hnew
  · intro u₁ u₂ new₁ new₂ hnew₁ hnew₂ hid huploads
    by_cases hu₁ : u₁ = t
    · by_cases hu₂ : u₂ = t
      · exact hu₂.trans hu₁.symm
      · rw [setTask, if_pos hu₁] at hnew₁
        rw [setTask, if_neg hu₂] at hnew₂
        cases hnew₁
        rw [(hothers u₂ new₂ hnew₂ hid).1] at huploads
        cases huploads
    · rw [setTask, if_neg hu₁] at hnew₁
      by_cases hu₂ : u₂ = t
      · rw [setTask, if_pos hu₂] at hnew₂
        cases hnew₂
        rw [(hothers u₁ new₁ hnew₁ hid.symm).2] at huploads
        cases huploads
      · rw [setTask, if_neg hu₂] at hnew₂
        exact h.alone u₁ u₂ new₁ new₂ hnew₁ hnew₂ hid huploads

/-- A session is written while the tasks on it work on or end. -/
theorem TasksSound.update (h : TasksSound sessions tasks) (hunique : Tables.KeysUnique sessions)
    (hrow : row ∈ sessions) (hid : session.id = row.session.id)
    (hended : ∀ u, tasks' u = none ∨ tasks' u = tasks u)
    (hworking : ∀ u task, tasks' u = some task → Working row.session task → Working session task) :
    TasksSound (changes.update session sessions) tasks' := by
  have hkept := h.kept (kept_ended hended)
  refine ⟨?_, hkept.alone⟩
  intro t task htask
  obtain ⟨stored, hstored, hwork⟩ := hkept.working t task htask
  by_cases hsame : stored.session.id = session.id
  · have hstored_eq : stored = row := hunique.eq_of_key hstored hrow (hsame.trans hid)
    subst hstored_eq
    exact ⟨changes.write session stored, mem_update.mpr (Or.inr ⟨stored, hrow, hsame, rfl⟩),
      hworking t task htask hwork⟩
  · exact ⟨stored, mem_update.mpr (Or.inl ⟨hstored, hsame⟩), hwork⟩

end Tasks

/-! ### Sessions and their artifacts -/

/-- What an artifact keeps of the session it was made of. -/
structure StoredFrom (row : SessionRow) (artifact : RawArtifactRow) : Prop where
  finalized : row.session.status = .finalized
  session : artifact.sessionId = row.session.id
  receipt : ∃ receipt, row.receipt = some receipt ∧ receipt.id = artifact.receiptId ∧
    receipt.artifactId = artifact.artifact.id
  finalizedAt : row.session.finalizedAt = some artifact.artifact.createdAt
  workspace : artifact.artifact.workspaceId = row.session.workspaceId
  source : artifact.artifact.sourceId = row.session.sourceId
  kind : artifact.artifact.artifactKind = row.session.descriptor.artifactKind
  sourceUri : artifact.artifact.sourceUri = row.session.descriptor.sourceUri
  canonicalUri : artifact.artifact.canonicalUri = row.session.descriptor.canonicalUri
  digest : artifact.artifact.binaryHash = row.session.descriptor.expectedSha256
  size : artifact.artifact.sizeBytes = row.session.descriptor.expectedSizeBytes

/-- Every artifact was made of a session, every finalized session has made one, and no session two. -/
structure StoreSound (sessions : List SessionRow) (rawArtifacts : List RawArtifactRow) : Prop where
  stored : ∀ artifact ∈ rawArtifacts, ∃ row ∈ sessions, StoredFrom row artifact
  finalized : ∀ row ∈ sessions, row.session.status = .finalized →
    ∃ artifact ∈ rawArtifacts, artifact.sessionId = row.session.id
  verified : ∀ row ∈ sessions, row.session.status = .verified →
    ∃ verification, row.verification = some verification ∧ Vouches row.session verification
  once : (rawArtifacts.map (·.sessionId)).Nodup

section Store

variable {sessions : List SessionRow} {rawArtifacts : List RawArtifactRow} {row : SessionRow}
  {session : ArtifactIngestionSession} {changes : SessionChanges}

theorem StoreSound.opened (h : StoreSound sessions rawArtifacts)
    (hcreated : row.session.status = .created) : StoreSound (sessions ++ [row]) rawArtifacts := by
  refine ⟨?_, ?_, ?_, h.once⟩
  · intro artifact hartifact
    obtain ⟨stored, hstored, hfrom⟩ := h.stored artifact hartifact
    exact ⟨stored, List.mem_append_left _ hstored, hfrom⟩
  · intro other hother hfinalized
    rcases List.mem_append.mp hother with hother | hother
    · exact h.finalized other hother hfinalized
    · rw [List.mem_singleton.mp hother, hcreated] at hfinalized
      cases hfinalized
  · intro other hother hverified
    rcases List.mem_append.mp hother with hother | hother
    · exact h.verified other hother hverified
    · rw [List.mem_singleton.mp hother, hcreated] at hverified
      cases hverified

/-- A session that is not finalized is written, and is not finalized by that. -/
theorem StoreSound.update (h : StoreSound sessions rawArtifacts)
    (hunique : Tables.KeysUnique sessions) (hrow : row ∈ sessions)
    (hid : session.id = row.session.id) (hopen : row.session.status ≠ .finalized)
    (hnew : session.status ≠ .finalized)
    (hverified : session.status = .verified →
      ∃ verification, changes.verification = some verification ∧ Vouches session verification) :
    StoreSound (changes.update session sessions) rawArtifacts := by
  refine ⟨?_, ?_, ?_, h.once⟩
  · intro artifact hartifact
    obtain ⟨stored, hstored, hfrom⟩ := h.stored artifact hartifact
    refine ⟨stored, mem_update.mpr (Or.inl ⟨hstored, fun hsame => hopen ?_⟩), hfrom⟩
    rw [← hunique.eq_of_key hstored hrow (hsame.trans hid)]
    exact hfrom.finalized
  · intro other hother hfinalized
    rcases mem_update.mp hother with ⟨hother, -⟩ | ⟨old, -, -, rfl⟩
    · exact h.finalized other hother hfinalized
    · exact absurd hfinalized hnew
  · intro other hother hother_verified
    rcases mem_update.mp hother with ⟨hother, -⟩ | ⟨old, -, -, rfl⟩
    · exact h.verified other hother hother_verified
    · obtain ⟨verification, hchanges, hvouches⟩ := hverified hother_verified
      exact ⟨verification, by simp [SessionChanges.write, hchanges], hvouches⟩

end Store

theorem insertArtifact_eq_ok {rawArtifacts after : List RawArtifactRow} {row : RawArtifactRow} :
    insertArtifact rawArtifacts row = .ok after ↔
      (∀ stored ∈ rawArtifacts, stored.artifact.id ≠ row.artifact.id) ∧
      (∀ stored ∈ rawArtifacts, stored.sessionId ≠ row.sessionId) ∧
      (∀ stored ∈ rawArtifacts, stored.receiptId ≠ row.receiptId) ∧
      after = rawArtifacts ++ [row] := by
  simp only [insertArtifact, bind_eq_ok, require_eq_ok, pure_eq_ok, exists_const]
  refine and_congr_right fun _ => and_congr_right fun _ => and_congr_right fun _ => eq_comm

/-- A finalization stores the artifact of its session, which was not finalized before. -/
theorem StoreSound.committed {sessions : List SessionRow} {rawArtifacts after : List RawArtifactRow}
    {row : SessionRow} {f : Finalization} {phase : FinalizePhase} {previous : Option RawArtifact}
    {artifactId receiptId : Id} (h : StoreSound sessions rawArtifacts)
    (hunique : Tables.KeysUnique sessions) (hrow : row ∈ sessions)
    (hworking : Working row.session (.finalize f phase))
    (hinsert : insertArtifact rawArtifacts (newRow f (newArtifact f previous artifactId) receiptId) =
      .ok after) :
    StoreSound ((closedChanges none (some (newReceipt f artifactId receiptId)) none).update
      (finalizedOf f) sessions) after := by
  obtain ⟨-, hfresh, -, rfl⟩ := insertArtifact_eq_ok.mp hinsert
  have hid : f.session.id = row.session.id := hworking.id_eq.symm
  have hdescriptor : row.session.descriptor = f.session.descriptor :=
    congrArg (·.descriptor) hworking.same
  have hopen : row.session.status ≠ .finalized := by
    intro hfinalized
    obtain ⟨artifact, hartifact, hsession⟩ := h.finalized row hrow hfinalized
    exact hfresh artifact hartifact (hsession.trans hid.symm)
  have hnew : (closedChanges none (some (newReceipt f artifactId receiptId)) none).write
      (finalizedOf f) row ∈ (closedChanges none (some (newReceipt f artifactId receiptId)) none).update
        (finalizedOf f) sessions :=
    mem_update.mpr (Or.inr ⟨row, hrow, hid.symm, rfl⟩)
  constructor
  · intro artifact hartifact
    rcases List.mem_append.mp hartifact with hartifact | hartifact
    · obtain ⟨stored, hstored, hfrom⟩ := h.stored artifact hartifact
      refine ⟨stored, mem_update.mpr (Or.inl ⟨hstored, fun hsame => hopen ?_⟩), hfrom⟩
      rw [← hunique.eq_of_key hstored hrow (hsame.trans hid)]
      exact hfrom.finalized
    · rw [List.mem_singleton.mp hartifact]
      refine ⟨_, hnew, ?_⟩
      cases hworking with
      | finalize hsame hstatus hvouches =>
        exact {
          finalized := rfl
          session := rfl
          receipt := ⟨_, rfl, rfl, rfl⟩
          finalizedAt := rfl
          workspace := rfl
          source := rfl
          kind := rfl
          sourceUri := rfl
          canonicalUri := rfl
          digest := hvouches.digest.trans (congrArg (·.expectedSha256) hdescriptor)
          size := hvouches.size.trans (congrArg (·.expectedSizeBytes) hdescriptor) }
  · intro other hother hfinalized
    rcases mem_update.mp hother with ⟨hother, -⟩ | ⟨old, -, -, rfl⟩
    · obtain ⟨artifact, hartifact, hsession⟩ := h.finalized other hother hfinalized
      exact ⟨artifact, List.mem_append_left _ hartifact, hsession⟩
    · exact ⟨_, List.mem_append_right _ (List.mem_singleton.mpr rfl), rfl⟩
  · intro other hother hverified
    rcases mem_update.mp hother with ⟨hother, -⟩ | ⟨old, -, -, rfl⟩
    · exact h.verified other hother hverified
    · cases hverified
  · rw [List.map_append, List.nodup_append]
    refine ⟨h.once, List.nodup_singleton _, ?_⟩
    intro session hsession other hother
    obtain ⟨artifact, hartifact, rfl⟩ := List.mem_map.mp hsession
    rw [List.map_singleton, List.mem_singleton] at hother
    rw [hother]
    exact hfresh artifact hartifact

/-! ### The invariant -/

structure Sound (v : View) : Prop where
  unique : Tables.KeysUnique v.sessions
  tasks : TasksSound v.sessions v.tasks
  store : StoreSound v.sessions v.rawArtifacts

theorem sound_init : Sound State.init.view := by
  refine ⟨List.nodup_nil, ⟨?_, ?_⟩, ⟨?_, ?_, ?_, List.nodup_nil⟩⟩
  · intro t task h
    cases h
  · intro t u task other h
    cases h
  · intro artifact h
    cases h
  · intro row h
    cases h
  · intro row h
    cases h

namespace Sound

variable {platform : IngestionPlatform} {v w : View} {row : SessionRow} {t : Nat} {task : Task}

/-- The row of a session that a task works on. -/
theorem working (h : Sound v) (htask : v.tasks t = some task) (hrow : row ∈ v.sessions)
    (hid : row.session.id = task.session.id) : Working row.session task := by
  obtain ⟨stored, hstored, hworking⟩ := h.tasks.working t task htask
  rw [← h.unique.eq_of_key hstored hrow (hworking.id_eq.trans hid.symm)]
  exact hworking

/-- No task works on a session that was only created. -/
theorem no_task (h : Sound v) (hrow : row ∈ v.sessions) (hcreated : row.session.status = .created)
    (htask : v.tasks t = some task) : task.session.id ≠ row.session.id :=
  fun hid => (h.working htask hrow hid.symm).status_ne.1 hcreated

theorem started (h : Sound v) (now : Timestamp) (hrow : row ∈ v.sessions)
    (hcreated : row.session.status = .created) :
    Sound { v with sessions := uploadChanges.update (uploadingOf row.session now) v.sessions } := by
  refine ⟨unique_update h.unique, ?_, ?_⟩
  · refine h.tasks.update h.unique hrow rfl (fun _ => Or.inr rfl) fun u task htask hworking => ?_
    exact absurd hcreated hworking.status_ne.1
  · refine h.store.update h.unique hrow rfl ?_ ?_ ?_ <;> simp [hcreated, uploadingOf]

/-- Where an upload ends, nothing works on its session any more. -/
theorem no_other (h : Sound v) {session : ArtifactIngestionSession} {phase : UploadPhase}
    (htask : v.tasks t = some (.upload session phase)) {u : Nat}
    (hother : setTask v.tasks t none u = some task) : task.session.id ≠ session.id := by
  intro hid
  by_cases hu : u = t
  · rw [setTask, if_pos hu] at hother
    cases hother
  · rw [setTask, if_neg hu] at hother
    exact hu (h.tasks.alone t u _ task htask hother hid rfl)

/-- An upload ends, and its session is written. -/
theorem uploaded (h : Sound v) {session : ArtifactIngestionSession} {phase : UploadPhase}
    (htask : v.tasks t = some (.upload session phase)) (changes : SessionChanges)
    (next : ArtifactIngestionSession) (hid : next.id = session.id) (hnew : next.status ≠ .finalized)
    (hverified : next.status = .verified →
      ∃ verification, changes.verification = some verification ∧ Vouches next verification) :
    Sound { v with
      sessions := changes.update next v.sessions
      tasks := setTask v.tasks t none } := by
  obtain ⟨row, hrow, hworking⟩ := h.tasks.working t _ htask
  have hsame : next.id = row.session.id := hid.trans hworking.id_eq.symm
  refine ⟨unique_update h.unique, ?_, ?_⟩
  · refine h.tasks.update h.unique hrow hsame (ends_one v.tasks t) fun u task hother hwork => ?_
    exact absurd (hwork.id_eq.symm.trans hworking.id_eq) (h.no_other htask hother)
  · refine h.store.update h.unique hrow hsame (fun hfinalized => ?_) hnew hverified
    have huploads := hworking.not_uploads (Or.inr hfinalized)
    cases huploads

theorem moved (h : Sound v) (hmoved : Moved platform v w) : Sound w := by
  cases hmoved with
  | @opened row hfresh hcreated =>
    refine ⟨Tables.KeysUnique.append_singleton h.unique hfresh, ⟨?_, h.tasks.alone⟩,
      h.store.opened hcreated⟩
    intro t task htask
    obtain ⟨stored, hstored, hworking⟩ := h.tasks.working t task htask
    exact ⟨stored, List.mem_append_left _ hstored, hworking⟩
  | @started row now hrow hcreated => exact h.started now hrow hcreated
  | @uploading row now t hrow hcreated hfree =>
    have hstarted := h.started now hrow hcreated
    refine ⟨hstarted.unique, ?_, hstarted.store⟩
    refine hstarted.tasks.begin (mem_update.mpr (Or.inr ⟨row, hrow, rfl, rfl⟩))
      (.upload rfl (Or.inl rfl)) ?_
    intro u other hother hid
    exact absurd hid (h.no_task hrow hcreated hother)
  | @proceeded t session phase phase' content htask =>
    exact ⟨h.unique, h.tasks.kept (kept_setTask htask (.upload session phase phase')), h.store⟩
  | @verified t session received verifiedAt htask hmatched =>
    refine h.uploaded htask (verifiedChanges (verificationOf platform session received verifiedAt))
      { session with status := .verified, updatedAt := verifiedAt } rfl (by simp) fun _ => ?_
    exact ⟨_, rfl, (vouches_of_matched hmatched).congr rfl⟩
  | @rejected t session failure verification htask =>
    exact h.uploaded htask (closedChanges verification none (some failure))
      { session with status := .quarantined, updatedAt := failure.occurredAt } rfl (by simp) (by simp)
  | ended hended => exact ⟨h.unique, h.tasks.kept (kept_ended hended), h.store⟩
  | @finalizing row verification now t hrow hverified hverification hfree =>
    obtain ⟨stored, hstored, hvouches⟩ := h.store.verified row hrow hverified
    rw [hverification] at hstored
    cases hstored
    refine ⟨h.unique, h.tasks.begin hrow (.finalize rfl (Or.inl hverified) hvouches) ?_, h.store⟩
    intro u other hother hid
    exact ⟨rfl, (h.working hother hrow hid.symm).not_uploads (Or.inl hverified)⟩
  | linked htask hlink =>
    exact ⟨h.unique, h.tasks.kept (kept_setTask htask (.finalize _ _ _)), h.store⟩
  | hashed htask hverifies =>
    exact ⟨h.unique, h.tasks.kept (kept_setTask htask (.finalize _ _ _)), h.store⟩
  | removed htask =>
    exact ⟨h.unique, h.tasks.kept (kept_setTask htask (.finalize _ _ _)), h.store⟩
  | @committed t f artifactId receiptId rawArtifacts htask hinsert =>
    obtain ⟨row, hrow, hworking⟩ := h.tasks.working t _ htask
    refine ⟨unique_update h.unique, ?_, h.store.committed h.unique hrow hworking hinsert⟩
    refine h.tasks.update h.unique hrow hworking.id_eq.symm (ends_one v.tasks t) ?_
    intro u task hother hwork
    have hsame : asCreated (finalizedOf f) = asCreated row.session := hworking.same.symm
    have hother : setTask v.tasks t none u = some task := hother
    rcases ends_one v.tasks t u with hnone | hstill
    · rw [hnone] at hother
      cases hother
    · rw [hstill] at hother
      cases hwork with
      | upload hupload hstatus =>
        -- The finalization would be a second task on the session of an upload.
        have ht := h.tasks.alone u t _ _ hother htask
          (hworking.id_eq.symm.trans (Working.upload hupload hstatus).id_eq) rfl
        rw [← ht, htask] at hother
        cases hother
      | finalize hfinalize hstatus hvouches =>
        exact .finalize (hsame.trans hfinalize) (Or.inr (Or.inr rfl)) (hvouches.congr hsame)
  | cleaned => exact ⟨h.unique, h.tasks, h.store⟩
  | @aborted row failure hrow hlive =>
    refine ⟨unique_update h.unique, ?_, ?_⟩
    · exact h.tasks.update h.unique hrow rfl (fun _ => Or.inr rfl)
        fun u task htask hworking => hworking.aborted rfl rfl
    · exact h.store.update h.unique hrow rfl (fun hfinalized => hlive (Or.inl hfinalized)) (by simp)
        (by simp)

end Sound

/-! ### Settled sessions -/

/-- A session is over; one that was aborted only once nothing works on it any more. -/
structure Settled (v : View) (row : SessionRow) : Prop where
  stored : row ∈ v.sessions
  closed : row.session.status = .finalized ∨ row.session.status = .quarantined ∨
    row.session.status = .aborted ∧ ∀ t task, v.tasks t = some task → task.session.id ≠ row.session.id

namespace Settled

variable {platform : IngestionPlatform} {v w : View} {row : SessionRow} {t : Nat} {task : Task}

theorem terminal (h : Settled v row) : Terminal row.session.status := by
  rcases h.closed with hstatus | hstatus | ⟨hstatus, -⟩
  · exact Or.inl hstatus
  · exact Or.inr (Or.inr hstatus)
  · exact Or.inr (Or.inl hstatus)

/-- Only a finalization can still wait on a settled session, and then the session is finalized. -/
theorem finalized_of_task (h : Settled v row) (hv : Sound v) (htask : v.tasks t = some task)
    (hid : task.session.id = row.session.id) :
    row.session.status = .finalized ∧ task.uploads = false := by
  have hworking := hv.working htask h.stored hid.symm
  rcases h.closed with hstatus | hstatus | ⟨-, hfree⟩
  · exact ⟨hstatus, hworking.not_uploads (Or.inr hstatus)⟩
  · exact absurd hstatus hworking.status_ne.2
  · exact absurd hid (hfree t task htask)

/-- The write of another session leaves a settled one as it is, where no task begins on it. -/
theorem of_update (h : Settled v row) {changes : SessionChanges} {session : ArtifactIngestionSession}
    {contentObjects : List ContentObject} {rawArtifacts : List RawArtifactRow} {files : Files}
    {tasks : Nat → Option Task} (hid : row.session.id ≠ session.id)
    (hkept : ∀ u task', tasks u = some task' → task'.session.id ≠ row.session.id ∨
      ∃ task, v.tasks u = some task ∧ SameWork task task') :
    Settled ⟨changes.update session v.sessions, contentObjects, rawArtifacts, files, tasks⟩ row := by
  refine ⟨mem_update.mpr (Or.inl ⟨h.stored, hid⟩), h.closed.imp_right (Or.imp_right ?_)⟩
  rintro ⟨hstatus, hfree⟩
  refine ⟨hstatus, fun u task' htask' => ?_⟩
  rcases hkept u task' htask' with hother | ⟨task, htask, hwork⟩
  · exact hother
  · rw [hwork.session_eq]
    exact hfree u task htask

theorem of_kept (h : Settled v row) {contentObjects : List ContentObject}
    {rawArtifacts : List RawArtifactRow} {files : Files} {tasks : Nat → Option Task}
    (hkept : ∀ u task', tasks u = some task' → task'.session.id ≠ row.session.id ∨
      ∃ task, v.tasks u = some task ∧ SameWork task task') :
    Settled ⟨v.sessions, contentObjects, rawArtifacts, files, tasks⟩ row := by
  refine ⟨h.stored, h.closed.imp_right (Or.imp_right ?_)⟩
  rintro ⟨hstatus, hfree⟩
  refine ⟨hstatus, fun u task' htask' => ?_⟩
  rcases hkept u task' htask' with hother | ⟨task, htask, hwork⟩
  · exact hother
  · rw [hwork.session_eq]
    exact hfree u task htask

theorem moved (h : Settled v row) (hv : Sound v) (hmoved : Moved platform v w) : Settled w row := by
  -- A row with another status is another row.
  have hother : ∀ {old : SessionRow}, old ∈ v.sessions → ¬Terminal old.session.status →
      row.session.id ≠ old.session.id := by
    intro old hold hlive hid
    rw [← hv.unique.eq_of_key h.stored hold hid] at hlive
    exact hlive h.terminal
  cases hmoved with
  | opened hfresh hcreated =>
    exact ⟨List.mem_append_left _ h.stored, h.closed⟩
  | started hrow hcreated =>
    refine h.of_update (hother hrow ?_) fun u task' htask' => Or.inr ⟨task', htask', .refl task'⟩
    simp [Terminal, hcreated]
  | @uploading old now t hrow hcreated hfree =>
    have hne := hother hrow (by simp [Terminal, hcreated])
    refine h.of_update hne fun u task' htask' => ?_
    by_cases hu : u = t
    · rw [setTask, if_pos hu] at htask'
      cases htask'
      exact Or.inl hne.symm
    · rw [setTask, if_neg hu] at htask'
      exact Or.inr ⟨task', htask', .refl task'⟩
  | proceeded htask =>
    exact h.of_kept fun u task' htask' => Or.inr (kept_setTask htask (.upload _ _ _) u task' htask')
  | verified htask hmatched =>
    refine h.of_update (fun hid => ?_) fun u task' htask' =>
      Or.inr (kept_ended (ends_one v.tasks _) u task' htask')
    have huploads := (h.finalized_of_task hv htask hid.symm).2
    cases huploads
  | rejected htask =>
    refine h.of_update (fun hid => ?_) fun u task' htask' =>
      Or.inr (kept_ended (ends_one v.tasks _) u task' htask')
    have huploads := (h.finalized_of_task hv htask hid.symm).2
    cases huploads
  | ended hended => exact h.of_kept fun u task' htask' => Or.inr (kept_ended hended u task' htask')
  | @finalizing old verification now t hrow hverified hverification hfree =>
    have hne := hother hrow (by simp [Terminal, hverified])
    refine h.of_kept fun u task' htask' => ?_
    by_cases hu : u = t
    · rw [setTask, if_pos hu] at htask'
      cases htask'
      exact Or.inl hne.symm
    · rw [setTask, if_neg hu] at htask'
      exact Or.inr ⟨task', htask', .refl task'⟩
  | linked htask hlink =>
    exact h.of_kept fun u task' htask' => Or.inr (kept_setTask htask (.finalize _ _ _) u task' htask')
  | hashed htask hverifies =>
    exact h.of_kept fun u task' htask' => Or.inr (kept_setTask htask (.finalize _ _ _) u task' htask')
  | removed htask =>
    exact h.of_kept fun u task' htask' => Or.inr (kept_setTask htask (.finalize _ _ _) u task' htask')
  | committed htask hinsert =>
    refine h.of_update (fun hid => ?_) fun u task' htask' =>
      Or.inr (kept_ended (ends_one v.tasks _) u task' htask')
    -- The session has its artifact, and the insertion found none.
    have hfinalized := (h.finalized_of_task hv htask hid.symm).1
    obtain ⟨artifact, hartifact, hsession⟩ := hv.store.finalized row h.stored hfinalized
    exact (insertArtifact_eq_ok.mp hinsert).2.1 artifact hartifact (hsession.trans hid)
  | cleaned => exact h.of_kept fun u task' htask' => Or.inr ⟨task', htask', .refl task'⟩
  | aborted hrow hlive =>
    exact h.of_update (hother hrow hlive) fun u task' htask' =>
      Or.inr ⟨task', htask', .refl task'⟩

end Settled

/-! ### Every run -/

section Runs

variable {platform : IngestionPlatform}

theorem sound_step (s : State) (a : Action) (h : Sound s.view) :
    Sound ((machine platform).step s a).view :=
  Steps.invariant (fun _ _ hmoved hv => hv.moved hmoved) (step_moves h.unique a) h

theorem sound_run (ls : List Action) : Sound ((machine platform).run ls).view :=
  Machine.run_invariant sound_init sound_step ls

theorem settled_step {row : SessionRow} (s : State) (a : Action)
    (h : Sound s.view ∧ Settled s.view row) :
    Sound ((machine platform).step s a).view ∧ Settled ((machine platform).step s a).view row :=
  Steps.invariant (P := fun v => Sound v ∧ Settled v row)
    (fun _ _ hmoved hv => ⟨hv.1.moved hmoved, hv.2.moved hv.1 hmoved⟩) (step_moves h.1.unique a) h

/-- A session that is finalized or quarantined, or aborted with no task left on it, keeps its row, status
    and all, whatever is called, fails or crashes afterwards. -/
theorem settled_session_stays (ls ks : List Action) {row : SessionRow}
    (hsettled : Settled ((machine platform).run ls).view row) :
    Settled ((machine platform).run (ls ++ ks)).view row := by
  rw [Machine.run, Machine.runFrom_append]
  exact (Machine.runFrom_invariant settled_step ⟨sound_run ls, hsettled⟩ ks).2

/-- The artifacts and the finalized sessions belong together, one to one: an artifact is of the digest, the
    size and the kind its session was opened for, and is the one its receipt names. -/
theorem artifacts_of_sessions (ls : List Action) :
    let db := ((machine platform).run ls).db
    (db.rawArtifacts.map (·.sessionId)).Nodup ∧
      (∀ artifact ∈ db.rawArtifacts, ∃ row ∈ db.sessions, StoredFrom row artifact) ∧
      ∀ row ∈ db.sessions, row.session.status = .finalized →
        ∃ artifact ∈ db.rawArtifacts, StoredFrom row artifact := by
  intro db
  have h : Sound ((machine platform).run ls).view := sound_run ls
  refine ⟨h.store.once, h.store.stored, fun row hrow hfinalized => ?_⟩
  obtain ⟨artifact, hartifact, hsession⟩ := h.store.finalized row hrow hfinalized
  obtain ⟨stored, hstored, hfrom⟩ := h.store.stored artifact hartifact
  have hsame : stored = row := h.unique.eq_of_key hstored hrow (hfrom.session.symm.trans hsession)
  exact ⟨artifact, hartifact, hsame ▸ hfrom⟩

end Runs

/-! ### A session that is finalized -/

def samplePlatform : IngestionPlatform where
  toPlatform := Execution.samplePlatform fun _ => none
  sha256 _ := 0xca978112ca1bbdcafac231b39a23dc4da786eff8147c4e72b9807785afee48bb
  maxBytes := 1000

/-- A job is leased and its execution started. -/
def startedDatabase : Database :=
  Execution.step samplePlatform.toPlatform .default leasedDatabase ((startCall 2 1).op startRequest)

def sampleCaller : Caller where
  workerId := 1
  credential := "credential"
  leaseId := 1
  leaseToken := "token"
  checkedAt := 3

/-- The letter a, of which the platform gives the SHA-256. -/
def sampleContent : ByteArray := ⟨#[97]⟩

def sampleInput : CreateArtifactSessionInput where
  caller := sampleCaller
  descriptor :=
    { artifactKind := .text
      expectedSizeBytes := 1
      expectedSha256 := 0xca978112ca1bbdcafac231b39a23dc4da786eff8147c4e72b9807785afee48bb
      sourceUri := "https://a.test/"
      canonicalUri := some "https://a.test/"
      parentArtifactIds := none }
  descriptorHash := 1
  idempotencyKey := "letter"

/-- The session 1 is opened and its content uploaded. -/
def uploadSample : List Action :=
  [.elsewhere startedDatabase, .createSession sampleInput 3 1 1, .uploadContent 0 sampleCaller 1 4 2,
    .openFile 0 { code := "ARTIFACT_UPLOAD_FAILED", message := "failed", occurredAt := 4 },
    .writeChunk 0 sampleContent 4, .closeFile 0]

def finalizeSample : List Action :=
  uploadSample ++ [.verifyUpload 0 5 3, .finalize 1 sampleCaller 1 6, .linkObject 1, .hashObject 1,
    .removeTemporary 1, .commitFinalized 1 1 1 4]

theorem settled_session_stays_sample : ∃ row, row.session.status = .finalized ∧
    Settled ((machine samplePlatform).run
      (finalizeSample ++ [.crash, .abort sampleCaller 1 none 7 5 true])).view row := by
  have hstatus : ((machine samplePlatform).run finalizeSample).db.sessions.head?.map
      (·.session.status) = some .finalized := by decide +kernel
  generalize hrun : (machine samplePlatform).run finalizeSample = s at hstatus
  obtain ⟨row, hrow, hfinalized⟩ := Option.map_eq_some_iff.mp hstatus
  have hsettled : Settled ((machine samplePlatform).run finalizeSample).view row :=
    hrun ▸ ⟨List.mem_of_head? hrow, Or.inl hfinalized⟩
  exact ⟨row, hfinalized, settled_session_stays finalizeSample _ hsettled⟩

/-- An upload that waits turns an aborted session into a verified one. -/
example : let aborted := uploadSample ++ [.abort sampleCaller 1 none 5 7 true]
    ((machine samplePlatform).run aborted).db.sessions.map (·.session.status) = [.aborted] ∧
      ((machine samplePlatform).run (aborted ++ [.verifyUpload 0 5 3])).db.sessions.map
        (·.session.status) = [.verified] := by
  decide +kernel

end MarkorbitKnowledge.Ingestion
