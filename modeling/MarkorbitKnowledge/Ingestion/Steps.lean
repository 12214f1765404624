import MarkorbitKnowledge.Ingestion.Moves

/-!
# The steps of the registry

Each step is a sequence of moves (`step_moves`).  Only `cleanupAbandoned` makes more than two: for every
session it gives up, it removes the file and writes the session.
-/

namespace MarkorbitKnowledge.Ingestion

open Contracts Fallible Execution Transitions

/-! ### Sessions that are written -/

section Sessions

variable {changes : SessionChanges} {session : ArtifactIngestionSession} {sessions : List SessionRow}

theorem mem_update {row : SessionRow} :
    row ∈ changes.update session sessions ↔ (row ∈ sessions ∧ row.session.id ≠ session.id) ∨
      ∃ old ∈ sessions, old.session.id = session.id ∧ row = changes.write session old := by
  rw [SessionChanges.update, List.mem_map]
  constructor
  · rintro ⟨old, hold, rfl⟩
    by_cases hid : old.session.id = session.id
    · rw [if_pos hid]
      exact Or.inr ⟨old, hold, hid, rfl⟩
    · rw [if_neg hid]
      exact Or.inl ⟨hold, hid⟩
  · rintro (⟨hrow, hid⟩ | ⟨old, hold, hid, rfl⟩)
    · exact ⟨row, hrow, if_neg hid⟩
    · exact ⟨old, hold, if_pos hid⟩

theorem keys_update : (changes.update session sessions).map (·.session.id) =
    sessions.map (·.session.id) := by
  rw [SessionChanges.update, List.map_map]
  refine List.map_congr_left fun row _ => ?_
  by_cases hid : row.session.id = session.id
  · simp [hid, SessionChanges.write]
  · simp [hid]

theorem unique_update (h : Tables.KeysUnique sessions) :
    Tables.KeysUnique (changes.update session sessions) := by
  have hkeys := @keys_update changes session sessions
  exact (hkeys ▸ h : ((changes.update session sessions).map (·.session.id)).Nodup)

end Sessions

/-! ### Steps -/

theorem Files.setSession_self (files : Files) (id : Id) :
    files.setSession id (files.sessions id) = files := by
  have hsessions : (fun i => if i = id then files.sessions id else files.sessions i) =
      files.sessions := by
    funext i
    by_cases h : i = id <;> simp [h]
  rw [Files.setSession, hsessions]

/-- A transaction that fails leaves the database as it was. -/
theorem transaction_cases (body : Database → Except RegistryError Database) (db : Database) :
    (commit (fun db => (body db).map fun db => ((), db)) db).2 = db ∨
      ∃ db', body db = .ok db' ∧ (commit (fun db => (body db).map fun db => ((), db)) db).2 = db' := by
  cases h : body db with
  | error e => exact Or.inl (by simp [commit, h, Except.map])
  | ok db' => exact Or.inr ⟨db', rfl, by simp [commit, h, Except.map]⟩

theorem view_mk (db : Database) (files : Files) (tasks : Nat → Option Task) :
    (State.mk db files tasks).view = viewOf db files tasks := rfl

section Steps

variable {platform : IngestionPlatform} {s : State} {t : Nat}

theorem ends_one (tasks : Nat → Option Task) (t : Nat) :
    ∀ u, setTask tasks t none u = none ∨ setTask tasks t none u = tasks u := by
  intro u
  by_cases h : u = t
  · exact Or.inl (by rw [setTask, if_pos h])
  · exact Or.inr (by rw [setTask, if_neg h])

/-- A task that ends, and nothing else. -/
theorem moved_ended (s : State) (t : Nat) :
    Moved platform s.view { s.view with tasks := setTask s.tasks t none } :=
  .ended (ends_one s.tasks t)

theorem stepUpload_moved {session : ArtifactIngestionSession} {phase : UploadPhase}
    (htask : s.tasks t = some (.upload session phase)) (a : Action) :
    s.view = (stepUpload platform s t session phase a).view ∨
      Moved platform s.view (stepUpload platform s t session phase a).view := by
  have hphase : ∀ phase', Moved platform s.view
      { s.view with tasks := setTask s.tasks t (some (.upload session phase')) } := by
    intro phase'
    have hfiles : s.view.files.setSession session.id (s.files.sessions session.id) = s.view.files :=
      Files.setSession_self s.files session.id
    have h := @Moved.proceeded platform s.view t session phase phase'
      (s.files.sessions session.id) htask
    rw [hfiles] at h
    exact h
  unfold stepUpload
  split
  · split
    · exact Or.inr (hphase _)
    · exact Or.inr (.proceeded htask)
  · split
    · exact Or.inr (.proceeded htask)
    · exact Or.inr (.proceeded htask)
  · exact Or.inr (hphase _)
  · exact Or.inr (hphase _)
  · exact Or.inr (.proceeded htask)
  · rename_i received _ verifiedAt eventId
    dsimp only
    split
    · rename_i hmatched
      right
      rcases transaction_cases (verifySession session
        (verificationOf platform session received verifiedAt) eventId) s.db with h | ⟨db, hbody, h⟩
      · rw [h]
        exact moved_ended s t
      · rw [h, view_mk db, verifySession_spec hbody]
        exact .verified htask hmatched.2
    · split
      · exact Or.inr (hphase _)
      · exact Or.inr (moved_ended s t)
  · exact Or.inr (.proceeded htask)
  · rename_i failure verification _ eventId
    right
    rcases transaction_cases (rejectSession session failure verification eventId) s.db with
      h | ⟨db, hbody, h⟩
    · rw [h]
      exact moved_ended s t
    · rw [h, view_mk db, rejectSession_spec hbody]
      exact .rejected htask
  · exact Or.inl rfl

theorem stepFinalize_moved {f : Finalization} {phase : FinalizePhase}
    (htask : s.tasks t = some (.finalize f phase)) (a : Action) :
    s.view = (stepFinalize platform s t f phase a).view ∨
      Moved platform s.view (stepFinalize platform s t f phase a).view := by
  unfold stepFinalize
  split
  · split
    · exact Or.inr (moved_ended s t)
    · rename_i files hlink
      exact Or.inr (.linked htask hlink)
  · split
    · rename_i hverifies
      exact Or.inr (.hashed htask hverifies)
    · exact Or.inr (moved_ended s t)
  · exact Or.inr (.removed htask)
  · rename_i _ artifactId receiptId eventId
    right
    rcases transaction_cases (finalizeSession f artifactId receiptId eventId) s.db with
      h | ⟨db, hbody, h⟩
    · rw [h]
      exact moved_ended s t
    · obtain ⟨rawArtifacts, hinsert, hview⟩ :=
        finalizeSession_spec hbody s.files (setTask s.tasks t none)
      rw [h, view_mk db, hview]
      exact .committed htask hinsert
  · exact Or.inl rfl

theorem steps_of_moved {v w : View} (h : v = w ∨ Moved platform v w) :
    Steps (Moved platform) v w := by
  rcases h with rfl | h
  · exact Relation.ReflTransGen.refl
  · exact Relation.ReflTransGen.single h

theorem cleaned_cleanupSession (v : View) (row : SessionRow) :
    v = { v with files := cleanupSession v.files row } ∨
      Moved platform v { v with files := cleanupSession v.files row } := by
  unfold cleanupSession
  split
  · exact Or.inr .cleaned
  · exact Or.inl rfl

theorem stepAbort_moves (caller : Caller) (sessionId : Id) (reason : Option String)
    (now : Timestamp) (eventId : Id) (commits : Bool) :
    Steps (Moved platform) s.view
      (stepAbort platform s caller sessionId reason now eventId commits).view := by
  unfold stepAbort
  split
  · rename_i session hbegin
    obtain ⟨row, hrow, hid, rfl, hlive⟩ := beginAbort_spec hbegin
    have hfiles : Steps (Moved platform) s.view { s.view with
        files := ((Tables.find? s.db.sessions sessionId).map (cleanupSession s.files)).getD s.files } := by
      cases Tables.find? s.db.sessions sessionId with
      | none => exact Relation.ReflTransGen.refl
      | some found => exact steps_of_moved (cleaned_cleanupSession s.view found)
    cases commits with
    | false => exact hfiles
    | true =>
      dsimp only
      rcases transaction_cases (abortSession row.session
        { code := "ARTIFACT_INGESTION_ABORTED", message := abortReason reason, occurredAt := now }
          eventId) s.db with h | ⟨db, hbody, h⟩
      · rw [if_pos rfl, h]
        exact hfiles
      · rw [if_pos rfl, h]
        refine hfiles.tail ?_
        rw [view_mk db, abortSession_spec hbody]
        exact .aborted hrow hlive
  · exact Relation.ReflTransGen.refl

theorem cleanupRows_files {now : Timestamp} {eventIds : Id → Id} (rows : List SessionRow)
    {db : Database} (v : View) : Steps (Moved platform) v
      { v with files := (cleanupRows now eventIds rows v.files db).1 } := by
  induction rows generalizing v db with
  | nil => exact Relation.ReflTransGen.refl
  | cons row rows ih =>
    have hfirst := steps_of_moved (@cleaned_cleanupSession platform v row)
    unfold cleanupRows
    split
    · exact hfirst
    · exact hfirst.trans (ih _)

theorem abandonSession_moved {now : Timestamp} {row : SessionRow} {eventId : Id} {db db' : Database}
    (hunique : Tables.KeysUnique db.sessions) (hrow : row ∈ db.sessions)
    (hlive : ¬Terminal row.session.status)
    (h : abandonSession now db row.session.id eventId = .ok db') (files : Files)
    (tasks : Nat → Option Task) :
    Moved platform (viewOf db files tasks) (viewOf db' files tasks) ∧
      db'.sessions = (closedChanges none none (some (abandonedFailure now))).update
        { row.session with status := .aborted, updatedAt := now } db.sessions := by
  simp only [abandonSession, bind_eq_ok] at h
  obtain ⟨record, hrecord, h⟩ := h
  obtain ⟨found, hfound, hid, hsession, -⟩ := requireSession_spec hrecord
  have hsame : found = row := hunique.eq_of_key hfound hrow hid
  subst hsame
  rw [hsession] at h
  have hview := abortSession_spec h files tasks
  constructor
  · rw [hview]
    exact .aborted hrow hlive
  · exact congrArg View.sessions hview

/-- Each session of `cleanupAbandoned` loses its file and is aborted. -/
theorem cleanupRows_moves {now : Timestamp} {eventIds : Id → Id} {rows : List SessionRow}
    {files : Files} {db db' : Database} (hunique : Tables.KeysUnique db.sessions)
    (hrows : ∀ row ∈ rows, row ∈ db.sessions) (hnodup : Tables.KeysUnique rows)
    (hlive : ∀ row ∈ rows, ¬Terminal row.session.status)
    (h : (cleanupRows now eventIds rows files db).2 = .ok db') (tasks : Nat → Option Task) :
    Steps (Moved platform) (viewOf db files tasks)
      (viewOf db' (cleanupRows now eventIds rows files db).1 tasks) := by
  induction rows generalizing files db with
  | nil =>
    cases h
    exact Relation.ReflTransGen.refl
  | cons row rows ih =>
    have hcleaned := steps_of_moved
      (@cleaned_cleanupSession platform (viewOf db files tasks) row)
    unfold cleanupRows at h ⊢
    cases habandon : abandonSession now db row.session.id (eventIds row.session.id) with
    | error e =>
      rw [habandon] at h
      cases h
    | ok db₁ =>
      rw [habandon] at h
      dsimp only at h ⊢
      obtain ⟨hmoved, hsessions⟩ := @abandonSession_moved platform now row _ db db₁ hunique
        (hrows row List.mem_cons_self) (hlive row List.mem_cons_self) habandon
        (cleanupSession files row) tasks
      obtain ⟨hother, hnodup⟩ := List.nodup_cons.mp hnodup
      refine (hcleaned.tail hmoved).trans (ih ?_ ?_ hnodup ?_ h)
      · rw [hsessions]
        exact unique_update hunique
      · intro other hmem
        rw [hsessions, mem_update]
        refine Or.inl ⟨hrows other (List.mem_cons_of_mem row hmem), fun hid => hother ?_⟩
        exact List.mem_map.mpr ⟨other, hmem, hid⟩
      · exact fun other hmem => hlive other (List.mem_cons_of_mem row hmem)

theorem stepCleanup_moves (hunique : Tables.KeysUnique s.db.sessions) (olderThan now : Timestamp)
    (eventIds : Id → Id) (commits : Bool) :
    Steps (Moved platform) s.view (stepCleanup s olderThan now eventIds commits).view := by
  have hfiles := @cleanupRows_files platform now eventIds (abandonedSessions s.db olderThan) s.db
    s.view
  have hrows : ∀ row ∈ abandonedSessions s.db olderThan,
      row ∈ s.db.sessions ∧ ¬Terminal row.session.status := by
    intro row hrow
    obtain ⟨hrow, hlive⟩ := List.mem_filter.mp hrow
    simp only [Bool.and_eq_true, Bool.or_eq_true, decide_eq_true_eq] at hlive
    refine ⟨hrow, fun hterminal => ?_⟩
    rcases hlive.1 with hstatus | hstatus <;> simp [Terminal, hstatus] at hterminal
  unfold stepCleanup
  cases hresult : (cleanupRows now eventIds (abandonedSessions s.db olderThan) s.files s.db).2 with
  | error e =>
    simp only [hresult, Except.toOption, Option.getD_none, ite_self]
    exact hfiles
  | ok db =>
    cases commits with
    | false => exact hfiles
    | true =>
      simp only [hresult, Except.toOption, Option.getD_some, if_true]
      exact cleanupRows_moves hunique (fun row hrow => (hrows row hrow).1)
        (hunique.filter _) (fun row hrow => (hrows row hrow).2) hresult s.tasks

/-! ### A step -/

theorem moved_of_task (a : Action) : Steps (Moved platform) s.view (stepTask platform s a).view := by
  unfold stepTask
  split
  · exact Relation.ReflTransGen.refl
  · split
    · exact Relation.ReflTransGen.refl
    · rename_i htask
      exact steps_of_moved (stepUpload_moved htask a)
    · rename_i htask
      exact steps_of_moved (stepFinalize_moved htask a)

/-- Every step of the registry is a sequence of moves. -/
theorem step_moves (hunique : Tables.KeysUnique s.db.sessions) (a : Action) :
    Steps (Moved platform) s.view (step platform s a).view := by
  cases a with
  | elsewhere db => exact Relation.ReflTransGen.refl
  | createSession input now sessionId eventId =>
    simp only [step]
    cases h : createSession platform input now sessionId eventId s.db with
    | error e =>
      simp only [commit, h]
      exact Relation.ReflTransGen.refl
    | ok created =>
      obtain ⟨result, db⟩ := created
      simp only [commit, h]
      obtain rfl | ⟨row, hfresh, hcreated, hview⟩ := createSession_spec h
      · exact Relation.ReflTransGen.refl
      · refine Relation.ReflTransGen.single ?_
        rw [view_mk db, hview]
        exact .opened hfresh hcreated
  | uploadContent t caller sessionId now eventId =>
    simp only [step]
    split
    · exact Relation.ReflTransGen.refl
    · rename_i hfree
      have hfree : s.tasks t = none := by simpa using hfree
      cases hbegin : beginUpload platform caller sessionId now eventId s.db with
      | mk result db =>
        rcases beginUpload_spec hbegin with ⟨rfl, hnone⟩ | ⟨row, hrow, hcreated, hsession, hview⟩
        · split
          · rename_i uploading _ heq
            cases heq
            exact absurd rfl (hnone uploading)
          · rename_i heq
            cases heq
            exact Relation.ReflTransGen.refl
        · refine Relation.ReflTransGen.single ?_
          split
          · rename_i uploading _ heq
            cases heq
            rw [view_mk db, hview, hsession uploading rfl]
            exact .uploading hrow hcreated hfree
          · rename_i heq
            cases heq
            rw [view_mk db, hview]
            exact .started hrow hcreated
  | finalize t caller sessionId now =>
    simp only [step]
    split
    · exact Relation.ReflTransGen.refl
    · rename_i hfree
      have hfree : s.tasks t = none := by simpa using hfree
      split
      · rename_i f hbegin
        obtain ⟨row, hrow, hverified, hverification, hsession⟩ := beginFinalize_spec hbegin
        refine Relation.ReflTransGen.single ?_
        have hmoved := @Moved.finalizing platform s.view row f.verification f.now t hrow hverified
          hverification hfree
        rw [← hsession] at hmoved
        exact hmoved
      · exact Relation.ReflTransGen.refl
  | abort caller sessionId reason now eventId commits =>
    exact stepAbort_moves caller sessionId reason now eventId commits
  | cleanupAbandoned olderThan now eventIds commits =>
    exact stepCleanup_moves hunique olderThan now eventIds commits
  | throws t => exact Relation.ReflTransGen.single (moved_ended s t)
  | crash => exact Relation.ReflTransGen.single (.ended fun _ => Or.inl rfl)
  | openFile t failure => exact moved_of_task _
  | writeChunk t chunk failedAt => exact moved_of_task _
  | closeFile t => exact moved_of_task _
  | failUpload t failure => exact moved_of_task _
  | verifyUpload t verifiedAt eventId => exact moved_of_task _
  | quarantine t => exact moved_of_task _
  | rejectUpload t eventId => exact moved_of_task _
  | linkObject t => exact moved_of_task _
  | hashObject t => exact moved_of_task _
  | removeTemporary t => exact moved_of_task _
  | commitFinalized t artifactId receiptId eventId => exact moved_of_task _

end Steps

end MarkorbitKnowledge.Ingestion
