import MarkorbitKnowledge.Ingestion.Lifecycle

/-!
# Content objects and their references

The file of a content object is linked before the transaction that counts it, and is never written or
removed after that; a finalization that fails in between leaves a file that nothing refers to.  What is
counted is there: every artifact has its content object, which counts its artifacts, and every content
object has its file (`content_accounted`).
-/

namespace MarkorbitKnowledge.Ingestion

open Contracts Fallible Execution Transitions

/-! ### Files -/

/-- The content objects that are there keep their content. -/
def Files.Keeps (files files' : Files) : Prop :=
  ∀ digest content, files.objects digest = some content → files'.objects digest = some content

section Files

variable {platform : IngestionPlatform} {files files' : Files} {digest : Digest} {size : Nat}

theorem Files.Keeps.refl (files : Files) : files.Keeps files := fun _ _ h => h

theorem Files.Keeps.setSession (files : Files) (id : Id) (content : Option ByteArray) :
    files.Keeps (files.setSession id content) := fun _ _ h => h

theorem Files.Keeps.linkObject {id : Id} (h : files.linkObject id digest = some files') :
    files.Keeps files' := by
  obtain ⟨content, -, rfl⟩ := Option.map_eq_some_iff.mp h
  intro d kept hkept
  by_cases hd : d = digest
  · rw [hd] at hkept
    simp [hd, hkept]
  · simp [hd, hkept]

theorem verifiesObject_iff : verifiesObject platform files digest size = true ↔
    ∃ content, files.objects digest = some content ∧ platform.sha256 content = digest ∧
      content.size = size := by
  simp [verifiesObject, Option.any_eq_true]

theorem Files.Keeps.verifies (h : files.Keeps files')
    (hverifies : verifiesObject platform files digest size = true) :
    verifiesObject platform files' digest size = true := by
  obtain ⟨content, hcontent, hdigest, hsize⟩ := verifiesObject_iff.mp hverifies
  exact verifiesObject_iff.mpr ⟨content, h digest content hcontent, hdigest, hsize⟩

theorem moved_keeps {v w : View} (h : Moved platform v w) : v.files.Keeps w.files := by
  cases h with
  | linked htask hlink => exact .linkObject hlink
  | proceeded htask => exact .setSession _ _ _
  | removed htask => exact .setSession _ _ _
  | cleaned => exact .setSession _ _ _
  | opened hfresh hcreated => exact .refl _
  | started hrow hcreated => exact .refl _
  | uploading hrow hcreated hfree => exact .refl _
  | verified htask hmatched => exact .refl _
  | rejected htask => exact .refl _
  | ended hended => exact .refl _
  | finalizing hrow hverified hverification hfree => exact .refl _
  | hashed htask hverifies => exact .refl _
  | committed htask hinsert => exact .refl _
  | aborted hrow hlive => exact .refl _

end Files

/-! ### References -/

/-- The artifacts of a content. -/
def references (rawArtifacts : List RawArtifactRow) (digest : Digest) : Nat :=
  rawArtifacts.countP fun row => decide (row.artifact.binaryHash = digest)

/-- The content objects of a list of artifacts. -/
structure Counted (objects : List ContentObject) (rawArtifacts : List RawArtifactRow) : Prop where
  unique : Tables.KeysUnique objects
  counted : ∀ object ∈ objects, object.referenceCount = references rawArtifacts object.digest
  used : ∀ object ∈ objects, 0 < object.referenceCount
  object : ∀ row ∈ rawArtifacts, ∃ object ∈ objects,
    object.digest = row.artifact.binaryHash ∧ object.sizeBytes = row.artifact.sizeBytes

section References

variable {objects : List ContentObject} {rawArtifacts : List RawArtifactRow} {row : RawArtifactRow}
  {digest : Digest} {size : Nat} {now : Timestamp}

theorem references_append (rawArtifacts : List RawArtifactRow) (row : RawArtifactRow)
    (digest : Digest) : references (rawArtifacts ++ [row]) digest =
      references rawArtifacts digest + if row.artifact.binaryHash = digest then 1 else 0 := by
  rw [references, List.countP_append, List.countP_singleton]
  simp [references]

theorem references_fresh (h : ∀ stored ∈ rawArtifacts, stored.artifact.binaryHash ≠ digest) :
    references rawArtifacts digest = 0 := by
  rw [references, List.countP_eq_zero]
  intro stored hstored
  simpa using h stored hstored

/-- An artifact is stored, and its content object is counted up or inserted. -/
theorem Counted.stored (h : Counted objects rawArtifacts)
    (hsize : ∀ object ∈ objects, object.digest = row.artifact.binaryHash →
      object.sizeBytes = row.artifact.sizeBytes) :
    Counted (countObject objects row.artifact.binaryHash row.artifact.sizeBytes now)
      (rawArtifacts ++ [row]) := by
  have hother : ∀ object ∈ objects, object.digest ≠ row.artifact.binaryHash →
      object.referenceCount = references (rawArtifacts ++ [row]) object.digest := by
    intro object hobject hne
    rw [references_append, if_neg hne.symm, h.counted object hobject, Nat.add_zero]
  unfold countObject
  split
  · rename_i hnone
    have hfresh := Tables.find?_eq_none.mp hnone
    refine ⟨h.unique.append_singleton hfresh, ?_, ?_, ?_⟩
    · intro object hobject
      rcases List.mem_append.mp hobject with hobject | hobject
      · exact hother object hobject (hfresh object hobject)
      · rw [List.mem_singleton.mp hobject]
        have hnever : ∀ stored ∈ rawArtifacts, stored.artifact.binaryHash ≠ row.artifact.binaryHash := by
          intro stored hstored hsame
          obtain ⟨object, hobject, hdigest, -⟩ := h.object stored hstored
          exact hfresh object hobject (hdigest.trans hsame)
        rw [references_append, references_fresh hnever, if_pos rfl]
    · intro object hobject
      rcases List.mem_append.mp hobject with hobject | hobject
      · exact h.used object hobject
      · rw [List.mem_singleton.mp hobject]
        exact Nat.one_pos
    · intro stored hstored
      rcases List.mem_append.mp hstored with hstored | hstored
      · obtain ⟨object, hobject, hmatches⟩ := h.object stored hstored
        exact ⟨object, List.mem_append_left _ hobject, hmatches⟩
      · rw [List.mem_singleton.mp hstored]
        exact ⟨_, List.mem_append_right _ (List.mem_singleton.mpr rfl), rfl, rfl⟩
  · rename_i found hfound
    have hmem := Tables.mem_of_find? hfound
    have hdigest : found.digest = row.artifact.binaryHash := Tables.key_of_find? hfound
    refine ⟨h.unique.update _, ?_, ?_, ?_⟩
    · intro object hobject
      rcases Tables.mem_update.mp hobject with ⟨hobject, hne⟩ | ⟨rfl, -⟩
      · exact hother object hobject (hdigest ▸ hne)
      · rw [references_append, if_pos hdigest.symm, ← h.counted found hmem]
    · intro object hobject
      rcases Tables.mem_update.mp hobject with ⟨hobject, -⟩ | ⟨rfl, -⟩
      · exact h.used object hobject
      · exact Nat.succ_pos _
    · intro stored hstored
      rcases List.mem_append.mp hstored with hstored | hstored
      · obtain ⟨object, hobject, hsame, hbytes⟩ := h.object stored hstored
        by_cases hkey : object.digest = found.digest
        · have heq : object = found := h.unique.eq_of_key hobject hmem hkey
          exact ⟨_, Tables.mem_update.mpr (Or.inr ⟨rfl, found, hmem, rfl⟩), heq ▸ hsame, heq ▸ hbytes⟩
        · exact ⟨object, Tables.mem_update.mpr (Or.inl ⟨hobject, hkey⟩), hsame, hbytes⟩
      · rw [List.mem_singleton.mp hstored]
        exact ⟨_, Tables.mem_update.mpr (Or.inr ⟨rfl, found, hmem, rfl⟩), hdigest,
          hsize found hmem hdigest⟩

end References

/-! ### The invariant -/

/-- A finalization that has found its object, with the digest and the size of its upload. -/
def Found (platform : IngestionPlatform) (files : Files) : Task → Prop
  | .finalize f .removing | .finalize f .committing =>
    verifiesObject platform files f.verification.observedSha256 f.verification.observedSizeBytes = true
  | _ => True

structure Accounted (platform : IngestionPlatform) (v : View) : Prop where
  counted : Counted v.contentObjects v.rawArtifacts
  stored : ∀ object ∈ v.contentObjects,
    verifiesObject platform v.files object.digest object.sizeBytes = true
  found : ∀ t task, v.tasks t = some task → Found platform v.files task

section Invariant

variable {platform : IngestionPlatform} {v w : View} {files files' : Files} {task : Task}
  {tasks tasks' : Nat → Option Task}

theorem Files.Keeps.found (h : files.Keeps files') (hfound : Found platform files task) :
    Found platform files' task := by
  cases task with
  | upload session phase => trivial
  | finalize f phase =>
    cases phase with
    | linking => trivial
    | hashing => trivial
    | removing => exact h.verifies hfound
    | committing => exact h.verifies hfound

theorem found_setTask (h : ∀ t task, tasks t = some task → Found platform files task) {t : Nat}
    {next : Option Task} (hnext : ∀ task, next = some task → Found platform files task) :
    ∀ u task, setTask tasks t next u = some task → Found platform files task := by
  intro u task htask
  by_cases hu : u = t
  · rw [setTask, if_pos hu] at htask
    exact hnext task htask
  · rw [setTask, if_neg hu] at htask
    exact h u task htask

/-- The content objects after one is counted are those before, and the one of the digest. -/
theorem of_mem_countObject {objects : List ContentObject} {digest : Digest} {size : Nat}
    {now : Timestamp} {object : ContentObject} (h : object ∈ countObject objects digest size now) :
    (∃ stored ∈ objects, object.digest = stored.digest ∧ object.sizeBytes = stored.sizeBytes) ∨
      object.digest = digest ∧ object.sizeBytes = size := by
  unfold countObject at h
  split at h
  · rcases List.mem_append.mp h with h | h
    · exact Or.inl ⟨object, h, rfl, rfl⟩
    · rw [List.mem_singleton.mp h]
      exact Or.inr ⟨rfl, rfl⟩
  · rename_i stored hfound
    rcases Tables.mem_update.mp h with ⟨h, -⟩ | ⟨rfl, -⟩
    · exact Or.inl ⟨object, h, rfl, rfl⟩
    · exact Or.inl ⟨stored, Tables.mem_of_find? hfound, rfl, rfl⟩

namespace Accounted

theorem kept (h : Accounted platform v) (hfiles : v.files.Keeps files)
    (hfound : ∀ t task, tasks t = some task → Found platform files task)
    (sessions : List SessionRow) :
    Accounted platform ⟨sessions, v.contentObjects, v.rawArtifacts, files, tasks⟩ :=
  ⟨h.counted, fun object hobject => hfiles.verifies (h.stored object hobject), hfound⟩

theorem moved (h : Accounted platform v) (hmoved : Moved platform v w) : Accounted platform w := by
  have hnone : ∀ task, (none : Option Task) = some task → Found platform v.files task :=
    fun task hnone => absurd hnone (by simp)
  cases hmoved with
  | opened hfresh hcreated => exact h.kept (.refl _) h.found _
  | started hrow hcreated => exact h.kept (.refl _) h.found _
  | uploading hrow hcreated hfree =>
    refine h.kept (.refl _) (found_setTask h.found ?_) _
    intro task htask
    cases htask
    trivial
  | proceeded htask =>
    have hkeeps := Files.Keeps.setSession v.files
    refine h.kept (hkeeps _ _) (found_setTask (fun u task hu => (hkeeps _ _).found (h.found u task hu)) ?_)
      _
    intro task htask
    cases htask
    trivial
  | verified htask hmatched => exact h.kept (.refl _) (found_setTask h.found hnone) _
  | rejected htask => exact h.kept (.refl _) (found_setTask h.found hnone) _
  | ended hended =>
    refine h.kept (.refl _) (fun u task hu => ?_) _
    rcases hended u with hend | hstill
    · rw [hend] at hu
      cases hu
    · exact h.found u task (hstill ▸ hu)
  | finalizing hrow hverified hverification hfree =>
    refine h.kept (.refl _) (found_setTask h.found ?_) _
    intro task htask
    cases htask
    trivial
  | linked htask hlink =>
    have hkeeps := Files.Keeps.linkObject hlink
    refine h.kept hkeeps (found_setTask (fun u task hu => hkeeps.found (h.found u task hu)) ?_) _
    intro task htask
    cases htask
    trivial
  | hashed htask hverifies =>
    refine h.kept (.refl _) (found_setTask h.found ?_) _
    intro task htask
    cases htask
    exact hverifies
  | @removed t f htask =>
    have hkeeps := Files.Keeps.setSession v.files f.session.id none
    refine h.kept hkeeps (found_setTask (fun u task hu => hkeeps.found (h.found u task hu)) ?_) _
    intro task hnext
    cases hnext
    have hfound : verifiesObject platform v.files f.verification.observedSha256
      f.verification.observedSizeBytes = true := h.found t _ htask
    exact hkeeps.verifies hfound
  | @committed t f artifactId receiptId rawArtifacts htask hinsert =>
    obtain ⟨-, -, -, rfl⟩ := insertArtifact_eq_ok.mp hinsert
    have hfound : verifiesObject platform v.files f.verification.observedSha256
      f.verification.observedSizeBytes = true := h.found t _ htask
    obtain ⟨content, hcontent, -, hsize⟩ := verifiesObject_iff.mp hfound
    refine ⟨@Counted.stored _ _ (newRow f (newArtifact f _ artifactId) receiptId) f.now h.counted ?_, ?_,
      found_setTask h.found hnone⟩
    · -- Both sizes are that of the file.
      intro object hobject hdigest
      obtain ⟨kept, hkept, -, hbytes⟩ := verifiesObject_iff.mp (h.stored object hobject)
      rw [hdigest] at hkept
      have hsame : kept = content := Option.some.inj (hkept.symm.trans hcontent)
      rw [← hbytes, hsame]
      exact hsize
    · intro object hobject
      rcases of_mem_countObject hobject with ⟨stored, hstored, hdigest, hbytes⟩ | ⟨hdigest, hbytes⟩
      · rw [hdigest, hbytes]
        exact h.stored stored hstored
      · rw [hdigest, hbytes]
        exact hfound
  | cleaned =>
    have hkeeps := Files.Keeps.setSession v.files
    exact h.kept (hkeeps _ _) (fun u task hu => (hkeeps _ _).found (h.found u task hu)) _
  | aborted hrow hlive => exact h.kept (.refl _) h.found _

theorem init : Accounted platform State.init.view := by
  refine ⟨⟨List.nodup_nil, ?_, ?_, ?_⟩, ?_, ?_⟩
  · intro object h
    cases h
  · intro object h
    cases h
  · intro row h
    cases h
  · intro object h
    cases h
  · intro t task h
    cases h

end Accounted

/-! ### Every run -/

theorem accounted_step (s : State) (a : Action) (h : Sound s.view ∧ Accounted platform s.view) :
    Sound ((machine platform).step s a).view ∧ Accounted platform ((machine platform).step s a).view :=
  Steps.invariant (P := fun v => Sound v ∧ Accounted platform v)
    (fun _ _ hmoved hv => ⟨hv.1.moved hmoved, hv.2.moved hmoved⟩) (step_moves h.1.unique a) h

theorem accounted_run (ls : List Action) : Accounted platform ((machine platform).run ls).view :=
  (Machine.run_invariant ⟨sound_init, Accounted.init⟩ accounted_step ls).2

theorem keeps_step (s : State) (a : Action) (files : Files)
    (h : Sound s.view ∧ files.Keeps s.files) : Sound ((machine platform).step s a).view ∧
      files.Keeps ((machine platform).step s a).files :=
  Steps.invariant (P := fun v => Sound v ∧ files.Keeps v.files)
    (fun _ _ hmoved hv => ⟨hv.1.moved hmoved, fun digest content hcontent =>
      moved_keeps hmoved digest content (hv.2 digest content hcontent)⟩) (step_moves h.1.unique a) h

theorem keeps_run (ls ks : List Action) :
    ((machine platform).run ls).files.Keeps ((machine platform).run (ls ++ ks)).files := by
  have hrun : (machine platform).run (ls ++ ks) = (machine platform).runFrom ((machine platform).run ls) ks :=
    Machine.runFrom_append _ _ ls ks
  rw [hrun]
  exact (Machine.runFrom_invariant (fun s a h => keeps_step s a _ h) ⟨sound_run ls, .refl _⟩ ks).2

/-- A content object counts the artifacts that have its digest, of which there is one at least, and every
    artifact has its content object, which records its size; the file of the object has this digest and this
    size, and nothing that happens afterwards changes it. -/
theorem content_accounted (ls : List Action) :
    let s := (machine platform).run ls
    Tables.KeysUnique s.db.contentObjects ∧
      (∀ row ∈ s.db.rawArtifacts, ∃ object ∈ s.db.contentObjects,
        object.digest = row.artifact.binaryHash ∧ object.sizeBytes = row.artifact.sizeBytes) ∧
      ∀ object ∈ s.db.contentObjects,
        0 < object.referenceCount ∧
        object.referenceCount = references s.db.rawArtifacts object.digest ∧
        ∃ content, platform.sha256 content = object.digest ∧ content.size = object.sizeBytes ∧
          ∀ ks, ((machine platform).run (ls ++ ks)).files.objects object.digest = some content := by
  intro s
  have h : Accounted platform s.view := accounted_run ls
  refine ⟨h.counted.unique, h.counted.object, fun object hobject => ?_⟩
  obtain ⟨content, hcontent, hdigest, hsize⟩ := verifiesObject_iff.mp (h.stored object hobject)
  exact ⟨h.counted.used object hobject, h.counted.counted object hobject, content, hdigest, hsize,
    fun ks => keeps_run ls ks object.digest content hcontent⟩

end Invariant

end MarkorbitKnowledge.Ingestion
