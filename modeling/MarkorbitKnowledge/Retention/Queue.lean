import MarkorbitKnowledge.Retention.Safety

/-!
# The queue of expired items

A call that does not throw looks at the first expired items and archives those without a hold.  Items are
named by their kind and id, so that they can be followed from call to call: archiving takes items out of
the queue and leaves the order of the others (`queueOf_archivedBy`).
-/

namespace MarkorbitKnowledge.Retention

open Contracts Fallible Tables

variable {db : Database} {input : RetentionInput} {observedAt : Timestamp}
  {evidence : EvidenceReferences} {workspaces : List (Id × RetentionPolicy)} {limit : Nat}

/-- An item by its kind and id. -/
abbrev Item := RetentionAction × Id

def itemOf (candidate : RetentionCandidate) : Item := (candidate.action, candidate.id)

/-- The expired items, in the order in which a call looks at them. -/
def queueOf (db : Database) (evidence : EvidenceReferences) (observedAt : Timestamp)
    (workspaces : List (Id × RetentionPolicy)) : List Item :=
  (expiredItems db evidence observedAt workspaces).map itemOf

/-- What keeps an item. -/
def holdsOf (db : Database) (evidence : EvidenceReferences) : Item → List RetentionHoldReason
  | (.archiveRawArtifact, id) => rawHolds db id evidence.raw
  | (.archiveDerivedDocument, id) => stagingHolds db id evidence.staging

theorem mem_idsOf {candidates : List RetentionCandidate} {action : RetentionAction} {id : Id} :
    id ∈ idsOf action candidates ↔ (action, id) ∈ candidates.map itemOf := by
  simp [idsOf, itemOf, and_assoc]

/-! ### Archiving takes items out of the queue -/

theorem filter_rewriteAt {ρ : Type} [Keyed ρ Id] {f : ρ → ρ} {p : ρ → Bool}
    (hp : ∀ row, p (f row) = false) (ids : List Id) (rows : List ρ) :
    (rewriteAt f ids rows).filter p = (rows.filter p).filter fun row => decide (key row ∉ ids) := by
  induction rows with
  | nil => rfl
  | cons row rows ih =>
    rw [rewriteAt, List.map_cons, ← rewriteAt]
    by_cases hid : key row ∈ ids
    · rw [if_pos hid, List.filter_cons_of_neg (by rw [hp]; exact Bool.false_ne_true), ih]
      by_cases hrow : p row = true
      · rw [List.filter_cons_of_pos hrow, List.filter_cons_of_neg (by simpa using hid)]
      · rw [List.filter_cons_of_neg hrow]
    · rw [if_neg hid]
      by_cases hrow : p row = true
      · rw [List.filter_cons_of_pos hrow, List.filter_cons_of_pos hrow,
          List.filter_cons_of_pos (by simpa using hid), ih]
      · rw [List.filter_cons_of_neg hrow, List.filter_cons_of_neg hrow, ih]

theorem nodup_of_id {ρ κ : Type} [Keyed ρ Id] {order : ρ → κ ×ₗ Id}
    (hid : ∀ row, (ofLex (order row)).2 = key row) {rows : List ρ} (h : KeysUnique rows) :
    (rows.map order).Nodup := by
  refine List.Nodup.of_map (fun k => (ofLex k).2) ?_
  have hkeys : rows.map ((fun k => (ofLex k).2) ∘ order) = rows.map key :=
    List.map_congr_left fun row _ => hid row
  rw [List.map_map, hkeys]
  exact h

theorem items_rewriteAt {ρ κ : Type} [Keyed ρ Id] [LinearOrder κ] {order : ρ → κ ×ₗ Id}
    (hid : ∀ row, (ofLex (order row)).2 = key row) {f : ρ → ρ} {p : ρ → Bool}
    (hp : ∀ row, p (f row) = false) {rows : List ρ} (hunique : KeysUnique rows)
    (action : RetentionAction) (candidates : List RetentionCandidate) :
    (Window.ordered order ((rewriteAt f (idsOf action candidates) rows).filter p)).map
        (fun row => ((action, key row) : Item)) =
      ((Window.ordered order (rows.filter p)).map fun row => ((action, key row) : Item)).filter
        fun item => decide (item ∉ candidates.map itemOf) := by
  rw [filter_rewriteAt hp, Window.ordered_filter (nodup_of_id hid (hunique.filter p)),
    List.filter_map]
  congr 1
  refine List.filter_congr fun row _ => ?_
  rw [Function.comp_apply, decide_eq_decide, mem_idsOf]

theorem rawItems_archivedBy (hkeys : PrimaryKeys db) (candidates : List RetentionCandidate)
    (workspace : Id × RetentionPolicy) :
    (rawItems (archivedBy observedAt candidates db) evidence input.observedAt workspace).map itemOf =
      ((rawItems db evidence input.observedAt workspace).map itemOf).filter
        fun item => decide (item ∉ candidates.map itemOf) := by
  unfold rawItems
  cases workspace.2.rawArtifactDays with
  | none => rfl
  | some days =>
    dsimp only
    rw [List.map_map, List.map_map]
    exact items_rewriteAt (fun _ => rfl) (fun row => by simp [rawExpired, archivedRaw])
      hkeys.rawArtifacts _ candidates

theorem stagingItems_archivedBy (hkeys : PrimaryKeys db) (candidates : List RetentionCandidate)
    (workspace : Id × RetentionPolicy) :
    (stagingItems (archivedBy observedAt candidates db) evidence input.observedAt workspace).map itemOf =
      ((stagingItems db evidence input.observedAt workspace).map itemOf).filter
        fun item => decide (item ∉ candidates.map itemOf) := by
  unfold stagingItems
  cases workspace.2.derivedDocumentDays with
  | none => rfl
  | some days =>
    dsimp only
    rw [List.map_map, List.map_map]
    exact items_rewriteAt (fun _ => rfl) (fun row => by simp [stagingExpired, archivedStaging])
      hkeys.stagingDocuments _ candidates

/-- Archiving takes the items out of the queue. -/
theorem queueOf_archivedBy (hkeys : PrimaryKeys db) (candidates : List RetentionCandidate) :
    queueOf (archivedBy observedAt candidates db) evidence input.observedAt workspaces =
      (queueOf db evidence input.observedAt workspaces).filter
        fun item => decide (item ∉ candidates.map itemOf) := by
  rw [queueOf, queueOf, expiredItems, expiredItems, List.map_flatMap, List.map_flatMap,
    List.filter_flatMap]
  congr 1
  funext workspace
  rw [List.map_append, List.map_append, List.filter_append, rawItems_archivedBy hkeys,
    stagingItems_archivedBy hkeys]

theorem mem_queueOf_raw (hworkspaces : loadWorkspaces db input.workspaceId = .ok workspaces) {id : Id} :
    (.archiveRawArtifact, id) ∈ queueOf db evidence input.observedAt workspaces ↔
      ∃ row ∈ db.rawArtifacts, row.id = id ∧ RawExpired db input row := by
  simp only [queueOf, List.mem_map, mem_expiredItems hworkspaces]
  constructor
  · rintro ⟨candidate, ⟨row, hrow, policy, days, hcovered, hdays, hstatus, hlt, rfl⟩ |
      ⟨row, hrow, policy, days, hcovered, hdays, hstatus, hlt, rfl⟩, hitem⟩
    · exact ⟨row, hrow, (Prod.mk.inj hitem).2, policy, days, hcovered, hdays, hstatus, hlt⟩
    · cases (Prod.mk.inj hitem).1
  · rintro ⟨row, hrow, rfl, policy, days, hcovered, hdays, hstatus, hlt⟩
    exact ⟨_, Or.inl ⟨row, hrow, policy, days, hcovered, hdays, hstatus, hlt, rfl⟩, rfl⟩

theorem mem_queueOf_staging (hworkspaces : loadWorkspaces db input.workspaceId = .ok workspaces)
    {id : Id} :
    (.archiveDerivedDocument, id) ∈ queueOf db evidence input.observedAt workspaces ↔
      ∃ row ∈ db.stagingDocuments, row.id = id ∧ StagingExpired db input row := by
  simp only [queueOf, List.mem_map, mem_expiredItems hworkspaces]
  constructor
  · rintro ⟨candidate, ⟨row, hrow, policy, days, hcovered, hdays, hstatus, hlt, rfl⟩ |
      ⟨row, hrow, policy, days, hcovered, hdays, hstatus, hlt, rfl⟩, hitem⟩
    · cases (Prod.mk.inj hitem).1
    · exact ⟨row, hrow, (Prod.mk.inj hitem).2, policy, days, hcovered, hdays, hstatus, hlt⟩
  · rintro ⟨row, hrow, rfl, policy, days, hcovered, hdays, hstatus, hlt⟩
    exact ⟨_, Or.inr ⟨row, hrow, policy, days, hcovered, hdays, hstatus, hlt, rfl⟩, rfl⟩

/-- A candidate carries the holds of its item. -/
theorem holdReasons_of_mem {candidate : RetentionCandidate}
    (h : candidate ∈ expiredItems db evidence observedAt workspaces) :
    candidate.holdReasons = holdsOf db evidence (itemOf candidate) := by
  simp only [expiredItems, List.mem_flatMap, List.mem_append, mem_rawItems, mem_stagingItems] at h
  obtain ⟨workspace, -, ⟨days, -, row, -, -, rfl⟩ | ⟨days, -, row, -, -, rfl⟩⟩ := h
  · rfl
  · rfl

/-! ### No item is in the queue twice -/

theorem nodup_rawItems (hkeys : PrimaryKeys db) (workspace : Id × RetentionPolicy) :
    ((rawItems db evidence observedAt workspace).map itemOf).Nodup := by
  unfold rawItems
  cases workspace.2.rawArtifactDays with
  | none => exact List.nodup_nil
  | some days =>
    dsimp only
    rw [List.map_map]
    have hids : ((Window.ordered rawOrder (db.rawArtifacts.filter
        (rawExpired workspace.1 (cutoffOf observedAt days)))).map key).Nodup :=
      (Window.ordered_perm.map key).nodup_iff.mpr (hkeys.rawArtifacts.filter _)
    refine List.Nodup.of_map Prod.snd ?_
    rw [List.map_map]
    exact hids

theorem nodup_stagingItems (hkeys : PrimaryKeys db) (workspace : Id × RetentionPolicy) :
    ((stagingItems db evidence observedAt workspace).map itemOf).Nodup := by
  unfold stagingItems
  cases workspace.2.derivedDocumentDays with
  | none => exact List.nodup_nil
  | some days =>
    dsimp only
    rw [List.map_map]
    have hids : ((Window.ordered stagingOrder (db.stagingDocuments.filter
        (stagingExpired workspace.1 (cutoffOf observedAt days)))).map key).Nodup :=
      (Window.ordered_perm.map key).nodup_iff.mpr (hkeys.stagingDocuments.filter _)
    refine List.Nodup.of_map Prod.snd ?_
    rw [List.map_map]
    exact hids

/-- An item lies in one workspace. -/
theorem workspace_of_mem {workspace : Id × RetentionPolicy} {item : Item}
    (h : item ∈ (rawItems db evidence observedAt workspace ++
      stagingItems db evidence observedAt workspace).map itemOf) :
    (∃ row ∈ db.rawArtifacts, item = (.archiveRawArtifact, row.id) ∧ row.workspaceId = workspace.1) ∨
      ∃ row ∈ db.stagingDocuments,
        item = (.archiveDerivedDocument, row.id) ∧ row.workspaceId = workspace.1 := by
  obtain ⟨candidate, hmem, rfl⟩ := List.mem_map.mp h
  rcases List.mem_append.mp hmem with hmem | hmem
  · obtain ⟨days, -, row, hrow, hexpired, rfl⟩ := mem_rawItems.mp hmem
    rw [rawExpired, decide_eq_true_eq] at hexpired
    exact Or.inl ⟨row, hrow, rfl, hexpired.1⟩
  · obtain ⟨days, -, row, hrow, hexpired, rfl⟩ := mem_stagingItems.mp hmem
    rw [stagingExpired, decide_eq_true_eq] at hexpired
    exact Or.inr ⟨row, hrow, rfl, hexpired.1⟩

theorem nodup_loadWorkspaces (hkeys : PrimaryKeys db)
    (h : loadWorkspaces db input.workspaceId = .ok workspaces) : (workspaces.map Prod.fst).Nodup := by
  rw [loadWorkspaces_eq_ok] at h
  obtain ⟨-, rfl⟩ := h
  rw [List.map_map]
  exact (Window.ordered_perm.map key).nodup_iff.mpr (hkeys.workspaces.filter _)

theorem nodup_queueOf (hkeys : PrimaryKeys db)
    (hworkspaces : loadWorkspaces db input.workspaceId = .ok workspaces) :
    (queueOf db evidence observedAt workspaces).Nodup := by
  rw [queueOf, expiredItems, List.map_flatMap, List.nodup_flatMap]
  constructor
  · intro workspace _
    rw [List.map_append, List.nodup_append]
    refine ⟨nodup_rawItems hkeys workspace, nodup_stagingItems hkeys workspace, ?_⟩
    intro item hraw other hstaging heq
    subst heq
    obtain ⟨candidate, hmem, rfl⟩ := List.mem_map.mp hraw
    obtain ⟨candidate', hmem', heq⟩ := List.mem_map.mp hstaging
    obtain ⟨_, -, row, -, -, rfl⟩ := mem_rawItems.mp hmem
    obtain ⟨_, -, row', -, -, rfl⟩ := mem_stagingItems.mp hmem'
    cases (Prod.mk.inj heq).1
  · refine List.Pairwise.imp ?_ (List.pairwise_map.mp (nodup_loadWorkspaces hkeys hworkspaces))
    intro first second hne item hfirst hsecond
    rcases workspace_of_mem hfirst with ⟨row, hrow, rfl, hin⟩ | ⟨row, hrow, rfl, hin⟩
    · rcases workspace_of_mem hsecond with ⟨row', hrow', heq, hin'⟩ | ⟨row', _, heq, _⟩
      · obtain rfl := hkeys.rawArtifacts.eq_of_key hrow hrow' (Prod.mk.inj heq).2
        exact hne (hin.symm.trans hin')
      · cases (Prod.mk.inj heq).1
    · rcases workspace_of_mem hsecond with ⟨row', _, heq, _⟩ | ⟨row', hrow', heq, hin'⟩
      · cases (Prod.mk.inj heq).1
      · obtain rfl := hkeys.stagingDocuments.eq_of_key hrow hrow' (Prod.mk.inj heq).2
        exact hne (hin.symm.trans hin')

/-! ### Calls that do not throw -/

/-- What a call checks before it archives holds: its arguments, the texts it reads and its cut-offs. -/
structure Checked (db : Database) (input : RetentionInput) (limit : Nat)
    (evidence : EvidenceReferences) (workspaces : List (Id × RetentionPolicy)) : Prop where
  applies : input.mode = .apply
  observed : isDate input.observedAt = true
  bounded : normalizeLimit input.limit = .ok limit
  readable : evidenceSetReferences db = .ok evidence
  loaded : loadWorkspaces db input.workspaceId = .ok workspaces
  found : input.workspaceId ≠ none → workspaces ≠ []
  cutoffs : ∀ workspace ∈ workspaces, ∀ days,
    workspace.2.rawArtifactDays = some days ∨ workspace.2.derivedDocumentDays = some days →
      isDate (cutoffOf input.observedAt days) = true

theorem examineRaw_ok {workspace : Id × RetentionPolicy} {scan : Scan}
    (h : ∀ days, workspace.2.rawArtifactDays = some days →
      isDate (cutoffOf observedAt days) = true) :
    ∃ scan', examineRaw db evidence observedAt limit workspace scan = .ok scan' := by
  unfold examineRaw
  cases hdays : workspace.2.rawArtifactDays with
  | none => exact ⟨_, rfl⟩
  | some days =>
    simp only [cutoff, bind_eq_ok, require_eq_ok, pure_eq_ok]
    exact ⟨_, _, ⟨(), h days hdays, rfl⟩, rfl⟩

theorem examineDerived_ok {workspace : Id × RetentionPolicy} {scan : Scan}
    (h : ∀ days, workspace.2.derivedDocumentDays = some days →
      isDate (cutoffOf observedAt days) = true) :
    ∃ scan', examineDerived db evidence observedAt limit workspace scan = .ok scan' := by
  unfold examineDerived
  cases hdays : workspace.2.derivedDocumentDays with
  | none => exact ⟨_, rfl⟩
  | some days =>
    simp only [cutoff, bind_eq_ok, require_eq_ok, pure_eq_ok]
    exact ⟨_, _, ⟨(), h days hdays, rfl⟩, rfl⟩

theorem scanWorkspaces_ok {scan : Scan}
    (h : ∀ workspace ∈ workspaces, ∀ days,
      workspace.2.rawArtifactDays = some days ∨ workspace.2.derivedDocumentDays = some days →
        isDate (cutoffOf observedAt days) = true) :
    ∃ scan', scanWorkspaces db evidence observedAt limit workspaces scan = .ok scan' := by
  induction workspaces generalizing scan with
  | nil => exact ⟨scan, rfl⟩
  | cons workspace rest ih =>
    have hfirst := h workspace List.mem_cons_self
    obtain ⟨raw, hraw⟩ := @examineRaw_ok db observedAt evidence limit workspace scan
      fun days hdays => hfirst days (Or.inl hdays)
    rw [scanWorkspaces, hraw, ok_bind]
    split_ifs with hfull
    · exact ⟨_, rfl⟩
    · obtain ⟨derived, hderived⟩ := @examineDerived_ok db observedAt evidence limit workspace raw
        fun days hdays => hfirst days (Or.inr hdays)
      rw [hderived, ok_bind]
      exact ih fun workspace' hmem => h workspace' (List.mem_cons_of_mem _ hmem)

/-- What a call archives: those of the first expired items that have no hold. -/
def cleared (db : Database) (evidence : EvidenceReferences) (observedAt : Timestamp) (limit : Nat)
    (workspaces : List (Id × RetentionPolicy)) : List RetentionCandidate :=
  actionableOf ((expiredItems db evidence observedAt workspaces).take limit)

/-- The registry with its audits. -/
def audited (audits : List RetentionExecutionResult) (db : Database) : Database :=
  { db with audits := some audits }

theorem PrimaryKeys.audited (hkeys : PrimaryKeys db) (audits : List RetentionExecutionResult) :
    PrimaryKeys (audited audits db) :=
  ⟨hkeys.workspaces, hkeys.rawArtifacts, hkeys.stagingDocuments⟩

/-- A call archives those of the first expired items that have no hold. -/
theorem Checked.executeRetentionPolicy_eq (hkeys : PrimaryKeys db) {defaultWorkspaceId : Id}
    (hprepared : ensureRetentionAudit defaultWorkspaceId db = db)
    (h : Checked db input limit evidence workspaces)
    (hdocuments : ValidFor (cleared db evidence input.observedAt limit workspaces) db)
    (executionId : String) :
    ∃ audits, (executeRetentionPolicy defaultWorkspaceId executionId input db).2 =
      audited audits
        (archivedBy input.observedAt (cleared db evidence input.observedAt limit workspaces) db) := by
  obtain ⟨scan, hscan⟩ := @scanWorkspaces_ok db input.observedAt evidence workspaces limit ⟨[], false⟩
    h.cutoffs
  have hcandidates : scan.candidates =
      (expiredItems db evidence input.observedAt workspaces).take limit := by
    rw [(scan_eq hscan (Nat.zero_le limit)).1, Scan.extend, List.nil_append, List.length_nil,
      Nat.sub_zero]
  have happlied : appliedOf input scan.candidates =
      cleared db evidence input.observedAt limit workspaces := by
    rw [appliedOf, if_pos h.applies, hcandidates, cleared]
  have hvalid : ValidFor (appliedOf input scan.candidates) db := by
    rw [happlied]
    exact hdocuments
  have hbody : executeBody executionId input limit db =
      .ok (resultOf executionId input scan, afterCall input (resultOf executionId input scan) db) :=
    (executeBody_eq_ok hkeys).mpr ⟨evidence, workspaces, scan, h.readable, h.loaded, h.found, hscan,
      hvalid, rfl, rfl⟩
  rw [executeRetentionPolicy, hprepared, commit_of_ok (by
    simp only [bind_eq_ok, require_eq_ok]
    exact ⟨(), h.observed, limit, h.bounded, hbody⟩)]
  refine ⟨db.audits.getD [] ++ [resultOf executionId input scan], ?_⟩
  rw [← happlied]
  rfl

end MarkorbitKnowledge.Retention
