import MarkorbitKnowledge.Retention.Scan

/-!
# Retention archives expired items without a hold only

A successful call rewrites each row it archives and no other row but its audit (`archivedBy`); what it
archives are candidates, and these are the first expired items (`scan_eq`).  A call that throws leaves
the registry as `ensureRetentionAudit` prepared it.
-/

namespace MarkorbitKnowledge.Retention

open Contracts Fallible Tables

variable {db db' : Database} {input : RetentionInput} {observedAt : Timestamp}

/-- The tables have their primary keys. -/
structure PrimaryKeys (db : Database) : Prop where
  workspaces : KeysUnique db.workspaces
  rawArtifacts : KeysUnique db.rawArtifacts
  stagingDocuments : KeysUnique db.stagingDocuments

/-! ### Rewriting rows by their ids -/

section Rewriting

variable {ρ : Type} [Keyed ρ Id] {f : ρ → ρ} {rows : List ρ}

/-- The rows with the given ids are rewritten. -/
def rewriteAt (f : ρ → ρ) (ids : List Id) (rows : List ρ) : List ρ :=
  rows.map fun row => if key row ∈ ids then f row else row

theorem rewriteAt_nil (f : ρ → ρ) (rows : List ρ) : rewriteAt f [] rows = rows := by
  simp [rewriteAt]

theorem rewriteAt_cons (hkey : ∀ row, key (f row) = key row) (hidem : ∀ row, f (f row) = f row)
    (id : Id) (ids : List Id) (rows : List ρ) :
    rewriteAt f ids (rewriteAt f [id] rows) = rewriteAt f (id :: ids) rows := by
  rw [rewriteAt, rewriteAt, rewriteAt, List.map_map]
  refine List.map_congr_left fun row _ => ?_
  simp only [Function.comp_apply, List.mem_cons, List.not_mem_nil, or_false]
  by_cases hid : key row = id
  · rw [if_pos hid, if_pos (Or.inl hid), hkey, hidem, ite_self]
  · simp only [hid, if_false, false_or]

theorem keysUnique_rewriteAt (hkey : ∀ row, key (f row) = key row) (ids : List Id)
    (hunique : KeysUnique rows) : KeysUnique (rewriteAt f ids rows) := by
  have hkeys : (rewriteAt f ids rows).map key = rows.map key := by
    rw [rewriteAt, List.map_map]
    refine List.map_congr_left fun row _ => ?_
    rw [Function.comp_apply]
    split_ifs
    · exact hkey row
    · rfl
  rw [KeysUnique, hkeys]
  exact hunique

theorem rewriteAt_of_find?_none {id : Id} (h : find? rows id = none) : rewriteAt f [id] rows = rows := by
  rw [find?_eq_none] at h
  refine (List.map_congr_left fun row hrow => ?_).trans (List.map_id rows)
  rw [if_neg fun hmem => h row hrow (List.mem_singleton.mp hmem), id_eq]

theorem update_eq_rewriteAt (hkey : ∀ row, key (f row) = key row) (hunique : KeysUnique rows) {row : ρ}
    (hrow : row ∈ rows) : update rows (f row) = rewriteAt f [key row] rows := by
  refine List.map_congr_left fun other hother => ?_
  rw [hkey]
  by_cases hsame : key other = key row
  · rw [if_pos hsame, if_pos (List.mem_singleton.mpr hsame), hunique.eq_of_key hother hrow hsame]
  · rw [if_neg hsame, if_neg fun hmem => hsame (List.mem_singleton.mp hmem)]

theorem mem_rewriteAt {ids : List Id} {row : ρ} :
    row ∈ rewriteAt f ids rows ↔
      ∃ before ∈ rows, (if key before ∈ ids then f before else before) = row := by
  rw [rewriteAt, List.mem_map]

end Rewriting

/-! ### Archiving -/

/-- The ids of the candidates of a kind. -/
def idsOf (action : RetentionAction) (candidates : List RetentionCandidate) : List Id :=
  (candidates.filter fun candidate => decide (candidate.action = action)).map (·.id)

/-- The registry after the candidates are archived. -/
def archivedBy (observedAt : Timestamp) (candidates : List RetentionCandidate) (db : Database) :
    Database :=
  { db with
    rawArtifacts := rewriteAt archivedRaw (idsOf .archiveRawArtifact candidates) db.rawArtifacts
    stagingDocuments :=
      rewriteAt (archivedStaging observedAt) (idsOf .archiveDerivedDocument candidates)
        db.stagingDocuments }

/-- The documents of what is archived are valid. -/
@[mk_iff] structure ValidFor (candidates : List RetentionCandidate) (db : Database) : Prop where
  raw : ∀ row ∈ db.rawArtifacts, row.id ∈ idsOf .archiveRawArtifact candidates →
    isRawArtifactDocument row.document = true
  staging : ∀ row ∈ db.stagingDocuments, row.id ∈ idsOf .archiveDerivedDocument candidates →
    isStagingDocumentDescriptor row.document = true

theorem archivedBy_nil (db : Database) : archivedBy observedAt [] db = db := by
  rw [archivedBy, idsOf, idsOf]
  simp only [List.filter_nil, List.map_nil, rewriteAt_nil]

theorem PrimaryKeys.archivedBy (hkeys : PrimaryKeys db) (candidates : List RetentionCandidate) :
    PrimaryKeys (archivedBy observedAt candidates db) :=
  ⟨hkeys.workspaces, @keysUnique_rewriteAt _ _ archivedRaw _ (fun _ => rfl) _ hkeys.rawArtifacts,
    @keysUnique_rewriteAt _ _ (archivedStaging observedAt) _ (fun _ => rfl) _ hkeys.stagingDocuments⟩

theorem archivedBy_cons (candidate : RetentionCandidate) (candidates : List RetentionCandidate)
    (db : Database) :
    archivedBy observedAt candidates (archivedBy observedAt [candidate] db) =
      archivedBy observedAt (candidate :: candidates) db := by
  have hraw := rewriteAt_cons (f := archivedRaw) (fun _ => rfl) (fun _ => rfl)
  have hstaging := rewriteAt_cons (f := archivedStaging observedAt) (fun _ => rfl) (fun _ => rfl)
  cases haction : candidate.action with
  | archiveRawArtifact => simp [archivedBy, idsOf, haction, rewriteAt_nil, hraw]
  | archiveDerivedDocument => simp [archivedBy, idsOf, haction, rewriteAt_nil, hstaging]

/-- One candidate is archived. -/
theorem applyCandidate_eq_ok (hkeys : PrimaryKeys db) {candidate : RetentionCandidate} :
    applyCandidate observedAt db candidate = .ok db' ↔
      ValidFor [candidate] db ∧ archivedBy observedAt [candidate] db = db' := by
  unfold applyCandidate
  cases haction : candidate.action with
  | archiveRawArtifact =>
    have hother : idsOf .archiveDerivedDocument [candidate] = [] := by simp [idsOf, haction]
    have hids : idsOf .archiveRawArtifact [candidate] = [candidate.id] := by simp [idsOf, haction]
    dsimp only
    rw [archiveRawArtifact, archivedBy, validFor_iff, hother, hids, rewriteAt_nil]
    cases hfind : find? db.rawArtifacts candidate.id with
    | none =>
      rw [rewriteAt_of_find?_none hfind, pure_eq_ok]
      have hnone := find?_eq_none.mp hfind
      refine ⟨fun h => ⟨⟨fun row hrow hid => ?_, by simp⟩, h⟩, And.right⟩
      exact absurd (List.mem_singleton.mp hid) (hnone row hrow)
    | some row =>
      obtain ⟨hrow, hkey⟩ := (hkeys.rawArtifacts.find?_eq_some_iff).mp hfind
      have hrewrite := update_eq_rewriteAt (f := archivedRaw) (fun _ => rfl) hkeys.rawArtifacts hrow
      rw [hkey] at hrewrite
      simp only [bind_eq_ok, require_eq_ok, pure_eq_ok, hrewrite]
      constructor
      · rintro ⟨-, hvalid, rfl⟩
        refine ⟨⟨fun other hother hid => ?_, by simp⟩, rfl⟩
        have hsame := hkeys.rawArtifacts.eq_of_key hother hrow ((List.mem_singleton.mp hid).trans hkey.symm)
        rw [hsame]
        exact hvalid
      · rintro ⟨⟨hvalid, -⟩, rfl⟩
        exact ⟨(), hvalid row hrow (List.mem_singleton.mpr hkey), rfl⟩
  | archiveDerivedDocument =>
    have hother : idsOf .archiveRawArtifact [candidate] = [] := by simp [idsOf, haction]
    have hids : idsOf .archiveDerivedDocument [candidate] = [candidate.id] := by simp [idsOf, haction]
    dsimp only
    rw [archiveStagingDocument, archivedBy, validFor_iff, hother, hids, rewriteAt_nil]
    cases hfind : find? db.stagingDocuments candidate.id with
    | none =>
      rw [rewriteAt_of_find?_none hfind, pure_eq_ok]
      have hnone := find?_eq_none.mp hfind
      refine ⟨fun h => ⟨⟨by simp, fun row hrow hid => ?_⟩, h⟩, And.right⟩
      exact absurd (List.mem_singleton.mp hid) (hnone row hrow)
    | some row =>
      obtain ⟨hrow, hkey⟩ := (hkeys.stagingDocuments.find?_eq_some_iff).mp hfind
      have hrewrite :=
        update_eq_rewriteAt (f := archivedStaging observedAt) (fun _ => rfl) hkeys.stagingDocuments hrow
      rw [hkey] at hrewrite
      simp only [bind_eq_ok, require_eq_ok, pure_eq_ok, hrewrite]
      constructor
      · rintro ⟨-, hvalid, rfl⟩
        refine ⟨⟨by simp, fun other hother hid => ?_⟩, rfl⟩
        have hsame :=
          hkeys.stagingDocuments.eq_of_key hother hrow ((List.mem_singleton.mp hid).trans hkey.symm)
        rw [hsame]
        exact hvalid
      · rintro ⟨⟨-, hvalid⟩, rfl⟩
        exact ⟨(), hvalid row hrow (List.mem_singleton.mpr hkey), rfl⟩

/-- An archived document is as valid as it was. -/
theorem isStagingDocumentDescriptor_archived {document : StagingDocumentDescriptor}
    (h : isStagingDocumentDescriptor document = true) :
    isStagingDocumentDescriptor { document with status := .archived } = true := by
  simp only [isStagingDocumentDescriptor, Bool.and_eq_true] at h ⊢
  exact ⟨h.1, rfl⟩

theorem idsOf_cons (action : RetentionAction) (candidate : RetentionCandidate)
    (candidates : List RetentionCandidate) :
    idsOf action (candidate :: candidates) = idsOf action [candidate] ++ idsOf action candidates := by
  rw [← List.singleton_append, idsOf, List.filter_append, List.map_append]
  rfl

theorem validFor_cons {candidate : RetentionCandidate} {candidates : List RetentionCandidate} :
    ValidFor (candidate :: candidates) db ↔
      ValidFor [candidate] db ∧ ValidFor candidates (archivedBy observedAt [candidate] db) := by
  simp only [validFor_iff, idsOf_cons _ candidate candidates, List.mem_append, archivedBy,
    mem_rewriteAt, key_rawArtifact, key_stagingDocument]
  constructor
  · rintro ⟨hraw, hstaging⟩
    refine ⟨⟨fun row hrow hid => hraw row hrow (Or.inl hid),
      fun row hrow hid => hstaging row hrow (Or.inl hid)⟩, ?_, ?_⟩
    · rintro _ ⟨row, hrow, rfl⟩ hid
      split_ifs at hid ⊢ with hfirst
      · exact hraw row hrow (Or.inl hfirst)
      · exact hraw row hrow (Or.inr hid)
    · rintro _ ⟨row, hrow, rfl⟩ hid
      split_ifs at hid ⊢ with hfirst
      · exact isStagingDocumentDescriptor_archived (hstaging row hrow (Or.inl hfirst))
      · exact hstaging row hrow (Or.inr hid)
  · rintro ⟨⟨hraw, hstaging⟩, hraws, hstagings⟩
    constructor
    · intro row hrow hid
      by_cases hfirst : row.id ∈ idsOf .archiveRawArtifact [candidate]
      · exact hraw row hrow hfirst
      · have hrest := hraws _ ⟨row, hrow, rfl⟩
        rw [if_neg hfirst] at hrest
        exact hrest (hid.resolve_left hfirst)
    · intro row hrow hid
      by_cases hfirst : row.id ∈ idsOf .archiveDerivedDocument [candidate]
      · exact hstaging row hrow hfirst
      · have hrest := hstagings _ ⟨row, hrow, rfl⟩
        rw [if_neg hfirst] at hrest
        exact hrest (hid.resolve_left hfirst)

/-- The candidates are archived one after the other. -/
theorem foldlM_applyCandidate (hkeys : PrimaryKeys db) {candidates : List RetentionCandidate} :
    candidates.foldlM (applyCandidate observedAt) db = .ok db' ↔
      ValidFor candidates db ∧ archivedBy observedAt candidates db = db' := by
  induction candidates generalizing db with
  | nil =>
    rw [List.foldlM_nil, pure_eq_ok, archivedBy_nil]
    exact ⟨fun h => ⟨⟨by simp [idsOf], by simp [idsOf]⟩, h⟩, And.right⟩
  | cons candidate candidates ih =>
    have hcons := @validFor_cons db observedAt candidate candidates
    rw [List.foldlM_cons, bind_eq_ok, hcons, ← archivedBy_cons candidate candidates db]
    constructor
    · rintro ⟨mid, hfirst, hrest⟩
      obtain ⟨hvalid, rfl⟩ := (applyCandidate_eq_ok hkeys).mp hfirst
      obtain ⟨hvalids, hresult⟩ := (ih (hkeys.archivedBy [candidate])).mp hrest
      exact ⟨⟨hvalid, hvalids⟩, hresult⟩
    · rintro ⟨⟨hvalid, hvalids⟩, hresult⟩
      exact ⟨_, (applyCandidate_eq_ok hkeys).mpr ⟨hvalid, rfl⟩,
        (ih (hkeys.archivedBy [candidate])).mpr ⟨hvalids, hresult⟩⟩

/-! ### The call -/

/-- What a call archives. -/
def appliedOf (input : RetentionInput) (candidates : List RetentionCandidate) :
    List RetentionCandidate :=
  if input.mode = .apply then actionableOf candidates else []

def resultOf (executionId : String) (input : RetentionInput) (scan : Scan) : RetentionExecutionResult where
  executionId := executionId
  mode := input.mode
  observedAt := input.observedAt
  workspaceId := input.workspaceId
  scanned := scan.candidates.length
  actionable := (actionableOf scan.candidates).length
  held := scan.candidates.length - (actionableOf scan.candidates).length
  applied := (appliedOf input scan.candidates).length
  truncated := scan.truncated
  candidates := scan.candidates

/-- The registry after a call that examined the candidates. -/
def afterCall (input : RetentionInput) (result : RetentionExecutionResult) (db : Database) : Database :=
  { archivedBy input.observedAt (appliedOf input result.candidates) db with
    audits := some (db.audits.getD [] ++ [result]) }

theorem executeBody_eq_ok (hkeys : PrimaryKeys db) {executionId : String} {limit : Nat}
    {result : RetentionExecutionResult} :
    executeBody executionId input limit db = .ok (result, db') ↔
      ∃ evidence workspaces scan, evidenceSetReferences db = .ok evidence ∧
        loadWorkspaces db input.workspaceId = .ok workspaces ∧
        (input.workspaceId ≠ none → workspaces ≠ []) ∧
        scanWorkspaces db evidence input.observedAt limit workspaces ⟨[], false⟩ = .ok scan ∧
        ValidFor (appliedOf input scan.candidates) db ∧ result = resultOf executionId input scan ∧
        db' = afterCall input result db := by
  simp only [executeBody, bind_eq_ok, require_eq_ok, pure_eq_ok]
  constructor
  · rintro ⟨evidence, hevidence, workspaces, hworkspaces, -, hfound, scan, hscan, archived, harchived,
      hresult⟩
    obtain ⟨hvalid, rfl⟩ := (foldlM_applyCandidate hkeys).mp harchived
    obtain ⟨rfl, rfl⟩ := Prod.mk.inj hresult
    exact ⟨evidence, workspaces, scan, hevidence, hworkspaces, hfound, hscan, hvalid, rfl, rfl⟩
  · rintro ⟨evidence, workspaces, scan, hevidence, hworkspaces, hfound, hscan, hvalid, rfl, rfl⟩
    exact ⟨evidence, hevidence, workspaces, hworkspaces, (), hfound, scan, hscan, _,
      (foldlM_applyCandidate hkeys).mpr ⟨hvalid, rfl⟩, rfl⟩

theorem PrimaryKeys.prepared (hkeys : PrimaryKeys db) (defaultWorkspaceId : Id) :
    PrimaryKeys (ensureRetentionAudit defaultWorkspaceId db) := by
  obtain ⟨hworkspaces, hraw, hstaging⟩ := hkeys
  unfold ensureRetentionAudit initializeRegistry
  split_ifs with hfound
  · exact ⟨hworkspaces, hraw, hstaging⟩
  · refine ⟨hworkspaces.append_singleton ?_, hraw, hstaging⟩
    rw [Option.not_isSome_iff_eq_none] at hfound
    exact find?_eq_none.mp hfound

/-! ### What is archived -/

/-- A RawArtifact stays as it is, or is archived: expired, without a hold, its document valid. -/
def RawKept (db : Database) (input : RetentionInput) (evidence : EvidenceReferences)
    (before after : RawArtifactRow) : Prop :=
  after = before ∨ input.mode = .apply ∧ RawExpired db input before ∧
    rawHolds db before.id evidence.raw = [] ∧ after = archivedRaw before ∧
    isRawArtifactDocument after.document = true

/-- A staging document stays as it is, or is archived: expired, without a hold, its descriptor valid. -/
def StagingKept (db : Database) (input : RetentionInput) (evidence : EvidenceReferences)
    (before after : StagingDocumentRow) : Prop :=
  after = before ∨ input.mode = .apply ∧ StagingExpired db input before ∧
    stagingHolds db before.id evidence.staging = [] ∧ after = archivedStaging input.observedAt before ∧
    isStagingDocumentDescriptor after.document = true

theorem mem_idsOf_applied {candidates : List RetentionCandidate} {action : RetentionAction} {id : Id} :
    id ∈ idsOf action (appliedOf input candidates) ↔
      input.mode = .apply ∧ ∃ candidate ∈ candidates, candidate.holdReasons = [] ∧
        candidate.action = action ∧ candidate.id = id := by
  by_cases hmode : input.mode = .apply
  · simp [idsOf, appliedOf, actionableOf, hmode, and_assoc, and_left_comm]
  · simp [idsOf, appliedOf, hmode]

variable {evidence : EvidenceReferences} {workspaces : List (Id × RetentionPolicy)}
  {candidates : List RetentionCandidate}

theorem rawKept_of_examined (hkeys : PrimaryKeys db)
    (hworkspaces : loadWorkspaces db input.workspaceId = .ok workspaces)
    (hexamined : candidates ⊆ expiredItems db evidence input.observedAt workspaces)
    (hvalid : ValidFor (appliedOf input candidates) db) :
    List.Forall₂ (RawKept db input evidence) db.rawArtifacts
      (rewriteAt archivedRaw (idsOf .archiveRawArtifact (appliedOf input candidates))
        db.rawArtifacts) := by
  rw [rewriteAt, List.forall₂_map_right_iff, List.forall₂_same]
  intro row hrow
  split_ifs with hid
  · refine Or.inr ?_
    have hdocument := hvalid.raw row hrow hid
    obtain ⟨hmode, candidate, hmem, hholds, haction, hcandidate⟩ := mem_idsOf_applied.mp hid
    rcases (mem_expiredItems hworkspaces).mp (hexamined hmem) with
      ⟨other, hother, policy, days, hcovered, hdays, hstatus, hlt, rfl⟩ | ⟨other, -, _, _, -, -, -, -, rfl⟩
    · obtain rfl := hkeys.rawArtifacts.eq_of_key hother hrow hcandidate
      exact ⟨hmode, ⟨policy, days, hcovered, hdays, hstatus, hlt⟩, hholds, rfl, hdocument⟩
    · cases haction
  · exact Or.inl rfl

theorem stagingKept_of_examined (hkeys : PrimaryKeys db)
    (hworkspaces : loadWorkspaces db input.workspaceId = .ok workspaces)
    (hexamined : candidates ⊆ expiredItems db evidence input.observedAt workspaces)
    (hvalid : ValidFor (appliedOf input candidates) db) :
    List.Forall₂ (StagingKept db input evidence) db.stagingDocuments
      (rewriteAt (archivedStaging input.observedAt)
        (idsOf .archiveDerivedDocument (appliedOf input candidates)) db.stagingDocuments) := by
  rw [rewriteAt, List.forall₂_map_right_iff, List.forall₂_same]
  intro row hrow
  split_ifs with hid
  · refine Or.inr ?_
    have hdocument := isStagingDocumentDescriptor_archived (hvalid.staging row hrow hid)
    obtain ⟨hmode, candidate, hmem, hholds, haction, hcandidate⟩ := mem_idsOf_applied.mp hid
    rcases (mem_expiredItems hworkspaces).mp (hexamined hmem) with
      ⟨other, -, _, _, -, -, -, -, rfl⟩ | ⟨other, hother, policy, days, hcovered, hdays, hstatus, hlt, rfl⟩
    · cases haction
    · obtain rfl := hkeys.stagingDocuments.eq_of_key hother hrow hcandidate
      exact ⟨hmode, ⟨policy, days, hcovered, hdays, hstatus, hlt⟩, hholds, rfl, hdocument⟩
  · exact Or.inl rfl

/-- A call that throws leaves the registry as it was prepared.  One that succeeds archives expired items
    without a hold only and writes nothing else but its audit; where its scan is not truncated, it has
    examined every expired item. -/
theorem retention_archives_expired (hkeys : PrimaryKeys db) (defaultWorkspaceId : Id)
    (executionId : String) (input : RetentionInput) :
    let prepared := ensureRetentionAudit defaultWorkspaceId db
    let call := executeRetentionPolicy defaultWorkspaceId executionId input db
    (∀ message, call.1 = .error message → call.2 = prepared) ∧
    ∀ result, call.1 = .ok result →
      (∃ evidence rawArtifacts stagingDocuments, evidenceSetReferences prepared = .ok evidence ∧
        call.2 = { prepared with
          rawArtifacts := rawArtifacts
          stagingDocuments := stagingDocuments
          audits := some (prepared.audits.getD [] ++ [result]) } ∧
        List.Forall₂ (RawKept prepared input evidence) prepared.rawArtifacts rawArtifacts ∧
        List.Forall₂ (StagingKept prepared input evidence) prepared.stagingDocuments
          stagingDocuments) ∧
      (result.truncated = false →
        (∀ row ∈ prepared.rawArtifacts, RawExpired prepared input row →
          ∃ candidate ∈ result.candidates,
            candidate.action = .archiveRawArtifact ∧ candidate.id = row.id) ∧
        ∀ row ∈ prepared.stagingDocuments, StagingExpired prepared input row →
          ∃ candidate ∈ result.candidates,
            candidate.action = .archiveDerivedDocument ∧ candidate.id = row.id) := by
  have hprepared := hkeys.prepared defaultWorkspaceId
  rw [executeRetentionPolicy]
  dsimp only
  set prepared := ensureRetentionAudit defaultWorkspaceId db
  constructor
  · intro message herror
    exact commit_fst_error herror
  · intro result hresult
    obtain ⟨after, hbody⟩ := commit_fst_ok hresult
    rw [commit_of_ok hbody]
    simp only [bind_eq_ok, require_eq_ok] at hbody
    obtain ⟨-, -, limit, -, hbody⟩ := hbody
    obtain ⟨evidence, workspaces, scan, hevidence, hworkspaces, -, hscan, hvalid, rfl, rfl⟩ :=
      (executeBody_eq_ok hprepared).mp hbody
    obtain ⟨hcandidates, htruncated⟩ := scan_eq hscan (Nat.zero_le limit)
    have hexamined : scan.candidates ⊆ expiredItems prepared evidence input.observedAt workspaces := by
      intro candidate hmem
      rw [hcandidates] at hmem
      exact List.mem_of_mem_take (by simpa [Scan.extend] using hmem)
    refine ⟨⟨evidence, _, _, hevidence, rfl, rawKept_of_examined hprepared hworkspaces hexamined hvalid,
      stagingKept_of_examined hprepared hworkspaces hexamined hvalid⟩, fun hfalse => ?_⟩
    have hall : ∀ candidate ∈ expiredItems prepared evidence input.observedAt workspaces,
        candidate ∈ scan.candidates := by
      intro candidate hmem
      have hlength := htruncated hfalse
      simp only [Scan.extend, List.length_nil, Nat.sub_zero, Bool.false_or, decide_eq_false_iff_not,
        not_lt] at hlength
      rw [hcandidates, Scan.extend, List.nil_append, List.length_nil, Nat.sub_zero,
        List.take_of_length_le hlength]
      exact hmem
    constructor
    · rintro row hrow ⟨policy, days, hcovered, hdays, hstatus, hlt⟩
      exact ⟨_, hall _ ((mem_expiredItems hworkspaces).mpr
        (Or.inl ⟨row, hrow, policy, days, hcovered, hdays, hstatus, hlt, rfl⟩)), rfl, rfl⟩
    · rintro row hrow ⟨policy, days, hcovered, hdays, hstatus, hlt⟩
      exact ⟨_, hall _ ((mem_expiredItems hworkspaces).mpr
        (Or.inr ⟨row, hrow, policy, days, hcovered, hdays, hstatus, hlt, rfl⟩)), rfl, rfl⟩

/-- A registry with the default workspace alone. -/
def emptyRegistry : Database := ⟨[DEFAULT_WORKSPACE 1], [], [], [], [], [], [], none⟩

/-- A call with the limit 0 throws, and the audit table is there afterwards. -/
theorem refused_call_creates_audits :
    (executeRetentionPolicy 1 "ret_1" ⟨.apply, 1790000000000, none, some 0⟩ emptyRegistry).1 =
        .error "retention limit must be an integer in 1..5000" ∧
      (executeRetentionPolicy 1 "ret_1" ⟨.apply, 1790000000000, none, some 0⟩ emptyRegistry).2 ≠
        emptyRegistry := by
  refine ⟨rfl, fun h => ?_⟩
  have haudits : some [] = (none : Option (List RetentionExecutionResult)) := congrArg Database.audits h
  cases haudits

/-- A registry with two RawArtifacts, which their workspace keeps for one day, a ready package citing
    the older one. -/
def heldFirst : Database where
  workspaces := [DEFAULT_WORKSPACE 1, ⟨2, some ⟨some 1, none⟩⟩]
  rawArtifacts := [
    ⟨7, 2, .converted, 1785499200000,
      ⟨⟨7, 2, 3, 4, 1, none, .html, none, 5, 128, 1785499200000, "https://example.com/fixture", none,
        1785499200000⟩, .converted⟩⟩,
    ⟨8, 2, .converted, 1785499300000,
      ⟨⟨8, 2, 3, 4, 1, none, .html, none, 6, 128, 1785499300000, "https://example.com/other", none,
        1785499300000⟩, .converted⟩⟩]
  stagingDocuments := []
  conversionRuns := []
  readyPackages := [⟨7, 9⟩]
  retrievalDocuments := []
  evidenceSets := []
  audits := none

theorem primaryKeys_heldFirst : PrimaryKeys heldFirst := by
  constructor <;> simp [KeysUnique, heldFirst, DEFAULT_WORKSPACE]

/-- Both are examined; the one that is cited stays, and the other is archived. -/
theorem retention_archives_expired_heldFirst :
    let call := executeRetentionPolicy 1 "ret_1" ⟨.apply, 1790000000000, none, none⟩ heldFirst
    (∃ result, call.1 = .ok result ∧ result.applied = 1 ∧ result.held = 1) ∧
      ∀ result, call.1 = .ok result →
        (∃ row ∈ call.2.rawArtifacts, row.id = 7 ∧ row.status = .converted) ∧
          (result.truncated = false → ∀ row ∈ heldFirst.rawArtifacts,
            ∃ candidate ∈ result.candidates, candidate.id = row.id) := by
  intro call
  refine ⟨⟨_, rfl, rfl, rfl⟩, fun result hresult => ?_⟩
  obtain ⟨-, hcall⟩ := retention_archives_expired primaryKeys_heldFirst 1 "ret_1"
    ⟨.apply, 1790000000000, none, none⟩
  obtain ⟨⟨evidence, rawArtifacts, _, -, hafter, hraw, -⟩, hexamined⟩ := hcall result hresult
  constructor
  · obtain ⟨first, rest, hkept, -, rfl⟩ := List.forall₂_cons_left_iff.mp hraw
    rcases hkept with rfl | ⟨-, -, hholds, -⟩
    · have hstored : call.2.rawArtifacts = _ := congrArg Database.rawArtifacts hafter
      rw [hstored]
      exact ⟨_, List.mem_cons_self, rfl, rfl⟩
    · have hcited : RetentionHoldReason.readyPackageReference ∈
          rawHolds (ensureRetentionAudit 1 heldFirst) 7 evidence.raw := by
        simp only [rawHolds, List.mem_append, mem_reason]
        exact Or.inr (Or.inr (Or.inr (Or.inr ⟨⟨⟨7, 9⟩, List.mem_singleton_self _, rfl⟩, trivial⟩)))
      rw [hholds] at hcited
      cases hcited
  · intro htruncated row hrow
    have hexpired : row.workspaceId = 2 ∧ row.status ≠ .archived ∧
        isoOrder row.createdAt < isoOrder (cutoffOf 1790000000000 1) := by
      revert row
      decide
    obtain ⟨candidate, hmem, -, hid⟩ := (hexamined htruncated).1 row hrow
      ⟨⟨some 1, none⟩, 1, ⟨⟨2, some ⟨some 1, none⟩⟩, by decide, hexpired.1.symm, rfl, by simp⟩, rfl,
        hexpired.2⟩
    exact ⟨candidate, hmem, hid⟩

end MarkorbitKnowledge.Retention
