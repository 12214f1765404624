import MarkorbitKnowledge.Retention.Execution

/-!
# What a retention call examines

The loop over the workspaces shares one limit between its queries.  `scan_eq` says what comes of it:
the first items, up to the limit, of `expiredItems`, the expired items of all workspaces covered, each
query in its own order; nothing is left out where the scan is not truncated.
-/

namespace MarkorbitKnowledge.Retention

open Contracts Fallible Tables

variable {db : Database} {evidence : EvidenceReferences} {observedAt : Timestamp} {limit : Nat}

/-! ### The items of a workspace -/

abbrev rawOrder (row : RawArtifactRow) : (Nat ×ₗ Int ×ₗ Timestamp) ×ₗ Id :=
  toLex (isoOrder row.createdAt, row.id)

abbrev stagingOrder (row : StagingDocumentRow) : (Nat ×ₗ Int ×ₗ Timestamp) ×ₗ Id :=
  toLex (isoOrder row.updatedAt, row.id)

/-- The instant before which an item of a workspace has expired, for a number of days it is kept. -/
def cutoffOf (observedAt : Timestamp) (days : Nat) : Timestamp := observedAt - days * 86400000

/-- The expired RawArtifacts of a workspace, in the order in which they are examined. -/
def rawItems (db : Database) (evidence : EvidenceReferences) (observedAt : Timestamp)
    (workspace : Id × RetentionPolicy) : List RetentionCandidate :=
  match workspace.2.rawArtifactDays with
  | none => []
  | some days =>
    (Window.ordered rawOrder
      (db.rawArtifacts.filter (rawExpired workspace.1 (cutoffOf observedAt days)))).map
        (rawCandidate db evidence (cutoffOf observedAt days))

/-- The expired staging documents of a workspace, in the order in which they are examined. -/
def stagingItems (db : Database) (evidence : EvidenceReferences) (observedAt : Timestamp)
    (workspace : Id × RetentionPolicy) : List RetentionCandidate :=
  match workspace.2.derivedDocumentDays with
  | none => []
  | some days =>
    (Window.ordered stagingOrder
      (db.stagingDocuments.filter (stagingExpired workspace.1 (cutoffOf observedAt days)))).map
        (stagingCandidate db evidence (cutoffOf observedAt days))

/-- The expired items of the workspaces, in the order in which they are examined. -/
def expiredItems (db : Database) (evidence : EvidenceReferences) (observedAt : Timestamp)
    (workspaces : List (Id × RetentionPolicy)) : List RetentionCandidate :=
  workspaces.flatMap fun workspace =>
    rawItems db evidence observedAt workspace ++ stagingItems db evidence observedAt workspace

/-! ### The queries -/

/-- A query extends the candidates by the first items there is room for. -/
def Scan.extend (limit : Nat) (items : List RetentionCandidate) (scan : Scan) : Scan :=
  ⟨scan.candidates ++ items.take (limit - scan.candidates.length),
    scan.truncated || decide (limit - scan.candidates.length < items.length)⟩

theorem examine_eq {ρ κ : Type} [LinearOrder κ] (order : ρ → κ) (expired : List ρ)
    (candidate : ρ → RetentionCandidate) (scan : Scan) :
    examine limit order expired candidate scan =
      scan.extend limit ((Window.ordered order expired).map candidate) := by
  have htake : (Window.window order (limit - scan.candidates.length + 1) expired).take
      (limit - scan.candidates.length) =
        (Window.ordered order expired).take (limit - scan.candidates.length) := by
    rw [Window.window, List.take_take, min_eq_left (Nat.le_succ _)]
  have hmore : limit - scan.candidates.length <
        (Window.window order (limit - scan.candidates.length + 1) expired).length ↔
      limit - scan.candidates.length < (Window.ordered order expired).length := by
    rw [Window.window, List.length_take]
    omega
  simp only [examine, Scan.extend, htake, List.map_take, List.length_map, decide_eq_decide.mpr hmore]

theorem extend_nil (scan : Scan) : scan.extend limit [] = scan := by
  simp [Scan.extend]

theorem length_extend_le {items : List RetentionCandidate} {scan : Scan}
    (h : scan.candidates.length ≤ limit) : (scan.extend limit items).candidates.length ≤ limit := by
  simp only [Scan.extend, List.length_append, List.length_take]
  omega

theorem examineRaw_eq {workspace : Id × RetentionPolicy} {scan scan' : Scan}
    (h : examineRaw db evidence observedAt limit workspace scan = .ok scan') :
    scan' = scan.extend limit (rawItems db evidence observedAt workspace) := by
  unfold examineRaw at h
  unfold rawItems
  cases hdays : workspace.2.rawArtifactDays with
  | none =>
    rw [hdays] at h
    exact (pure_eq_ok.mp h).symm.trans (extend_nil scan).symm
  | some days =>
    simp only [hdays, cutoff, bind_eq_ok, require_eq_ok, pure_eq_ok] at h
    obtain ⟨_, ⟨-, -, rfl⟩, rfl⟩ := h
    exact examine_eq _ _ _ scan

theorem examineDerived_eq {workspace : Id × RetentionPolicy} {scan scan' : Scan}
    (h : examineDerived db evidence observedAt limit workspace scan = .ok scan') :
    scan' = scan.extend limit (stagingItems db evidence observedAt workspace) := by
  unfold examineDerived at h
  unfold stagingItems
  cases hdays : workspace.2.derivedDocumentDays with
  | none =>
    rw [hdays] at h
    exact (pure_eq_ok.mp h).symm.trans (extend_nil scan).symm
  | some days =>
    simp only [hdays, cutoff, bind_eq_ok, require_eq_ok, pure_eq_ok] at h
    obtain ⟨_, ⟨-, -, rfl⟩, rfl⟩ := h
    exact examine_eq _ _ _ scan

/-! ### The loop -/

theorem extend_extend {first second : List RetentionCandidate} {scan : Scan}
    (h : scan.candidates.length ≤ limit) :
    (scan.extend limit first).extend limit second = scan.extend limit (first ++ second) := by
  have hlength : (scan.extend limit first).candidates.length =
      scan.candidates.length + min (limit - scan.candidates.length) first.length := by
    simp [Scan.extend]
  rw [Scan.extend, hlength]
  dsimp only [Scan.extend]
  rw [List.take_append, List.append_assoc, List.length_append, Bool.or_assoc, ← Bool.decide_or]
  congr 1
  · congr 2
    congr 1
    omega
  · congr 1
    rw [decide_eq_decide]
    omega

/-- No room is left once the limit is reached. -/
theorem candidates_extend_full {items : List RetentionCandidate} {scan : Scan}
    (h : limit ≤ scan.candidates.length) : (scan.extend limit items).candidates = scan.candidates := by
  simp [Scan.extend, Nat.sub_eq_zero_of_le h]

/-- The candidates are the first expired items, and all of them where the scan is not truncated. -/
theorem scan_eq {workspaces : List (Id × RetentionPolicy)} {scan scan' : Scan}
    (h : scanWorkspaces db evidence observedAt limit workspaces scan = .ok scan')
    (hroom : scan.candidates.length ≤ limit) :
    scan'.candidates =
        (scan.extend limit (expiredItems db evidence observedAt workspaces)).candidates ∧
      (scan'.truncated = false →
        (scan.extend limit (expiredItems db evidence observedAt workspaces)).truncated = false) := by
  induction workspaces generalizing scan with
  | nil =>
    rw [scanWorkspaces, pure_eq_ok] at h
    subst h
    rw [expiredItems, List.flatMap_nil, extend_nil]
    exact ⟨rfl, id⟩
  | cons workspace rest ih =>
    rw [scanWorkspaces, bind_eq_ok] at h
    obtain ⟨raw, hraw, h⟩ := h
    obtain rfl := examineRaw_eq hraw
    have hroom' : (scan.extend limit (rawItems db evidence observedAt workspace)).candidates.length ≤
        limit := length_extend_le hroom
    rw [expiredItems, List.flatMap_cons, List.append_assoc, ← extend_extend hroom]
    split_ifs at h with hfull
    · rw [pure_eq_ok] at h
      subst h
      exact ⟨(candidates_extend_full hfull).symm, fun htruncated => absurd htruncated (by simp)⟩
    · rw [bind_eq_ok] at h
      obtain ⟨derived, hderived, hrest⟩ := h
      obtain rfl := examineDerived_eq hderived
      rw [← extend_extend hroom']
      exact ih hrest (length_extend_le hroom')

/-! ### What an expired item is -/

/-- The workspace is one of those the call covers, with the policy. -/
def Covered (db : Database) (input : RetentionInput) (workspaceId : Id) (policy : RetentionPolicy) :
    Prop :=
  ∃ row ∈ db.workspaces, row.id = workspaceId ∧ row.document = some policy ∧
    ∀ id ∈ input.workspaceId, id = workspaceId

/-- The RawArtifact has expired at the reference time of the call. -/
def RawExpired (db : Database) (input : RetentionInput) (row : RawArtifactRow) : Prop :=
  ∃ policy days, Covered db input row.workspaceId policy ∧ policy.rawArtifactDays = some days ∧
    row.status ≠ .archived ∧ isoOrder row.createdAt < isoOrder (cutoffOf input.observedAt days)

/-- The staging document has expired at the reference time of the call. -/
def StagingExpired (db : Database) (input : RetentionInput) (row : StagingDocumentRow) : Prop :=
  ∃ policy days, Covered db input row.workspaceId policy ∧ policy.derivedDocumentDays = some days ∧
    row.status ≠ .archived ∧ isoOrder row.updatedAt < isoOrder (cutoffOf input.observedAt days)

theorem loadWorkspaces_eq_ok {workspaceId : Option Id} {workspaces : List (Id × RetentionPolicy)} :
    loadWorkspaces db workspaceId = .ok workspaces ↔
      (∀ row ∈ Window.ordered WorkspaceRow.id (db.workspaces.filter fun row =>
          workspaceId.all fun id => decide (row.id = id)), row.document ≠ none) ∧
        (Window.ordered WorkspaceRow.id (db.workspaces.filter fun row =>
          workspaceId.all fun id => decide (row.id = id))).map
            (fun row => (row.id, row.document.getD ⟨none, none⟩)) = workspaces := by
  have hrow : ∀ (row : WorkspaceRow) (entry : Id × RetentionPolicy),
      (do let policy ← orThrow row.document "Persisted Workspace no longer satisfies Schema v1"
          return (row.id, policy) : Except String (Id × RetentionPolicy)) = .ok entry ↔
        row.document ≠ none ∧ (row.id, row.document.getD ⟨none, none⟩) = entry := by
    intro row entry
    cases hdocument : row.document with
    | none => simp [orThrow, bind, Except.bind]
    | some policy => simp [orThrow]
  exact mapM_guarded hrow

theorem mem_loadWorkspaces {input : RetentionInput} {workspaces : List (Id × RetentionPolicy)}
    (h : loadWorkspaces db input.workspaceId = .ok workspaces) {workspaceId : Id}
    {policy : RetentionPolicy} :
    (workspaceId, policy) ∈ workspaces ↔ Covered db input workspaceId policy := by
  rw [loadWorkspaces_eq_ok] at h
  obtain ⟨hreadable, rfl⟩ := h
  simp only [List.mem_map, Window.mem_ordered, List.mem_filter, Covered, Prod.mk.injEq]
  constructor
  · rintro ⟨row, ⟨hrow, hid⟩, rfl, hpolicy⟩
    have hne := hreadable row (Window.mem_ordered.mpr (List.mem_filter.mpr ⟨hrow, hid⟩))
    obtain ⟨policy', hdocument⟩ := Option.ne_none_iff_exists'.mp hne
    rw [hdocument, Option.getD_some] at hpolicy
    refine ⟨row, hrow, rfl, hpolicy ▸ hdocument, fun id hmem => ?_⟩
    rw [Option.mem_def.mp hmem] at hid
    exact (of_decide_eq_true hid).symm
  · rintro ⟨row, hrow, rfl, hdocument, hid⟩
    refine ⟨row, ⟨hrow, ?_⟩, rfl, by rw [hdocument, Option.getD_some]⟩
    rw [Option.all_eq_true]
    intro id hmem
    exact decide_eq_true (hid id hmem).symm

theorem mem_rawItems {workspace : Id × RetentionPolicy} {candidate : RetentionCandidate} :
    candidate ∈ rawItems db evidence observedAt workspace ↔
      ∃ days, workspace.2.rawArtifactDays = some days ∧ ∃ row ∈ db.rawArtifacts,
        rawExpired workspace.1 (cutoffOf observedAt days) row = true ∧
          rawCandidate db evidence (cutoffOf observedAt days) row = candidate := by
  unfold rawItems
  cases workspace.2.rawArtifactDays with
  | none => simp
  | some days => simp [Window.mem_ordered, and_assoc]

theorem mem_stagingItems {workspace : Id × RetentionPolicy} {candidate : RetentionCandidate} :
    candidate ∈ stagingItems db evidence observedAt workspace ↔
      ∃ days, workspace.2.derivedDocumentDays = some days ∧ ∃ row ∈ db.stagingDocuments,
        stagingExpired workspace.1 (cutoffOf observedAt days) row = true ∧
          stagingCandidate db evidence (cutoffOf observedAt days) row = candidate := by
  unfold stagingItems
  cases workspace.2.derivedDocumentDays with
  | none => simp
  | some days => simp [Window.mem_ordered, and_assoc]

/-- The candidates are the expired items, each with the holds it has. -/
theorem mem_expiredItems {input : RetentionInput} {workspaces : List (Id × RetentionPolicy)}
    (h : loadWorkspaces db input.workspaceId = .ok workspaces) {candidate : RetentionCandidate} :
    candidate ∈ expiredItems db evidence input.observedAt workspaces ↔
      (∃ row ∈ db.rawArtifacts, ∃ policy days, Covered db input row.workspaceId policy ∧
        policy.rawArtifactDays = some days ∧ row.status ≠ .archived ∧
        isoOrder row.createdAt < isoOrder (cutoffOf input.observedAt days) ∧
        rawCandidate db evidence (cutoffOf input.observedAt days) row = candidate) ∨
      ∃ row ∈ db.stagingDocuments, ∃ policy days, Covered db input row.workspaceId policy ∧
        policy.derivedDocumentDays = some days ∧ row.status ≠ .archived ∧
        isoOrder row.updatedAt < isoOrder (cutoffOf input.observedAt days) ∧
        stagingCandidate db evidence (cutoffOf input.observedAt days) row = candidate := by
  simp only [expiredItems, List.mem_flatMap, List.mem_append, mem_rawItems, mem_stagingItems, Prod.exists,
    ← mem_loadWorkspaces h, rawExpired, stagingExpired, decide_eq_true_eq]
  constructor
  · rintro ⟨workspaceId, policy, hworkspace, ⟨days, hdays, row, hrow, ⟨rfl, hexpired⟩, rfl⟩ |
      ⟨days, hdays, row, hrow, ⟨rfl, hexpired⟩, rfl⟩⟩
    · exact Or.inl ⟨row, hrow, policy, days, hworkspace, hdays, hexpired.1, hexpired.2, rfl⟩
    · exact Or.inr ⟨row, hrow, policy, days, hworkspace, hdays, hexpired.1, hexpired.2, rfl⟩
  · rintro (⟨row, hrow, policy, days, hworkspace, hdays, hstatus, hlt, rfl⟩ |
      ⟨row, hrow, policy, days, hworkspace, hdays, hstatus, hlt, rfl⟩)
    · exact ⟨_, policy, hworkspace, Or.inl ⟨days, hdays, row, hrow, ⟨rfl, hstatus, hlt⟩, rfl⟩⟩
    · exact ⟨_, policy, hworkspace, Or.inr ⟨days, hdays, row, hrow, ⟨rfl, hstatus, hlt⟩, rfl⟩⟩

end MarkorbitKnowledge.Retention
