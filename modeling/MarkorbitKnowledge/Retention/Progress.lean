import MarkorbitKnowledge.Lib.Backlog
import MarkorbitKnowledge.Retention.Queue

/-!
# Retention progress

Calls at one reference time are passes over the queue of expired items (`afterCalls_eq`): a staging
document leaves when it has no hold, a RawArtifact when its staging documents have left too.  An item
that is kept fills its place in the window of every later call, so `retention_progresses_iff` bounds the
kept items before each item that the calls could archive.
-/

namespace MarkorbitKnowledge.Retention

open Contracts Fallible Tables

variable {db : Database} {input : RetentionInput} {evidence : EvidenceReferences}
  {workspaces : List (Id × RetentionPolicy)} {limit : Nat} {defaultWorkspaceId : Id}
  {executionIds : Nat → String}

/-- The registry as a number of calls find it, each with an execution id of its own. -/
def afterCalls (defaultWorkspaceId : Id) (executionIds : Nat → String) (input : RetentionInput)
    (db : Database) : Nat → Database
  | 0 => ensureRetentionAudit defaultWorkspaceId db
  | n + 1 => (executeRetentionPolicy defaultWorkspaceId (executionIds n) input
      (afterCalls defaultWorkspaceId executionIds input db n)).2

/-- The item has expired at the reference time of the call. -/
def Expired (db : Database) (input : RetentionInput) : Item → Prop
  | (.archiveRawArtifact, id) => ∃ row ∈ db.rawArtifacts, row.id = id ∧ RawExpired db input row
  | (.archiveDerivedDocument, id) =>
    ∃ row ∈ db.stagingDocuments, row.id = id ∧ StagingExpired db input row

/-- The item is archived. -/
def Archived (db : Database) : Item → Prop
  | (.archiveRawArtifact, id) => ∃ row ∈ db.rawArtifacts, row.id = id ∧ row.status = .archived
  | (.archiveDerivedDocument, id) => ∃ row ∈ db.stagingDocuments, row.id = id ∧ row.status = .archived

/-- Every expired item that has no hold before some call is archived before some call. -/
def Progresses (states : Nat → Database) (input : RetentionInput) (evidence : EvidenceReferences) :
    Prop :=
  ∀ n item, Expired (states n) input item → holdsOf (states n) evidence item = [] →
    ∃ m, Archived (states m) item

/-- The item is held whatever the calls archive: a RawArtifact by another reason than a staging document,
    or by a staging document that is not in the queue. -/
def kept (db : Database) (evidence : EvidenceReferences) (queue : List Item) : Item → Bool
  | (.archiveRawArtifact, id) =>
    decide (∃ reason ∈ rawHolds db id evidence.raw, reason ≠ .activeStagingReference) ||
      decide (∃ row ∈ db.stagingDocuments, (row.rawArtifactId = id ∧ row.status ≠ .archived) ∧
        (.archiveDerivedDocument, row.id) ∉ queue)
  | (.archiveDerivedDocument, id) => decide (stagingHolds db id evidence.staging ≠ [])

/-- The staging documents of a RawArtifact that are not archived. -/
def stagingOf (db : Database) : Item → List Item
  | (.archiveRawArtifact, id) =>
    (db.stagingDocuments.filter fun row => decide (row.rawArtifactId = id ∧ row.status ≠ .archived)).map
      fun row => (.archiveDerivedDocument, row.id)
  | (.archiveDerivedDocument, _) => []

/-- What the calls check holds, also of the documents of the expired items that they could archive. -/
structure Callable (db : Database) (input : RetentionInput) (limit : Nat)
    (evidence : EvidenceReferences) (workspaces : List (Id × RetentionPolicy)) : Prop
    extends Checked db input limit evidence workspaces where
  documents : ValidFor ((expiredItems db evidence input.observedAt workspaces).filter fun candidate =>
    decide (Backlog.Clearable (kept db evidence (queueOf db evidence input.observedAt workspaces))
      (stagingOf db) (queueOf db evidence input.observedAt workspaces) (itemOf candidate))) db

/-! ### Holds after archiving -/

/-- A RawArtifact without another hold is held exactly while a staging document cites it. -/
theorem rawHolds_eq_nil {id : Id} {cited : List Id} :
    rawHolds db id cited = [] ↔
      (¬∃ reason ∈ rawHolds db id cited, reason ≠ .activeStagingReference) ∧
        ¬∃ row ∈ db.stagingDocuments, row.rawArtifactId = id ∧ row.status ≠ .archived := by
  constructor
  · intro hnone
    refine ⟨by simp [hnone], ?_⟩
    simp only [rawHolds, List.append_eq_nil_iff, reason_eq_nil] at hnone
    exact hnone.2.1
  · rintro ⟨hother, hcited⟩
    rw [List.eq_nil_iff_forall_not_mem]
    intro r hmem
    obtain rfl : r = .activeStagingReference := by
      by_contra hne
      exact hother ⟨r, hmem, hne⟩
    simp only [rawHolds, List.mem_append, mem_reason] at hmem
    simp [hcited] at hmem

/-- A staging document cites the artifact after archiving if it did before and is not archived. -/
theorem cites_archivedBy {observedAt : Timestamp} {candidates : List RetentionCandidate} {id : Id} :
    (∃ row ∈ (archivedBy observedAt candidates db).stagingDocuments,
        row.rawArtifactId = id ∧ row.status ≠ .archived) ↔
      ∃ row ∈ db.stagingDocuments, (row.rawArtifactId = id ∧ row.status ≠ .archived) ∧
        (.archiveDerivedDocument, row.id) ∉ candidates.map itemOf := by
  simp only [archivedBy, mem_rewriteAt, key_stagingDocument]
  constructor
  · rintro ⟨_, ⟨row, hrow, rfl⟩, hcites⟩
    split_ifs at hcites with hid
    · exact absurd rfl hcites.2
    · exact ⟨row, hrow, hcites, fun hmem => hid (mem_idsOf.mpr hmem)⟩
  · rintro ⟨row, hrow, hcites, hmem⟩
    refine ⟨row, ⟨row, hrow, if_neg fun hid => hmem (mem_idsOf.mp hid)⟩, hcites⟩

/-- Archiving changes no other hold of a RawArtifact. -/
theorem otherHolds_archivedBy {observedAt : Timestamp} {candidates : List RetentionCandidate} {id : Id}
    {cited : List Id} :
    (∃ reason ∈ rawHolds (archivedBy observedAt candidates db) id cited,
        reason ≠ .activeStagingReference) ↔
      ∃ reason ∈ rawHolds db id cited, reason ≠ .activeStagingReference := by
  simp only [rawHolds, List.mem_append, mem_reason]
  refine exists_congr fun r => ?_
  refine and_congr_left fun hne => ?_
  simp only [hne, and_false, false_or]
  rfl

theorem stagingHolds_archivedBy {observedAt : Timestamp} {candidates : List RetentionCandidate}
    {id : Id} {cited : List Id} :
    stagingHolds (archivedBy observedAt candidates db) id cited = stagingHolds db id cited := by
  have hruns : (∃ row ∈ (archivedBy observedAt candidates db).stagingDocuments, row.id = id ∧
        ∃ run ∈ db.conversionRuns, run.id = row.conversionRunId ∧ isTerminal run.status = false) ↔
      ∃ row ∈ db.stagingDocuments, row.id = id ∧
        ∃ run ∈ db.conversionRuns, run.id = row.conversionRunId ∧ isTerminal run.status = false := by
    simp only [archivedBy, mem_rewriteAt]
    constructor
    · rintro ⟨_, ⟨row, hrow, rfl⟩, hactive⟩
      refine ⟨row, hrow, ?_⟩
      split_ifs at hactive
      · exact hactive
      · exact hactive
    · rintro ⟨row, hrow, hactive⟩
      refine ⟨_, ⟨row, hrow, rfl⟩, ?_⟩
      split_ifs
      · exact hactive
      · exact hactive
  unfold stagingHolds
  congr 1
  exact if_congr hruns rfl rfl

/-- An item is without a hold exactly when it is free in the queue of what is not archived. -/
theorem holdsOf_archivedBy {observedAt : Timestamp} {candidates : List RetentionCandidate}
    {queue : List Item} (hsub : candidates.map itemOf ⊆ queue) (item : Item) :
    holdsOf (archivedBy observedAt candidates db) evidence item = [] ↔
      Backlog.free (kept db evidence queue) (stagingOf db)
        (queue.filter fun item => decide (item ∉ candidates.map itemOf)) item = true := by
  rw [Backlog.free_iff]
  rcases item with ⟨_ | _, id⟩
  · have hother := @otherHolds_archivedBy db observedAt candidates id evidence.raw
    rw [holdsOf, rawHolds_eq_nil, hother, cites_archivedBy]
    simp only [kept, stagingOf, Bool.or_eq_false_iff, decide_eq_false_iff_not, List.mem_map,
      List.mem_filter, decide_eq_true_eq]
    constructor
    · rintro ⟨hheld, hcited⟩
      have harchived : ∀ row ∈ db.stagingDocuments, row.rawArtifactId = id ∧ row.status ≠ .archived →
          (.archiveDerivedDocument, row.id) ∈ candidates.map itemOf := by
        intro row hrow hcites
        by_contra hmem
        exact hcited ⟨row, hrow, hcites, fun h => hmem (List.mem_map.mpr h)⟩
      refine ⟨⟨hheld, ?_⟩, ?_⟩
      · rintro ⟨row, hrow, hcites, hmem⟩
        exact hmem (hsub (harchived row hrow hcites))
      · rintro _ ⟨row, ⟨hrow, hcites⟩, rfl⟩ ⟨-, hmem⟩
        exact hmem (List.mem_map.mp (harchived row hrow hcites))
    · rintro ⟨⟨hheld, hout⟩, hgone⟩
      refine ⟨hheld, ?_⟩
      rintro ⟨row, hrow, hcites, hmem⟩
      have hin : (.archiveDerivedDocument, row.id) ∈ queue := by
        by_contra hnot
        exact hout ⟨row, hrow, hcites, hnot⟩
      exact hgone _ ⟨row, ⟨hrow, hcites⟩, rfl⟩ ⟨hin, hmem⟩
  · have hholds := @stagingHolds_archivedBy db observedAt candidates id evidence.staging
    simp [holdsOf, hholds, kept, stagingOf]

/-! ### The calls as passes -/

theorem archivedBy_append {observedAt : Timestamp} (first second : List RetentionCandidate)
    (db : Database) :
    archivedBy observedAt (first ++ second) db =
      archivedBy observedAt second (archivedBy observedAt first db) := by
  induction first generalizing db with
  | nil => rw [List.nil_append, archivedBy_nil]
  | cons candidate first ih =>
    rw [List.cons_append, ← archivedBy_cons candidate (first ++ second), ih, archivedBy_cons]

/-- What a call archives are the free items of the window. -/
theorem mem_cleared {item : Item} :
    item ∈ (cleared db evidence input.observedAt limit workspaces).map itemOf ↔
      item ∈ (queueOf db evidence input.observedAt workspaces).take limit ∧
        holdsOf db evidence item = [] := by
  rw [cleared, queueOf, ← List.map_take, actionableOf]
  simp only [List.mem_map, List.mem_filter, decide_eq_true_eq]
  constructor
  · rintro ⟨candidate, ⟨hmem, hholds⟩, rfl⟩
    rw [holdReasons_of_mem (List.mem_of_mem_take hmem)] at hholds
    exact ⟨⟨candidate, hmem, rfl⟩, hholds⟩
  · rintro ⟨⟨candidate, hmem, rfl⟩, hholds⟩
    rw [← holdReasons_of_mem (List.mem_of_mem_take hmem)] at hholds
    exact ⟨candidate, ⟨hmem, hholds⟩, rfl⟩

theorem ensureRetentionAudit_idem (defaultWorkspaceId : Id) (db : Database) (candidates observedAt)
    (audits : List RetentionExecutionResult) :
    ensureRetentionAudit defaultWorkspaceId (audited audits
        (archivedBy observedAt candidates (ensureRetentionAudit defaultWorkspaceId db))) =
      audited audits
        (archivedBy observedAt candidates (ensureRetentionAudit defaultWorkspaceId db)) := by
  have hfound : (find? (ensureRetentionAudit defaultWorkspaceId db).workspaces
      defaultWorkspaceId).isSome = true := by
    unfold ensureRetentionAudit initializeRegistry
    split_ifs with hfound
    · exact hfound
    · rw [Option.isSome_iff_ne_none, Ne, find?_eq_none]
      intro hnone
      exact hnone _ (List.mem_append_right _ (List.mem_singleton_self _)) rfl
  rw [ensureRetentionAudit, initializeRegistry, audited, archivedBy, if_pos hfound]
  rfl

/-- A call can be followed by another. -/
theorem Checked.archivedBy (h : Checked db input limit evidence workspaces)
    (candidates : List RetentionCandidate) (audits : List RetentionExecutionResult) :
    Checked (audited audits (Retention.archivedBy input.observedAt candidates db)) input limit evidence
      workspaces :=
  ⟨h.applies, h.observed, h.bounded, h.readable, h.loaded, h.found, h.cutoffs⟩

/-- Documents that are valid before archiving other items are valid after it. -/
theorem ValidFor.archivedBy {observedAt : Timestamp} {first candidates more : List RetentionCandidate}
    (h : ValidFor first db) (hnew : ∀ item ∈ more.map itemOf,
      item ∈ first.map itemOf ∧ item ∉ candidates.map itemOf) :
    ValidFor more (Retention.archivedBy observedAt candidates db) := by
  have hids : ∀ {action id}, id ∈ idsOf action more →
      id ∈ idsOf action first ∧ id ∉ idsOf action candidates := by
    intro action id hid
    obtain ⟨hmem, hout⟩ := hnew _ (mem_idsOf.mp hid)
    exact ⟨mem_idsOf.mpr hmem, fun hin => hout (mem_idsOf.mp hin)⟩
  constructor
  · intro row hrow hid
    obtain ⟨before, hbefore, rfl⟩ := mem_rewriteAt.mp hrow
    obtain ⟨hmem, hout⟩ := hids hid
    split_ifs at hmem hout ⊢ with hin
    · exact absurd hin hout
    · exact h.raw before hbefore hmem
  · intro row hrow hid
    obtain ⟨before, hbefore, rfl⟩ := mem_rewriteAt.mp hrow
    obtain ⟨hmem, hout⟩ := hids hid
    split_ifs at hmem hout ⊢ with hin
    · exact absurd hin hout
    · exact h.staging before hbefore hmem

/-- After a number of calls the registry is the first one with what has left the queue archived. -/
theorem afterCalls_eq (hkeys : PrimaryKeys db)
    (h : Callable (ensureRetentionAudit defaultWorkspaceId db) input limit evidence workspaces) (n : Nat) :
    ∃ candidates audits,
      afterCalls defaultWorkspaceId executionIds input db n =
        audited audits
          (archivedBy input.observedAt candidates (ensureRetentionAudit defaultWorkspaceId db)) ∧
      candidates.map itemOf ⊆ queueOf (ensureRetentionAudit defaultWorkspaceId db) evidence
        input.observedAt workspaces ∧
      Backlog.after
          (kept (ensureRetentionAudit defaultWorkspaceId db) evidence
            (queueOf (ensureRetentionAudit defaultWorkspaceId db) evidence input.observedAt workspaces))
          (stagingOf (ensureRetentionAudit defaultWorkspaceId db)) limit
          (queueOf (ensureRetentionAudit defaultWorkspaceId db) evidence input.observedAt workspaces) n =
        (queueOf (ensureRetentionAudit defaultWorkspaceId db) evidence input.observedAt
          workspaces).filter fun item => decide (item ∉ candidates.map itemOf) := by
  have hprepared := hkeys.prepared defaultWorkspaceId
  have hidem := ensureRetentionAudit_idem defaultWorkspaceId db
  induction n with
  | zero =>
    refine ⟨[], (initializeRegistry defaultWorkspaceId db).audits.getD [], ?_, List.nil_subset _, ?_⟩
    · rw [archivedBy_nil]
      rfl
    · simp [Backlog.after]
  | succ n ih =>
    obtain ⟨candidates, audits, hstate, hsub, hafter⟩ := ih
    set first := ensureRetentionAudit defaultWorkspaceId db
    set queue := queueOf first evidence input.observedAt workspaces with hqueue
    set state := archivedBy input.observedAt candidates first with hdef
    have hleft : queueOf state evidence input.observedAt workspaces =
        queue.filter fun item => decide (item ∉ candidates.map itemOf) :=
      queueOf_archivedBy hprepared candidates
    set more := cleared state evidence input.observedAt limit workspaces with hmore
    have hmem : ∀ item, item ∈ more.map itemOf ↔
        item ∈ (queue.filter fun item => decide (item ∉ candidates.map itemOf)).take limit ∧
          Backlog.free (kept first evidence queue) (stagingOf first)
            (queue.filter fun item => decide (item ∉ candidates.map itemOf)) item = true := by
      intro item
      rw [hmore, mem_cleared, hleft, holdsOf_archivedBy hsub]
    -- What a call archives is free, and so clearable; its document is the first one.
    have hdocuments : ValidFor more state := by
      refine h.documents.archivedBy fun item hitem => ?_
      obtain ⟨htake, hfree⟩ := (hmem item).mp hitem
      obtain ⟨hqueued, hout⟩ := List.mem_filter.mp (List.mem_of_mem_take htake)
      rw [← hafter] at hfree
      obtain ⟨candidate, hexpired, rfl⟩ := List.mem_map.mp hqueued
      exact ⟨List.mem_map_of_mem (List.mem_filter.mpr
        ⟨hexpired, decide_eq_true (Backlog.clearable_of_free hfree)⟩), of_decide_eq_true hout⟩
    obtain ⟨audits', hcall⟩ := (h.toChecked.archivedBy candidates audits).executeRetentionPolicy_eq
      ((hprepared.archivedBy candidates).audited audits) (hidem candidates input.observedAt audits)
      ⟨hdocuments.raw, hdocuments.staging⟩ (executionIds n)
    refine ⟨candidates ++ more, audits', ?_, ?_, ?_⟩
    · rw [afterCalls, hstate, hcall, archivedBy_append]
      rfl
    · rw [List.map_append]
      refine List.append_subset.mpr ⟨hsub, fun item hitem => ?_⟩
      exact (List.mem_filter.mp (List.mem_of_mem_take ((hmem item).mp hitem).1)).1
    · rw [Backlog.after, hafter, Backlog.pass, List.filter_filter]
      refine List.filter_congr fun item _ => ?_
      have hgone : item ∉ (candidates ++ more).map itemOf ↔
          item ∉ candidates.map itemOf ∧ item ∉ more.map itemOf := by
        rw [List.map_append, List.mem_append, not_or]
      rw [Bool.eq_iff_iff, Bool.and_eq_true, decide_eq_true_eq, decide_eq_true_eq, hgone, hmem,
        Bool.not_eq_true', Bool.and_eq_false_iff, decide_eq_false_iff_not, not_and_or,
        Bool.not_eq_true, and_comm]

/-! ### Progress -/

/-- An item that was in the queue is archived exactly when it is among those that have left. -/
theorem exists_archived_iff {ρ σ : Type} [Keyed ρ Id] {f : ρ → ρ} (status : ρ → σ) {archived : σ}
    (hkey : ∀ row, key (f row) = key row) (hstatus : ∀ row, status (f row) = archived) {rows : List ρ}
    (hunique : KeysUnique rows) {row : ρ} (hrow : row ∈ rows) (hactive : status row ≠ archived)
    {ids : List Id} :
    (∃ after ∈ rewriteAt f ids rows, key after = key row ∧ status after = archived) ↔ key row ∈ ids := by
  constructor
  · rintro ⟨_, hmem, hsame, harchived⟩
    obtain ⟨before, hbefore, rfl⟩ := mem_rewriteAt.mp hmem
    split_ifs at hsame harchived with hin
    · rw [← hsame, hkey]
      exact hin
    · obtain rfl := hunique.eq_of_key hbefore hrow hsame
      exact absurd harchived hactive
  · intro hin
    refine ⟨f row, mem_rewriteAt.mpr ⟨row, hrow, if_pos hin⟩, hkey row, hstatus row⟩

theorem mem_queueOf (hworkspaces : loadWorkspaces db input.workspaceId = .ok workspaces) {item : Item} :
    item ∈ queueOf db evidence input.observedAt workspaces ↔ Expired db input item := by
  rcases item with ⟨_ | _, id⟩
  · exact mem_queueOf_raw hworkspaces
  · exact mem_queueOf_staging hworkspaces

theorem archived_archivedBy (hkeys : PrimaryKeys db) {candidates : List RetentionCandidate} {item : Item}
    (hexpired : Expired db input item) :
    Archived (archivedBy input.observedAt candidates db) item ↔ item ∈ candidates.map itemOf := by
  rcases item with ⟨_ | _, id⟩
  · obtain ⟨row, hrow, rfl, _, _, -, -, hactive, -⟩ := hexpired
    rw [← mem_idsOf]
    exact exists_archived_iff (f := archivedRaw) RawArtifactRow.status (fun _ => rfl)
      (fun _ => rfl) hkeys.rawArtifacts hrow hactive
  · obtain ⟨row, hrow, rfl, _, _, -, -, hactive, -⟩ := hexpired
    rw [← mem_idsOf]
    exact exists_archived_iff (f := archivedStaging input.observedAt) StagingDocumentRow.status
      (fun _ => rfl) (fun _ => rfl) hkeys.stagingDocuments hrow hactive

/-- What the registry is before a call, in terms of what is left in the queue. -/
theorem afterCalls_spec (hkeys : PrimaryKeys db)
    (h : Callable (ensureRetentionAudit defaultWorkspaceId db) input limit evidence workspaces) (n : Nat) :
    let first := ensureRetentionAudit defaultWorkspaceId db
    let queue := queueOf first evidence input.observedAt workspaces
    let left := Backlog.after (kept first evidence queue) (stagingOf first) limit queue n
    let state := afterCalls defaultWorkspaceId executionIds input db n
    (∀ item, Expired state input item ↔ item ∈ left) ∧
      (∀ item, holdsOf state evidence item = [] ↔
        Backlog.free (kept first evidence queue) (stagingOf first) left item = true) ∧
      ∀ item ∈ queue, Archived state item ↔ item ∉ left := by
  intro first queue left state
  have hprepared : PrimaryKeys first := hkeys.prepared defaultWorkspaceId
  obtain ⟨candidates, audits, hstate, hsub, hleft⟩ := @afterCalls_eq _ _ _ _ _ _ executionIds hkeys h n
  have hqueue : queueOf (archivedBy input.observedAt candidates first) evidence input.observedAt
      workspaces = left := (queueOf_archivedBy hprepared candidates).trans hleft.symm
  have hloaded : loadWorkspaces state input.workspaceId = .ok workspaces := by
    change loadWorkspaces (afterCalls defaultWorkspaceId executionIds input db n) _ = _
    rw [hstate]
    exact h.loaded
  refine ⟨fun item => ?_, fun item => ?_, fun item hitem => ?_⟩
  · rw [← mem_queueOf hloaded, ← hqueue]
    change item ∈ queueOf (afterCalls defaultWorkspaceId executionIds input db n) _ _ _ ↔ _
    rw [hstate]
    exact Iff.rfl
  · change holdsOf (afterCalls defaultWorkspaceId executionIds input db n) _ _ = [] ↔ _
    rw [hstate, show left = _ from hleft]
    exact @holdsOf_archivedBy first evidence input.observedAt candidates queue hsub item
  · change Archived (afterCalls defaultWorkspaceId executionIds input db n) _ ↔ _
    rw [hstate, show left = _ from hleft, List.mem_filter, decide_eq_true_eq, not_and, not_not]
    have hexpired : Expired first input item := (mem_queueOf h.loaded).mp hitem
    exact (archived_archivedBy hprepared hexpired).trans ⟨fun hmem _ => hmem, fun himp => himp hitem⟩

/-- The calls archive what is without a hold exactly when the passes take out what becomes free. -/
theorem progresses_iff (hkeys : PrimaryKeys db)
    (h : Callable (ensureRetentionAudit defaultWorkspaceId db) input limit evidence workspaces) :
    let first := ensureRetentionAudit defaultWorkspaceId db
    let queue := queueOf first evidence input.observedAt workspaces
    let left := Backlog.after (kept first evidence queue) (stagingOf first) limit queue
    Progresses (afterCalls defaultWorkspaceId executionIds input db) input evidence ↔
      ∀ n, ∀ item ∈ left n, Backlog.free (kept first evidence queue) (stagingOf first) (left n) item = true →
        ∃ m, item ∉ left m := by
  intro first queue left
  refine forall_congr' fun n => forall_congr' fun item => ?_
  obtain ⟨hexpired, hholds, -⟩ := @afterCalls_spec _ _ _ _ _ _ executionIds hkeys h n
  rw [hexpired, hholds]
  refine imp_congr_right fun hmem => imp_congr_right fun _ => exists_congr fun m => ?_
  obtain ⟨-, -, harchived⟩ := @afterCalls_spec _ _ _ _ _ _ executionIds hkeys h m
  exact harchived item ((@Backlog.after_sublist _ _ _ _ _ 0 n _ (Nat.zero_le n)).subset hmem)

theorem stagingOf_stagingOf (item : Item) {staging : Item} (h : staging ∈ stagingOf db item) :
    stagingOf db staging = [] := by
  rcases item with ⟨_ | _, id⟩
  · obtain ⟨row, -, rfl⟩ := List.mem_map.mp h
    rfl
  · cases h

/-- Repeated calls that do not throw archive every expired item without a hold exactly when each expired
    item that they could archive has, before it in the queue, fewer than the limit that they cannot
    archive or not before it. -/
theorem retention_progresses_iff (hkeys : PrimaryKeys db)
    (h : Callable (ensureRetentionAudit defaultWorkspaceId db) input limit evidence workspaces)
    (executionIds : Nat → String) :
    let first := ensureRetentionAudit defaultWorkspaceId db
    let queue := queueOf first evidence input.observedAt workspaces
    Progresses (afterCalls defaultWorkspaceId executionIds input db) input evidence ↔
      ∀ item ∈ queue, Backlog.Clearable (kept first evidence queue) (stagingOf first) queue item →
        Backlog.obstacles (kept first evidence queue) (stagingOf first) queue.idxOf queue item < limit := by
  intro first queue
  have hnodup : queue.Nodup := nodup_queueOf (hkeys.prepared defaultWorkspaceId) h.loaded
  refine (progresses_iff hkeys h).trans ?_
  exact Backlog.cleared_iff stagingOf_stagingOf (Backlog.pairwise_idxOf hnodup)

/-- A call that archives at most that many items. -/
def applyInput (limit : Int) : RetentionInput := ⟨.apply, 1790000000000, none, some limit⟩

theorem callable_heldFirst (limit : Int) (hlimit : 0 < limit ∧ limit ≤ MAX_LIMIT) :
    Callable (ensureRetentionAudit 1 heldFirst) (applyInput limit) limit.toNat ⟨[], []⟩
      [(1, ⟨none, some 3650⟩), (2, ⟨some 1, none⟩)] := by
  have hdate : isDate 1790000000000 = true := by decide
  have hderived : isDate (cutoffOf 1790000000000 3650) = true := by decide
  have hraw : isDate (cutoffOf 1790000000000 1) = true := by decide
  have hvalid : ∀ row ∈ (ensureRetentionAudit 1 heldFirst).rawArtifacts,
      isRawArtifactDocument row.document = true := by decide
  refine ⟨⟨rfl, hdate, ?_, rfl, rfl, fun h => absurd rfl h, ?_⟩, fun row hrow _ => hvalid row hrow, ?_⟩
  · simp only [normalizeLimit, applyInput, bind_eq_ok, require_eq_ok, pure_eq_ok]
    exact ⟨(), hlimit, trivial⟩
  · simp only [List.mem_cons, List.not_mem_nil, or_false, forall_eq_or_imp, forall_eq]
    constructor
    · rintro days (h | h)
      · cases h
      · cases h
        exact hderived
    · rintro days (h | h)
      · cases h
        exact hraw
      · cases h
  · intro row hrow _
    cases hrow

/-- With the limit 1 each call looks at the held artifact alone. -/
theorem held_artifact_blocks :
    ¬Progresses (afterCalls 1 (fun n => "ret_" ++ toString n) (applyInput 1) heldFirst) (applyInput 1)
      ⟨[], []⟩ := by
  intro hprogress
  have hclears := (progresses_iff primaryKeys_heldFirst
    (callable_heldFirst 1 (by decide))).mp hprogress
  obtain ⟨m, hm⟩ := hclears 0 (.archiveRawArtifact, 8) (by decide) (by decide)
  rw [Backlog.after_of_settled (by decide)] at hm
  exact hm (by decide)

/-- With the limit 2 the other artifact is archived. -/
theorem retention_progresses_iff_heldFirst :
    Progresses (afterCalls 1 (fun n => "ret_" ++ toString n) (applyInput 2) heldFirst) (applyInput 2)
      ⟨[], []⟩ := by
  refine (retention_progresses_iff primaryKeys_heldFirst
    (callable_heldFirst 2 (by decide)) _).mpr ?_
  decide

end MarkorbitKnowledge.Retention
