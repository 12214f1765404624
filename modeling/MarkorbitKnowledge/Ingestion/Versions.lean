import MarkorbitKnowledge.Ingestion.Lifecycle
import MarkorbitKnowledge.Lib.Lineage

/-!
# The versions of an artifact

A finalization takes its time before it waits for the files, and looks for the artifact to supersede after
that, by the times of the others.  So two finalizations of one canonical URI that overlap can be stored
against the order of their times, and the next one then supersedes the wrong artifact.
-/

namespace MarkorbitKnowledge.Ingestion

open Contracts Fallible Execution Transitions Lineage

/-- The artifacts of a canonical URI, as a lineage in the order of their capture. -/
def lineage : Fields RawArtifactRow Id ((Nat ×ₗ Int ×ₗ Timestamp) ×ₗ Id) where
  id row := row.artifact.id
  version row := row.artifact.version
  parent row := row.artifact.supersedesArtifactId
  order := captureOrder
  id_of_order _ _ h := congrArg (fun order => (ofLex order).2) h

section Versions

variable {platform : IngestionPlatform} {rawArtifacts : List RawArtifactRow} {f : Finalization}
  {artifactId receiptId : Id}

/-- The row of a finalization, of the artifact that supersedes the latest one. -/
def finalizedRow (rawArtifacts : List RawArtifactRow) (f : Finalization) (artifactId receiptId : Id) :
    RawArtifactRow :=
  newRow f (newArtifact f ((previousArtifact rawArtifacts f.session).map (·.artifact)) artifactId)
    receiptId

theorem finalizedRow_next {workspaceId sourceId : Id} {canonicalUri : String}
    (hfresh : ∀ stored ∈ rawArtifacts, stored.artifact.id ≠ artifactId)
    (hworkspace : f.session.workspaceId = workspaceId) (hsource : f.session.sourceId = sourceId)
    (huri : f.session.descriptor.canonicalUri = some canonicalUri) :
    Next lineage (artifactsOf rawArtifacts workspaceId sourceId canonicalUri)
      (finalizedRow rawArtifacts f artifactId receiptId) := by
  have hprevious : previousArtifact rawArtifacts f.session =
      (artifactsOf rawArtifacts workspaceId sourceId canonicalUri).argmax lineage.order := by
    rw [previousArtifact, huri, Option.bind_some, hworkspace, hsource]
    rfl
  constructor
  · exact fun stored hstored => hfresh stored (List.mem_of_mem_filter hstored)
  · rw [← hprevious]
    cases h : previousArtifact rawArtifacts f.session with
    | none => simp [lineage, finalizedRow, newRow, newArtifact, h]
    | some previous => simp [lineage, finalizedRow, newRow, newArtifact, h]
  · rw [← hprevious]
    simp [lineage, finalizedRow, newRow, newArtifact, Function.comp_def]

/-- The artifacts of every canonical URI are a lineage. -/
def Grows (v : View) : Prop :=
  ∀ workspaceId sourceId canonicalUri,
    Grown lineage (artifactsOf v.rawArtifacts workspaceId sourceId canonicalUri)

theorem Grows.moved {v w : View} (h : Grows v) (hmoved : Moved platform v w) : Grows w := by
  cases hmoved with
  | @committed t f artifactId receiptId rawArtifacts htask hinsert =>
    obtain ⟨hfresh, -, -, rfl⟩ := insertArtifact_eq_ok.mp hinsert
    intro workspaceId sourceId canonicalUri
    have happend : artifactsOf (v.rawArtifacts ++ [finalizedRow v.rawArtifacts f artifactId receiptId])
        workspaceId sourceId canonicalUri = artifactsOf v.rawArtifacts workspaceId sourceId canonicalUri ++
          artifactsOf [finalizedRow v.rawArtifacts f artifactId receiptId] workspaceId sourceId
            canonicalUri := List.filter_append ..
    have hgrown := h workspaceId sourceId canonicalUri
    change Grown lineage (artifactsOf (v.rawArtifacts ++
      [finalizedRow v.rawArtifacts f artifactId receiptId]) workspaceId sourceId canonicalUri)
    rw [happend]
    by_cases hsame : f.session.workspaceId = workspaceId ∧ f.session.sourceId = sourceId ∧
        f.session.descriptor.canonicalUri = some canonicalUri
    · obtain ⟨hworkspace, hsource, huri⟩ := hsame
      have hone : artifactsOf [finalizedRow v.rawArtifacts f artifactId receiptId] workspaceId sourceId
          canonicalUri = [finalizedRow v.rawArtifacts f artifactId receiptId] := by
        simp [artifactsOf, finalizedRow, newRow, newArtifact, hworkspace, hsource, huri]
      rw [hone]
      exact hgrown.snoc (finalizedRow_next hfresh hworkspace hsource huri)
    · have hnone : artifactsOf [finalizedRow v.rawArtifacts f artifactId receiptId] workspaceId sourceId
          canonicalUri = [] := by
        simpa [artifactsOf, finalizedRow, newRow, newArtifact, and_assoc] using hsame
      rw [hnone, List.append_nil]
      exact hgrown
  | opened hfresh hcreated => exact h
  | started hrow hcreated => exact h
  | uploading hrow hcreated hfree => exact h
  | proceeded htask => exact h
  | verified htask hmatched => exact h
  | rejected htask => exact h
  | ended hended => exact h
  | finalizing hrow hverified hverification hfree => exact h
  | linked htask hlink => exact h
  | hashed htask hverifies => exact h
  | removed htask => exact h
  | cleaned => exact h
  | aborted hrow hlive => exact h

theorem grows_step (s : State) (a : Action) (h : Sound s.view ∧ Grows s.view) :
    Sound ((machine platform).step s a).view ∧ Grows ((machine platform).step s a).view :=
  Steps.invariant (P := fun v => Sound v ∧ Grows v)
    (fun _ _ hmoved hv => ⟨hv.1.moved hmoved, hv.2.moved hmoved⟩) (step_moves h.1.unique a) h

theorem grows_run (ls : List Action) : Grows ((machine platform).run ls).view :=
  (Machine.run_invariant ⟨sound_init, fun _ _ _ => .nil⟩ grows_step ls).2

/-- Of the artifacts of a canonical URI of a source, in the order they were stored, each but the first
    supersedes an earlier one, the latest captured, and is one version on.  They are the versions 1, 2, …, each
    superseding the one stored before it, exactly if all but the last were stored in the order of their
    capture. -/
theorem versions_linear_iff (ls : List Action) (workspaceId sourceId : Id) (canonicalUri : String) :
    let artifacts := artifactsOf ((machine platform).run ls).db.rawArtifacts workspaceId sourceId
      canonicalUri
    (∀ before row after, artifacts = before ++ row :: after →
      (before = [] ∧ row.artifact.version = 1 ∧ row.artifact.supersedesArtifactId = none) ∨
        ∃ previous ∈ before, row.artifact.supersedesArtifactId = some previous.artifact.id ∧
          row.artifact.version = previous.artifact.version + 1 ∧
          ∀ earlier ∈ before, captureOrder earlier ≤ captureOrder previous) ∧
    ((∀ i row, artifacts[i]? = some row → row.artifact.version = i + 1 ∧
        row.artifact.supersedesArtifactId =
          if i = 0 then none else artifacts[i - 1]?.map (·.artifact.id)) ↔
      (artifacts.dropLast.map captureOrder).Pairwise (· < ·)) := by
  intro artifacts
  have h : Grown lineage artifacts := grows_run ls workspaceId sourceId canonicalUri
  exact ⟨fun before row after hsplit => (h.split hsplit).descends, h.linear_iff⟩

end Versions

/-! ### Finalizations that overlap -/

/-- A session of the content that is opened, uploaded and verified. -/
def verifySample (id : Id) (idempotencyKey : String) : List Action :=
  [.createSession { sampleInput with idempotencyKey } 3 id (10 * id),
    .uploadContent id sampleCaller id 4 (10 * id + 1),
    .openFile id { code := "ARTIFACT_UPLOAD_FAILED", message := "failed", occurredAt := 4 },
    .writeChunk id sampleContent 4, .closeFile id, .verifyUpload id 5 (10 * id + 2)]

def linkSample (id : Id) (now : Timestamp) : List Action :=
  [.finalize id sampleCaller id now, .linkObject id, .hashObject id, .removeTemporary id]

def commitSample (id : Id) : Action := .commitFinalized id id id (10 * id + 3)

/-- The second finalization is the first to begin, and the third supersedes the same artifact as it. -/
example : ((machine samplePlatform).run ([.elsewhere startedDatabase] ++ verifySample 1 "first" ++
      verifySample 2 "second" ++ verifySample 3 "third" ++ linkSample 2 6 ++ linkSample 1 7 ++
      [commitSample 1, commitSample 2] ++ linkSample 3 8 ++ [commitSample 3])).db.rawArtifacts.map
        (fun row => (row.artifact.version, row.artifact.supersedesArtifactId)) =
    [(1, none), (2, some 1), (2, some 1)] := by
  decide +kernel

end MarkorbitKnowledge.Ingestion
