import MarkorbitKnowledge.Conversion.Frame
import MarkorbitKnowledge.Conversion.Grants

/-!
# Which dispatched runs can be claimed

A claim passes over a pending run whose template does not expand to a path, and says nothing of it.
A run keeps the template it was dispatched with, so a run whose template is a path, and whose ids and
input the grants of a claim take, is handed out by the claims that serve it, and any other run is never
handed out in any later state.
-/

namespace MarkorbitKnowledge.Conversion

open Contracts Fallible Tables Transitions
open Execution (RegistryError)

/-! ### What a run keeps of its dispatch -/

section Calls

variable {platform : ConversionPlatform} {db db' : ConversionDatabase}

/-- A later document of a run has the target and the input of an earlier one. -/
structure SameTarget (run run' : ConversionRun) : Prop where
  id : run'.id = run.id
  workspaceId : run'.workspaceId = run.workspaceId
  rawArtifactId : run'.rawArtifactId = run.rawArtifactId
  converter : run'.converter = run.converter
  input : run'.input = run.input
  targetPathTemplate : run'.targetPathTemplate = run.targetPathTemplate

theorem SameTarget.refl (run : ConversionRun) : SameTarget run run := ⟨rfl, rfl, rfl, rfl, rfl, rfl⟩

theorem SameTarget.trans {run run' run'' : ConversionRun} (h : SameTarget run run')
    (h' : SameTarget run' run'') : SameTarget run run'' where
  id := h'.id.trans h.id
  workspaceId := h'.workspaceId.trans h.workspaceId
  rawArtifactId := h'.rawArtifactId.trans h.rawArtifactId
  converter := h'.converter.trans h.converter
  input := h'.input.trans h.input
  targetPathTemplate := h'.targetPathTemplate.trans h.targetPathTemplate

theorem SameTarget.of_moved {run : ConversionRun} {attempt : ConversionAttempt} {lease : ConversionLease}
    {t : Transition} (h : Moved run attempt lease t) : SameTarget run t.run := by
  cases h <;> exact ⟨rfl, rfl, rfl, rfl, rfl, rfl⟩

theorem SameTarget.grantable_iff {run run' : ConversionRun} (h : SameTarget run run') :
    Grantable run' ↔ Grantable run := by
  constructor
  · intro hgrantable
    exact ⟨h.converter ▸ hgrantable.version, h.input ▸ hgrantable.mimeType,
      h.rawArtifactId ▸ hgrantable.artifactId, h.id ▸ hgrantable.runId⟩
  · intro hgrantable
    exact ⟨h.converter.symm ▸ hgrantable.version, h.input.symm ▸ hgrantable.mimeType,
      h.rawArtifactId.symm ▸ hgrantable.artifactId, h.id.symm ▸ hgrantable.runId⟩

/-- The history is of a run with this target. -/
def HasTarget (run : ConversionRun) (h : RunHistory) : Prop :=
  ∃ run', h.run = some run' ∧ SameTarget run run'

theorem hasTarget_step {run : ConversionRun} {h h' : RunHistory} (_ : KeysUnique h.attempts)
    (hstep : RunStep h h') (htarget : HasTarget run h) : HasTarget run h' := by
  obtain ⟨run', hrun', hsame⟩ := htarget
  cases hstep with
  | dispatched hnone => simp [hnone] at hrun'
  | @cancelled stored now _ hstored =>
    obtain rfl := Option.some.inj (hrun'.symm.trans hstored)
    exact ⟨_, rfl, hsame.trans ⟨rfl, rfl, rfl, rfl, rfl, rfl⟩⟩
  | claimed => exact ⟨run', hrun', hsame⟩
  | renewed => exact ⟨run', hrun', hsame⟩
  | closed => exact ⟨run', hrun', hsame⟩
  | @moved stored _ _ t _ hstored _ _ _ hmoved =>
    obtain rfl := Option.some.inj (hrun'.symm.trans hstored)
    exact ⟨t.run, rfl, hsame.trans (.of_moved hmoved)⟩

/-- A run without upload grants was never claimed. -/
def ClaimsGranted (h : RunHistory) : Prop := h.uploadGrants = [] → h.attempts = [] ∧ h.leases = []

theorem claimsGranted_step {h h' : RunHistory} (_ : KeysUnique h.attempts) (hstep : RunStep h h')
    (hgranted : ClaimsGranted h) : ClaimsGranted h' := by
  cases hstep with
  | dispatched => exact hgranted
  | cancelled => exact hgranted
  | claimed =>
    intro hnone
    exact absurd hnone (List.append_ne_nil_of_right_ne_nil _ (List.cons_ne_nil _ _))
  | renewed =>
    intro hnone
    obtain ⟨hattempts, hleases⟩ := hgranted hnone
    exact ⟨hattempts, by rw [hleases]; rfl⟩
  | closed =>
    intro hnone
    obtain ⟨hattempts, hleases⟩ := hgranted hnone
    exact ⟨by rw [hattempts]; rfl, by rw [hleases]; rfl⟩
  | moved =>
    intro hnone
    obtain ⟨hattempts, hleases⟩ := hgranted hnone
    exact ⟨by rw [hattempts]; rfl, by rw [hleases]; rfl⟩

/-! ### Grants are issued for expanded templates -/

/-- A grant names the path its run's template expands to. -/
def GrantExpands (db : ConversionDatabase) (grant : StagingOutputUploadGrant) : Prop :=
  ∃ run, db.run? grant.conversionRunId = some run ∧ Grantable run ∧
    expandTargetPath run.targetPathTemplate run.rawArtifactId run.id = some grant.normalizedTargetPath

theorem claimable_expands {request : ConversionClaimRequest} {capability : ConversionWorkerCapability}
    {run : ConversionRun} {path : String}
    (h : (pendingRuns db request.workspaceId).findSome? (claimable request capability) =
      some (run, path)) :
    expandTargetPath run.targetPathTemplate run.rawArtifactId run.id = some path := by
  obtain ⟨candidate, -, hclaimable⟩ := List.exists_of_findSome?_eq_some h
  unfold claimable at hclaimable
  split at hclaimable
  · obtain ⟨path', hpath, heq⟩ := Option.map_eq_some_iff.mp hclaimable
    obtain ⟨rfl, rfl⟩ := Prod.mk.inj heq
    exact hpath
  · cases hclaimable

theorem applyVerifierTransition_grants {request : VerifierRequest} {conversionRunId : Id}
    {occurredAt : Timestamp} {eventId : Id} {result : ConversionRuntimeTransitionResult}
    (h : applyVerifierTransition platform request conversionRunId occurredAt eventId db =
      .ok (result, db')) : db'.uploadGrants = db.uploadGrants := by
  simp only [applyVerifierTransition, bind_eq_ok] at h
  obtain ⟨_, -, h⟩ := h
  split at h
  · simp only [pure_eq_ok, Prod.mk.injEq] at h
    exact h.2 ▸ rfl
  · simp only [acceptRequest, bind_eq_ok, pure_eq_ok, Prod.mk.injEq] at h
    obtain ⟨_, -, _, -, _, -, _, -, _, -, ⟨_, _⟩, hstored, -, rfl⟩ := h
    obtain ⟨-, -, -, -, rfl⟩ := storeTransition_eq_ok.mp hstored
    rfl

/-- Only a claim issues a grant, and it issues one for the run it hands out. -/
theorem body_grants (hs : Sound db) {call : ConversionCall} {outcome : ConversionOutcome}
    (h : body platform call db = .ok (outcome, db')) :
    db'.uploadGrants = db.uploadGrants ∨
      ∃ grant, db'.uploadGrants = db.uploadGrants ++ [grant] ∧ GrantExpands db grant := by
  cases call <;> simp only [body, bind_eq_ok, pure_eq_ok, Prod.mk.injEq] at h <;>
    obtain ⟨⟨result, _⟩, h, rfl, rfl⟩ := h
  case dispatchManual =>
    refine Or.inl ?_
    simp only [dispatchManual, bind_eq_ok] at h
    obtain ⟨_, -, _, -, _, -, _, -, _, -, _, -, _, -, _, -, h⟩ := h
    split at h
    · rename_i hinsert
      simp only [pure_eq_ok, Prod.mk.injEq] at h
      obtain ⟨-, rfl⟩ := h
      simp only [insertDispatch, insertRun, bind_eq_ok, pure_eq_ok, insertEvent_eq_ok] at hinsert
      obtain ⟨_, ⟨_, -, _, -, rfl⟩, -, -, rfl⟩ := hinsert
      rfl
    · simp only [bind_eq_ok, pure_eq_ok, Prod.mk.injEq] at h
      obtain ⟨_, -, -, rfl⟩ := h
      rfl
  case cancel =>
    simp only [cancel, bind_eq_ok, pure_eq_ok, Prod.mk.injEq, insertEvent_eq_ok] at h
    obtain ⟨_, -, _, -, _, -, _, -, _, -, _, -, _, -, _, ⟨-, -, rfl⟩, -, rfl⟩ := h
    exact Or.inl rfl
  case claim =>
    rcases claim_cases h with ⟨-, rfl, -⟩ | ⟨-, rfl⟩ | ⟨supported, run, path, hfound, hclaimed⟩
    · exact Or.inl rfl
    · exact Or.inl rfl
    · obtain ⟨⟨row, hrow, rfl⟩, -, -, -⟩ := claimable_spec hfound
      obtain ⟨expiresAt, _, -, hvalid, -, -, rfl⟩ := claimRun_eq_ok.mp hclaimed
      exact Or.inr ⟨claimedUploadGrant _ row.run path _ expiresAt, rfl, row.run, hs.stored.run? hrow,
        grantable_of_claimValid hvalid, claimable_expands hfound⟩
  case renewLease =>
    simp only [renewLease, bind_eq_ok, pure_eq_ok, Prod.mk.injEq] at h
    obtain ⟨_, -, _, -, _, -, _, -, _, -, _, -, _, -, -, rfl⟩ := h
    exact Or.inl rfl
  case releaseBeforeStart =>
    simp only [releaseBeforeStart, closeBeforeStart, bind_eq_ok, pure_eq_ok, Prod.mk.injEq] at h
    obtain ⟨_, -, _, -, _, -, _, -, _, -, _, -, -, rfl⟩ := h
    exact Or.inl rfl
  case expireBeforeStart =>
    simp only [expireBeforeStart, closeBeforeStart, bind_eq_ok, pure_eq_ok, Prod.mk.injEq] at h
    obtain ⟨_, -, _, -, _, -, _, -, _, -, _, -, -, rfl⟩ := h
    exact Or.inl rfl
  case submitReport =>
    simp only [submitReport, applyWorkerReport, bind_eq_ok] at h
    obtain ⟨_, -, _, -, _, -, _, -, replay, -, h⟩ := h
    split at h
    · simp only [pure_eq_ok, Prod.mk.injEq] at h
      exact Or.inl (h.2 ▸ rfl)
    · obtain ⟨_, _, _, _, _, haccepted⟩ := acceptReport_spec h
      obtain ⟨-, -, -, rfl, rfl⟩ := storeTransition_eq_ok.mp haccepted.stored
      obtain ⟨-, -, rfl⟩ := insertReport_eq_ok.mp haccepted.fresh
      exact Or.inl rfl
  case completeVerification =>
    simp only [completeVerification, bind_eq_ok] at h
    obtain ⟨_, -, _, -, _, -, h⟩ := h
    exact Or.inl (applyVerifierTransition_grants h)
  case failVerification =>
    simp only [failVerification, bind_eq_ok] at h
    obtain ⟨_, -, _, -, _, -, h⟩ := h
    exact Or.inl (applyVerifierTransition_grants h)
  case reconcileExpiredStartedLease =>
    simp only [reconcileExpiredStartedLease, bind_eq_ok] at h
    obtain ⟨_, -, _, -, _, -, h⟩ := h
    exact Or.inl (applyVerifierTransition_grants h)

theorem GrantExpands.advances {grant : StagingOutputUploadGrant} (h : GrantExpands db grant)
    (hs : Sound db) (hadvances : Advances db db') : GrantExpands db' grant := by
  obtain ⟨run, hrun, hgrantable, hpath⟩ := h
  obtain ⟨run', hrun', hsame⟩ := history_advances hasTarget_step hs hadvances
    (show HasTarget run (history db grant.conversionRunId) from ⟨run, hrun, .refl run⟩)
  refine ⟨run', hrun', hsame.grantable_iff.mpr hgrantable, ?_⟩
  rw [hsame.targetPathTemplate, hsame.rawArtifactId, hsame.id]
  exact hpath

/-- Every grant names the path its run's template expands to. -/
def GrantsExpand (db : ConversionDatabase) : Prop := ∀ grant ∈ db.uploadGrants, GrantExpands db grant

theorem grantsExpand_perform (hs : Sound db) (h : GrantsExpand db) (call : ConversionCall) :
    GrantsExpand (perform platform db call).2 := by
  have hadvances : Advances db (perform platform db call).2 := perform_advances hs call
  refine commit_rel (R := fun s s' => Sound s → GrantsExpand s → Advances s s' → GrantsExpand s')
    (fun _ h _ => h) ?_ hs h hadvances
  intro outcome next hbody hs h hadvances grant hgrant
  rcases body_grants hs hbody with hsame | ⟨issued, hissued, hexpands⟩
  · exact (h grant (hsame ▸ hgrant)).advances hs hadvances
  · rw [hissued, List.mem_append, List.mem_singleton] at hgrant
    rcases hgrant with hgrant | rfl
    · exact (h grant hgrant).advances hs hadvances
    · exact hexpands.advances hs hadvances

theorem grantsExpand_run (calls : List ConversionCall) : GrantsExpand ((store platform).run calls) :=
  (Machine.run_invariant (M := store platform) (P := fun current => Sound current ∧ GrantsExpand current)
    ⟨sound_empty, fun _ hgrant => absurd hgrant List.not_mem_nil⟩
    (fun _ call hcurrent => ⟨hcurrent.1.advances (perform_advances hcurrent.1 call),
      grantsExpand_perform hcurrent.1 hcurrent.2 call⟩) calls).2

/-! ### Runs that are never claimed -/

/-- A run whose template is not a path, or whose documents no claim may issue, has neither attempts nor
    leases. -/
theorem never_claimed (calls : List ConversionCall) {run : ConversionRun}
    (htarget : HasTarget run (history ((store platform).run calls) run.id))
    (htemplate : requestedOutput run.targetPathTemplate = true)
    (hpath : ¬ (TemplateIsPath run.targetPathTemplate ∧ Grantable run)) :
    ((store platform).run calls).attemptsOfRun run.id = [] ∧
      ((store platform).run calls).leasesOfRun run.id = [] := by
  obtain ⟨stored, hstored, hsame⟩ := htarget
  have hnone : (history ((store platform).run calls) run.id).uploadGrants = [] := by
    rw [List.eq_nil_iff_forall_not_mem]
    intro grant hgrant
    obtain ⟨hmem, hof⟩ := List.mem_filter.mp hgrant
    obtain ⟨current, hcurrent, hgrantable, hexpands⟩ := grantsExpand_run calls grant hmem
    rw [of_decide_eq_true hof] at hcurrent
    obtain rfl : stored = current := Option.some.inj (hstored.symm.trans hcurrent)
    rw [hsame.targetPathTemplate] at hexpands
    exact hpath ⟨((expandTargetPath_eq_some _ _ htemplate).mp hexpands).1,
      hsame.grantable_iff.mp hgrantable⟩
  have hgranted : ClaimsGranted (history ((store platform).run calls) run.id) :=
    history_runFrom claimsGranted_step sound_empty (fun _ => ⟨rfl, rfl⟩) calls
  exact hgranted hnone

/-! ### Claims that serve a run -/

/-- A claim of an active worker that supports the run and reaches it: the runs before it are not for
    this worker. -/
structure Serves (db : ConversionDatabase) (request : ConversionClaimRequest)
    (capability : ConversionWorkerCapability) (values : ConversionClaimValues) (run : ConversionRun) :
    Prop where
  valid : isConversionClaimRequest request = true
  supports : supportsConverter request.supportedConverters run.converter = true
  capable : conversionCapabilitySupports capability run.converter run.input.artifactKind
    run.input.mimeType = true
  reached : ∃ before after, pendingRuns db request.workspaceId = before ++ run :: after ∧
    ∀ earlier ∈ before, claimable request capability earlier = none
  unanswered : ∀ row ∈ db.claims, row.workspaceId = request.workspaceId →
    row.workerId = request.workerId → row.idempotencyKey ≠ request.idempotencyKey
  dated : isRfc3339 values.now = true
  ends : isRfc3339 (values.now +
    (max request.requestedLeaseDurationSeconds DEFAULT_RENEWABLE_SECONDS : Nat) * 1000) = true
  attemptId : ∀ attempt ∈ db.attempts, attempt.id ≠ values.attemptId
  leaseId : ∀ lease ∈ db.leases, lease.id ≠ values.leaseId
  readGrantId : ∀ grant ∈ db.readGrants, grant.id ≠ values.readGrantId
  uploadGrantId : ∀ grant ∈ db.uploadGrants, grant.id ≠ values.uploadGrantId
  counted : isSafeInteger ((db.attemptsOfRun run.id).length + 1) = true

theorem mem_pendingRuns {workspaceId : Id} {run : ConversionRun} :
    run ∈ pendingRuns db workspaceId ↔ (∃ row ∈ db.runs, row.run = run) ∧
      run.workspaceId = workspaceId ∧ run.status = .pending ∧
        ∀ lease ∈ db.leasesOfRun run.id, lease.status ≠ .active := by
  simp [pendingRuns, and_assoc]

variable {request : ConversionClaimRequest} {capability : ConversionWorkerCapability}
  {values : ConversionClaimValues} {run : ConversionRun}

theorem isExact_iff_of_supports (hrequest : isConversionClaimRequest request = true)
    {converter : RuntimeConverterRef}
    (h : supportsConverter request.supportedConverters converter = true) :
    converter.isExact = true ↔ isShortMember converter.version = true := by
  obtain ⟨support, hsupport, hmatch⟩ := List.any_eq_true.mp h
  simp only [Bool.and_eq_true, beq_iff_eq, List.contains_eq_mem, decide_eq_true_eq] at hmatch
  simp only [isConversionClaimRequest, converterList, Bool.and_eq_true, List.all_eq_true] at hrequest
  have hvalid := hrequest.1.1.1.1.1.2.2 support hsupport
  simp only [ExactConverterSupport.isValid, Bool.and_eq_true, List.all_eq_true] at hvalid
  obtain ⟨⟨⟨⟨⟨hshort, hslug⟩, -⟩, -⟩, hversions⟩, -⟩ := hvalid
  rw [RuntimeConverterRef.isExact, ← hmatch.1, hslug, hversions _ hmatch.2, hshort]
  rfl

theorem isRfc3339_between {earlier middle later : Timestamp} (hearlier : isRfc3339 earlier = true)
    (hlater : isRfc3339 later = true) (hle : earlier ≤ middle) (hle' : middle ≤ later) :
    isRfc3339 middle = true := by
  simp only [isRfc3339, Bool.and_eq_true, decide_eq_true_eq] at hearlier hlater ⊢
  exact ⟨hearlier.1.trans hle, hle'.trans hlater.2⟩

theorem isDate_of_isRfc3339 {t : Int} (h : isRfc3339 t = true) : isDate t = true := by
  simp only [isRfc3339, Bool.and_eq_true, decide_eq_true_eq] at h
  have hlow : -62167219200000 ≤ t := h.1
  have hhigh : t ≤ 253402300799999 := h.2
  rw [isDate, decide_eq_true_eq]
  omega

theorem secondsAfter_eq_ok {base : Timestamp} {seconds : Nat}
    (h : isRfc3339 (base + seconds * 1000) = true) :
    secondsAfter base seconds = .ok (base + seconds * 1000) := by
  simp only [secondsAfter, bind_eq_ok, require_eq_ok, pure_eq_ok]
  exact ⟨(), isDate_of_isRfc3339 h, trivial⟩

theorem boundedLeaseSeconds_eq_ok (hrequest : isConversionClaimRequest request = true) :
    boundedLeaseSeconds (if request.requestedLeaseDurationSeconds = 0 then DEFAULT_LEASE_SECONDS
      else request.requestedLeaseDurationSeconds) = .ok request.requestedLeaseDurationSeconds := by
  simp only [isConversionClaimRequest, positiveInteger, Bool.and_eq_true, decide_eq_true_eq] at hrequest
  obtain ⟨⟨-, -, hpositive⟩, hle⟩ := hrequest
  rw [if_neg (Nat.pos_iff_ne_zero.mp hpositive)]
  simp only [boundedLeaseSeconds, bind_eq_ok, require_eq_ok, pure_eq_ok]
  exact ⟨(), ⟨hpositive, hle⟩, trivial⟩

/-- The documents of a claim that serves a run pass their checks. -/
theorem Serves.claimValid (h : Serves db request capability values run)
    (hrun : isConversionRun run = true) (hgrantable : Grantable run)
    (hattemptId : isPlainId "cva" values.attemptId = true) {path : String}
    (hpath : isOutputPath path = true) {ordinal : Nat} (hordinal : positiveInteger ordinal = true) :
    let seconds := request.requestedLeaseDurationSeconds
    let expiresAt := values.now + seconds * 1000
    let renewableUntil := values.now + (max seconds DEFAULT_RENEWABLE_SECONDS : Nat) * 1000
    ClaimValid request (claimedLease request run values expiresAt renewableUntil)
      (claimedAttempt request run values ordinal) (claimedReadGrant request run values expiresAt)
      (claimedUploadGrant request run path values expiresAt) := by
  intro seconds expiresAt renewableUntil
  have hexact := (isExact_iff_of_supports h.valid h.supports).mpr hgrantable.version
  have hrequest := h.valid
  simp only [isConversionClaimRequest, positiveInteger, Bool.and_eq_true, decide_eq_true_eq] at hrequest
  obtain ⟨⟨⟨-, hkey⟩, -, hpositive⟩, -⟩ := hrequest
  have hissued : values.now < expiresAt :=
    Int.lt_add_of_pos_right _ (by omega : (0 : Int) < seconds * 1000)
  have hrenewable : expiresAt ≤ renewableUntil :=
    Int.add_le_add_left (by omega : (seconds : Int) * 1000 ≤
      (max seconds DEFAULT_RENEWABLE_SECONDS : Nat) * 1000) _
  have hexpires : isRfc3339 expiresAt = true := isRfc3339_between h.dated h.ends hissued.le hrenewable
  have hinput : inputEvidence run.input = true := by
    simp only [isConversionRun, Bool.and_eq_true] at hrun
    exact hrun.1.1.1.1.1.1.1.1.2
  have hlease : isConversionLease (claimedLease request run values expiresAt renewableUntil) = true := by
    simp [isConversionLease, claimedLease, hexact, h.dated, hexpires, hissued, hrenewable,
      show isRfc3339 renewableUntil = true from h.ends, positiveInteger, isSafeInteger]
  have hread : isRawArtifactReadGrant (claimedReadGrant request run values expiresAt) = true :=
    isRawArtifactReadGrant_claimed_iff.mpr
      ⟨⟨hinput, hgrantable.mimeType⟩, ⟨hgrantable.artifactId, hattemptId⟩, h.dated, hexpires⟩
  have hupload : isStagingOutputUploadGrant
      (claimedUploadGrant request run path values expiresAt) = true :=
    isStagingOutputUploadGrant_claimed_iff.mpr
      ⟨⟨hgrantable.runId, hattemptId⟩, hpath, h.dated, hexpires⟩
  refine ⟨hlease, ?_, hread, hupload, ?_⟩
  · simp [isConversionAttempt, claimedAttempt, hexact, h.dated, hordinal]
  · simp only [isConversionClaimResult, hkey, hlease, hread, hupload]
    simp [claimedLease, claimedReadGrant, claimedUploadGrant]

/-- The claim hands the run out. -/
def HandsOut (platform : ConversionPlatform) (db : ConversionDatabase)
    (request : ConversionClaimRequest) (capability : ConversionWorkerCapability)
    (values : ConversionClaimValues) (run : ConversionRun) : Prop :=
  ∃ lease readGrant uploadGrant db', claim platform request (.ok capability) values db =
      .ok ({ result := .claimed lease readGrant uploadGrant, replayed := false }, db') ∧
    lease.conversionRunId = run.id

/-- A claim that serves a run whose template expands hands the run out, where the grants take its
    input and the ids. -/
theorem Serves.handsOut (h : Serves db request capability values run) (hs : Sound db) {path : String}
    (hpath : expandTargetPath run.targetPathTemplate run.rawArtifactId run.id = some path)
    (hgrantable : Grantable run) (hattemptId : isPlainId "cva" values.attemptId = true) :
    HandsOut platform db request capability values run := by
  obtain ⟨before, after, hpending, hbefore⟩ := h.reached
  have hmem : run ∈ pendingRuns db request.workspaceId := by
    rw [hpending]
    exact List.mem_append_right _ List.mem_cons_self
  obtain ⟨⟨row, hrow, rfl⟩, -, -, hfree⟩ := mem_pendingRuns.mp hmem
  have hvalid : isConversionRun row.run = true := hs.stored.runs row hrow
  have hselected : claimable request capability row.run = some (row.run, path) := by
    rw [claimable, if_pos (by simp [hvalid, h.supports, h.capable]), hpath]
    rfl
  have hfound : (pendingRuns db request.workspaceId).findSome? (claimable request capability) =
      some (row.run, path) := by
    rw [hpending, List.findSome?_append, List.findSome?_eq_none_iff.mpr hbefore, Option.none_or,
      List.findSome?_cons, hselected]
  have hunanswered : (db.claims.find? fun row => decide (row.workspaceId = request.workspaceId) &&
      decide (row.workerId = request.workerId) &&
      decide (row.idempotencyKey = request.idempotencyKey)) = none := by
    refine List.find?_eq_none.mpr fun row hrow hkeyed => ?_
    simp only [Bool.and_eq_true, decide_eq_true_eq] at hkeyed
    exact h.unanswered row hrow hkeyed.1.1 hkeyed.1.2 hkeyed.2
  obtain ⟨claims, hclaimed⟩ := (hs.agrees row.run.id).claimed row.run (hs.stored.run? hrow)
  have hordinal : ∀ stored ∈ db.attempts, stored.conversionRunId = row.run.id →
      stored.ordinal ≠ (db.attemptsOfRun row.run.id).length + 1 := by
    intro stored hstored hof heq
    have hrange : stored.ordinal ∈ List.range' 1 (db.attemptsOfRun row.run.id).length :=
      hclaimed.ordinals ▸ List.mem_map_of_mem (mem_attemptsOfRun.mpr ⟨hstored, hof⟩)
    rw [heq, List.mem_range'_1] at hrange
    omega
  have hcounted : positiveInteger ((db.attemptsOfRun row.run.id).length + 1) = true := by
    rw [positiveInteger, h.counted]
    simp
  have hvalidClaim := h.claimValid hvalid hgrantable hattemptId
    (isOutputPath_of_expandTargetPath hpath) hcounted
  have hexpires := (isStagingOutputUploadGrant_claimed_iff.mp hvalidClaim.uploadGrantValid).2.2.2
  have hfree' : ∀ stored ∈ db.leases, stored.conversionRunId = row.run.id → stored.status = .active →
      ConversionLeaseStatus.active ≠ .active := fun stored hstored hof hactive =>
    absurd hactive (hfree stored (mem_leasesOfRun.mpr ⟨hstored, hof⟩))
  have hclaim : claim platform request (.ok capability) values db =
      claimRun request (platform.hashClaim request) values row.run path db := by
    simp only [claim, hunanswered, ok_bind, hfound]
    rw [require, if_pos h.valid]
    rfl
  refine ⟨_, _, _, _, hclaim.trans (claimRun_eq_ok.mpr ⟨_, _, ⟨_, boundedLeaseSeconds_eq_ok h.valid,
    secondsAfter_eq_ok hexpires, secondsAfter_eq_ok h.ends⟩, hvalidClaim,
    ⟨h.attemptId, hordinal, h.leaseId, hfree', h.readGrantId, h.uploadGrantId⟩, rfl, rfl⟩), rfl⟩

/-- A claim that hands out a run of the store can issue its documents. -/
theorem HandsOut.grantable (hs : Sound db) (hrun : db.run? run.id = some run)
    (h : HandsOut platform db request capability values run) :
    Grantable run ∧ isPlainId "cva" values.attemptId = true := by
  obtain ⟨lease, readGrant, uploadGrant, db', hclaim, hof⟩ := h
  rcases claim_cases hclaim with ⟨hreplayed, -⟩ | ⟨hnone, -⟩ | ⟨supported, claimed, path, hfound, hclaimed⟩
  · cases hreplayed
  · cases hnone
  · obtain ⟨⟨row, hrow, rfl⟩, -, -, -⟩ := claimable_spec hfound
    obtain ⟨expiresAt, _, -, hvalid, -, hresult, -⟩ := claimRun_eq_ok.mp hclaimed
    obtain ⟨hlease, -⟩ := ConversionClaimResult.claimed.inj
      (congrArg ConversionClaimPersistenceResult.result hresult)
    have hid : row.run.id = run.id := by
      rw [← hof, hlease]
      rfl
    have hstored := hs.stored.run? hrow
    rw [hid] at hstored
    obtain rfl : run = row.run := Option.some.inj (hrun.symm.trans hstored)
    exact ⟨grantable_of_claimValid hvalid,
      (isRawArtifactReadGrant_claimed_iff.mp hvalid.readGrantValid).2.1.2⟩

/-! ### The result -/

/-- The template of the run expands to a path that stays inside the staging directory and is one a
    staging descriptor may name. -/
def ExpandsInside (run : ConversionRun) : Prop :=
  ∃ path, expandTargetPath run.targetPathTemplate run.rawArtifactId run.id = some path ∧
    StaysInside path ∧ normalizedTargetPath path = true

theorem dispatched_stored {catalogue : ConversionCatalogue} {input : ManualConversionDispatchInput}
    {now : Timestamp} {runId eventId : Id} {result : ManualConversionDispatchResult}
    (h : dispatchManual platform catalogue input now runId eventId db = .ok (result, db')) :
    ∃ row ∈ db'.runs, row.run = result.record.run := by
  rcases dispatchManual_cases h with ⟨rfl, hreplayed⟩ | hdispatched
  · exact hreplayed.stored
  · obtain ⟨digest, hruns⟩ := hdispatched.runs
    rw [hruns]
    exact ⟨_, List.mem_append_right _ List.mem_cons_self, rfl⟩

/-- A template that a run may have expands inside the staging directory, if and only if it is a path. -/
theorem expandsInside_iff {run : ConversionRun} (htemplate : requestedOutput run.targetPathTemplate = true) :
    ExpandsInside run ↔ TemplateIsPath run.targetPathTemplate := by
  constructor
  · rintro ⟨path, hexpands, -⟩
    exact ((expandTargetPath_eq_some _ _ htemplate).mp hexpands).1
  · intro hpath
    have hexpands := (expandTargetPath_eq_some run.rawArtifactId run.id htemplate).mpr ⟨hpath, rfl⟩
    have houtput := isOutputPath_of_expandTargetPath hexpands
    simp only [isOutputPath, Bool.and_eq_true] at houtput
    have hnormalized := houtput.1.1.1.1
    exact ⟨_, hexpands, staysInside_of_normalizedTargetPath hnormalized, hnormalized⟩

/-- In every run of the store, what a successful dispatch promises of its run holds of a later claim that
    serves the run if and only if the template is a path, and the grants take the run's input and the
    ids.  The run expands inside the staging directory if and only if its template is a path; if that
    fails or the grants refuse the run, no worker is ever given it. -/
theorem dispatched_run_claimable_iff (platform : ConversionPlatform) (calls : List ConversionCall)
    (catalogue : ConversionCatalogue) (input : ManualConversionDispatchInput) (now : Timestamp)
    (runId eventId : Id) (result : ManualConversionDispatchResult) (db : ConversionDatabase)
    (h : dispatchManual platform catalogue input now runId eventId ((store platform).run calls) =
      .ok (result, db)) :
    let run := result.record.run
    (∀ (later : List ConversionCall) (request : ConversionClaimRequest)
        (capability : ConversionWorkerCapability) (values : ConversionClaimValues)
        (current : ConversionRun), current.id = run.id →
      Serves ((store platform).runFrom db later) request capability values current →
        (ExpandsInside run ∧
            HandsOut platform ((store platform).runFrom db later) request capability values run ↔
          TemplateIsPath run.targetPathTemplate ∧ Grantable run ∧
            isPlainId "cva" values.attemptId = true)) ∧
    (ExpandsInside run ↔ TemplateIsPath run.targetPathTemplate) ∧
    (¬ (TemplateIsPath run.targetPathTemplate ∧ Grantable run) → ∀ later,
      ((store platform).runFrom db later).attemptsOfRun run.id = [] ∧
        ((store platform).runFrom db later).leasesOfRun run.id = []) := by
  intro run
  have hdb : (store platform).run (calls ++ [.dispatchManual catalogue input now runId eventId]) = db := by
    have hbody : body platform (.dispatchManual catalogue input now runId eventId)
        ((store platform).run calls) = .ok (.dispatched result, db) := by
      simp only [body, h, ok_bind]
      rfl
    have hperform : perform platform ((store platform).run calls)
        (.dispatchManual catalogue input now runId eventId) = (.ok (.dispatched result), db) :=
      commit_of_ok hbody
    rw [run_concat_store, hperform]
  have hs : Sound db := hdb ▸ sound_run _
  obtain ⟨row, hrow, hrun⟩ := dispatched_stored h
  have hstored : db.run? run.id = some run := by
    rw [← show row.run = run from hrun]
    exact hs.stored.run? hrow
  have htemplate : requestedOutput run.targetPathTemplate = true := by
    have hvalid := hs.stored.runs row hrow
    rw [hrun] at hvalid
    simp only [isConversionRun, Bool.and_eq_true] at hvalid
    exact hvalid.1.1.1.1.1.1.1.2
  have hlater : ∀ later, Sound ((store platform).runFrom db later) ∧
      HasTarget run (history ((store platform).runFrom db later) run.id) := fun later =>
    ⟨sound_runFrom hs later, history_runFrom hasTarget_step hs ⟨run, hstored, .refl run⟩ later⟩
  have hinside := expandsInside_iff htemplate
  refine ⟨?_, hinside, fun hnot later => ?_⟩
  · intro later request capability values current hid hserves
    obtain ⟨hs', target, htarget, hsame⟩ := hlater later
    have hmem : current ∈ pendingRuns ((store platform).runFrom db later) request.workspaceId := by
      obtain ⟨before, after, hpending, -⟩ := hserves.reached
      rw [hpending]
      exact List.mem_append_right _ List.mem_cons_self
    obtain ⟨⟨row', hrow', rfl⟩, -⟩ := mem_pendingRuns.mp hmem
    have hcurrent := hs'.stored.run? hrow'
    obtain rfl : target = row'.run := Option.some.inj (htarget.symm.trans (hid ▸ hcurrent))
    constructor
    · rintro ⟨hexpands, lease, readGrant, uploadGrant, db', hclaim, hof⟩
      obtain ⟨hgrantable, hattemptId⟩ := HandsOut.grantable hs' hcurrent
        ⟨lease, readGrant, uploadGrant, db', hclaim, hof.trans hid.symm⟩
      exact ⟨hinside.mp hexpands, hsame.grantable_iff.mp hgrantable, hattemptId⟩
    · rintro ⟨hpath, hgrantable, hattemptId⟩
      refine ⟨hinside.mpr hpath, ?_⟩
      rw [← hsame.targetPathTemplate] at hpath htemplate
      have hout : HandsOut platform _ _ _ _ _ := hserves.handsOut hs'
        ((expandTargetPath_eq_some _ _ htemplate).mpr ⟨hpath, rfl⟩) (hsame.grantable_iff.mpr hgrantable)
        hattemptId
      obtain ⟨lease, readGrant, uploadGrant, db', hclaim, hof⟩ := hout
      exact ⟨lease, readGrant, uploadGrant, db', hclaim, hof.trans hid⟩
  · have hrun' : (store platform).run
        ((calls ++ [.dispatchManual catalogue input now runId eventId]) ++ later) =
          (store platform).runFrom db later := by
      rw [Machine.run, Machine.runFrom_append]
      exact congrArg (fun db => (store platform).runFrom db later) hdb
    have hnever := @never_claimed platform
      ((calls ++ [.dispatchManual catalogue input now runId eventId]) ++ later)
      run (by rw [hrun']; exact (hlater later).2) htemplate hnot
    rwa [hrun'] at hnever

end Calls

/-! ### A run that can be claimed and one that cannot -/

def sampleTarget : ManualConversionDispatchInput where
  workspaceId := 1
  rawArtifactId := 7
  conversionProfileId := 5
  targetPathTemplate := "staging/out.md"
  trigger := none
  actor := none
  idempotencyKey := "dispatch"

def sampleCapability : ConversionWorkerCapability where
  supportedConverters := sampleSupport
  acceptedArtifactKinds := [.pdf]
  acceptedMimePatterns := ["application/pdf"]

def sampleClaimValues : ConversionClaimValues where
  now := 0
  attemptId := 30
  leaseId := 31
  tokenReference := 32
  tokenDigest := 33
  readGrantId := 35
  uploadGrantId := 34

/-- The run of the sample dispatch stays inside the staging directory, and the sample worker gets it. -/
theorem sample_run_claimable :
    ∃ result db, dispatchManual sampleDigests sampleCatalogue sampleTarget 0 20 1
        ((store sampleDigests).run []) = .ok (result, db) ∧ result.record.run.id = 20 ∧
      ExpandsInside result.record.run ∧
      HandsOut sampleDigests db sampleRequest sampleCapability sampleClaimValues result.record.run := by
  have hdispatched : ∃ result db, dispatchManual sampleDigests sampleCatalogue sampleTarget 0 20 1
      ((store sampleDigests).run []) = .ok (result, db) ∧ result.record.run.id = 20 ∧
        result.record.run.targetPathTemplate = "staging/out.md" ∧ Grantable result.record.run ∧
        Serves db sampleRequest sampleCapability sampleClaimValues result.record.run := by
    refine ⟨_, _, rfl, rfl, rfl, ⟨rfl, rfl, ?_, ?_⟩, ?_⟩
    · exact (by decide +kernel : isPlainId "art" 7 = true)
    · exact (by decide +kernel : isPlainId "cvr" 20 = true)
    · exact
        { valid := by decide +kernel
          supports := rfl
          capable := rfl
          reached := ⟨[], [], rfl, fun _ hearlier => absurd hearlier List.not_mem_nil⟩
          unanswered := fun _ hrow => absurd hrow List.not_mem_nil
          dated := rfl
          ends := rfl
          attemptId := fun _ hattempt => absurd hattempt List.not_mem_nil
          leaseId := fun _ hlease => absurd hlease List.not_mem_nil
          readGrantId := fun _ hgrant => absurd hgrant List.not_mem_nil
          uploadGrantId := fun _ hgrant => absurd hgrant List.not_mem_nil
          counted := rfl }
  obtain ⟨result, db, hok, hid, htemplate, hgrantable, hserves⟩ := hdispatched
  have hiff := (dispatched_run_claimable_iff sampleDigests [] sampleCatalogue sampleTarget 0 20 1 result db
    hok).1 [] sampleRequest sampleCapability sampleClaimValues result.record.run rfl hserves
  have hattemptId : isPlainId "cva" sampleClaimValues.attemptId = true := by decide +kernel
  obtain ⟨hinside, hhanded⟩ := hiff.mpr ⟨htemplate ▸ by decide +kernel, hgrantable, hattemptId⟩
  exact ⟨result, db, hok, hid, hinside, hhanded⟩

/-- The sample catalogue with a template that names no Markdown file. -/
def plainCatalogue : ConversionCatalogue :=
  { sampleCatalogue with
    profiles := sampleCatalogue.profiles.map fun profile =>
      { profile with targetPathTemplate := "staging/{runId}" } }

def plainDispatch : ConversionCall :=
  .dispatchManual plainCatalogue
    { workspaceId := 1, rawArtifactId := 7, conversionProfileId := 5
      targetPathTemplate := "staging/{runId}", trigger := none, actor := none
      idempotencyKey := "dispatch" } 0 20 1

/-- A valid profile whose run is dispatched, stays pending and is passed over by a worker that supports
    it. -/
theorem plain_run_passed_over :
    (∀ profile ∈ plainCatalogue.profiles, isConversionProfile profile = true) ∧
    let db := (store sampleDigests).run [plainDispatch]
    db.runs.map (fun row => (row.run.status, expandTargetPath row.run.targetPathTemplate
        row.run.rawArtifactId row.run.id)) = [(.pending, none)] ∧
      (perform sampleDigests db sampleClaim).1 =
        .ok (.claimed { result := .noCompatibleWork, replayed := false }) := by
  refine ⟨by decide +kernel, ?_, ?_⟩
  · decide +kernel
  · rfl

end MarkorbitKnowledge.Conversion
