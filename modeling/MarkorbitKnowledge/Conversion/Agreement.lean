import MarkorbitKnowledge.Conversion.Refinement
import MarkorbitKnowledge.Execution.EventLog

/-!
# What a reader of the conversion tables can rely on

`sound_run` says that every history the tables hold is one the protocol can produce.  Here this is
read off row by row: how the status of a run agrees with its attempts and leases (`RunAgreement`),
that a run whose attempt has started is handed out to no other claim, and that the events of a run,
as those of an execution attempt, replay to the stored status.
-/

namespace MarkorbitKnowledge.Conversion

open Contracts Fallible Tables Transitions EventLog
open Execution (RegistryError)

/-! ### The last claim of a run -/

/-- The last attempt of a run, with the lease it is made under. -/
structure LastClaim (db : ConversionDatabase) (runId : Id) (attempt : ConversionAttempt)
    (lease : ConversionLease) : Prop where
  last : (db.attemptsOfRun runId).getLast? = some attempt
  held : lease ∈ db.leasesOfRun runId
  owner : attempt.conversionLeaseId = lease.id
  owned : lease.conversionAttemptId = attempt.id

/-- How a run agrees with its attempts and its leases. -/
structure RunAgreement (db : ConversionDatabase) (run : ConversionRun) : Prop where
  oneActive : ((db.leasesOfRun run.id).filter fun lease => decide (lease.status = .active)).length ≤ 1
  ordinals : (db.attemptsOfRun run.id).map (·.ordinal) =
    List.range' 1 (db.attemptsOfRun run.id).length
  earlier : ∀ attempt ∈ (db.attemptsOfRun run.id).dropLast,
    (attempt.status = .abandoned ∨ attempt.status = .leaseLost) ∧ attempt.startedAt = none
  running : run.status = .running → ∃ attempt lease, LastClaim db run.id attempt lease ∧
    attempt.status = .started ∧ lease.status = .active
  reported : run.status = .verifying ∨ run.status = .completed →
    ∃ attempt lease, LastClaim db run.id attempt lease ∧
      attempt.status = .outputReported ∧ lease.status = .released
  decided : run.status = .completed ∨ run.status = .failed →
    (∀ lease ∈ db.leasesOfRun run.id, lease.status ≠ .active) ∧
      ∀ attempt ∈ db.attemptsOfRun run.id, attempt.status ≠ .claimed ∧ attempt.status ≠ .started
  cancelled : run.status = .cancelled →
    (∀ attempt ∈ db.attemptsOfRun run.id, attempt.startedAt = none ∧ attempt.status ≠ .started) ∧
      ∀ lease ∈ db.leasesOfRun run.id, lease.status = .active →
        ∃ attempt, LastClaim db run.id attempt lease ∧ attempt.status = .claimed

theorem GivenUp.inactive {attempt : ConversionAttempt} {lease : ConversionLease}
    (h : GivenUp attempt lease) : lease.status ≠ .active :=
  Claims.inactive_of_givenUp h

theorem GivenUp.attempt_ended {attempt : ConversionAttempt} {lease : ConversionLease}
    (h : GivenUp attempt lease) : attempt.status = .abandoned ∨ attempt.status = .leaseLost := by
  rcases h.ended with ⟨hattempt, -⟩ | ⟨hattempt, -⟩
  · exact Or.inl hattempt
  · exact Or.inr hattempt

theorem GivenUp.not_held {attempt : ConversionAttempt} {lease : ConversionLease}
    (h : GivenUp attempt lease) : attempt.status ≠ .claimed ∧ attempt.status ≠ .started := by
  rcases h.attempt_ended with hattempt | hattempt <;> simp [hattempt]

section Run

variable {db : ConversionDatabase} {run : ConversionRun}
  {claims earlier : List (ConversionAttempt × ConversionLease)} {attempt : ConversionAttempt}
  {lease : ConversionLease}

theorem Claimed.lastClaim (h : Claimed (db.attemptsOfRun run.id) (db.leasesOfRun run.id) run
    (earlier ++ [(attempt, lease)])) : LastClaim db run.id attempt lease := by
  have hmem : (attempt, lease) ∈ earlier ++ [(attempt, lease)] := by simp
  refine ⟨?_, h.lease_mem hmem, (h.tenure _ hmem).leaseId, (h.tenure _ hmem).attemptId⟩
  rw [h.attemptsEq]
  simp

/-- At most the last claim holds an active lease. -/
theorem Claims.active_length {status : ConversionRunStatus} (h : Claims status claims) :
    ((claims.map (·.2)).filter fun lease => decide (lease.status = .active)).length ≤ 1 := by
  have hnone : ∀ earlier : List (ConversionAttempt × ConversionLease),
      (∀ claim ∈ earlier, GivenUp claim.1 claim.2) →
        (earlier.map (·.2)).filter (fun lease => decide (lease.status = .active)) = [] := by
    intro earlier hearlier
    refine List.filter_eq_nil_iff.mpr fun lease hlease => ?_
    obtain ⟨claim, hclaim, rfl⟩ := List.mem_map.mp hlease
    simpa using (hearlier claim hclaim).inactive
  cases h with
  | waiting hearlier _ => simp [hnone claims hearlier]
  | @held earlier attempt lease hearlier _ =>
    rw [List.map_append, List.filter_append, hnone earlier hearlier, List.nil_append]
    exact (List.length_filter_le _ _)

theorem Claims.earlier_givenUp {status : ConversionRunStatus} (h : Claims status claims) :
    ∀ claim ∈ claims.dropLast, GivenUp claim.1 claim.2 := by
  cases h with
  | waiting hearlier _ => exact fun claim hclaim => hearlier claim (List.mem_of_mem_dropLast hclaim)
  | held hearlier _ => simpa using hearlier

/-- A run that waits for no claim has one that was not given up. -/
theorem Claims.held_of_status {status : ConversionRunStatus} (h : Claims status claims)
    (hstatus : status ≠ .pending ∧ status ≠ .cancelled) :
    ∃ earlier attempt lease, claims = earlier ++ [(attempt, lease)] ∧
      (∀ claim ∈ earlier, GivenUp claim.1 claim.2) ∧ Phase attempt lease status := by
  cases h with
  | waiting _ hwaiting => exact absurd hwaiting (not_or.mpr hstatus)
  | held hearlier hphase => exact ⟨_, _, _, rfl, hearlier, hphase⟩

/-- No attempt of a run that was not started is itself started. -/
theorem Claims.unstarted {status : ConversionRunStatus} (h : Claims status claims)
    (hstatus : status = .pending ∨ status = .cancelled) :
    ∀ claim ∈ claims, claim.1.startedAt = none ∧ claim.1.status ≠ .started := by
  have hgivenUp : ∀ claim : ConversionAttempt × ConversionLease, GivenUp claim.1 claim.2 →
      claim.1.startedAt = none ∧ claim.1.status ≠ .started :=
    fun claim hclaim => ⟨hclaim.unstarted, hclaim.not_held.2⟩
  cases h with
  | waiting hearlier _ => exact fun claim hclaim => hgivenUp claim (hearlier claim hclaim)
  | held hearlier hphase =>
    intro claim hclaim
    rcases List.mem_append.mp hclaim with hclaim | hclaim
    · exact hgivenUp claim (hearlier claim hclaim)
    · obtain rfl := List.mem_singleton.mp hclaim
      cases hphase <;> simp_all

theorem runAgreement_of_claimed
    (h : Claimed (db.attemptsOfRun run.id) (db.leasesOfRun run.id) run claims) :
    RunAgreement db run := by
  have hphase := h.phase
  refine ⟨?_, h.ordinals, ?_, ?_, ?_, ?_, ?_⟩
  · rw [h.leasesEq]
    exact hphase.active_length
  · intro attempt hattempt
    rw [h.attemptsEq, ← List.map_dropLast] at hattempt
    obtain ⟨claim, hclaim, rfl⟩ := List.mem_map.mp hattempt
    have hgivenUp := hphase.earlier_givenUp claim hclaim
    exact ⟨hgivenUp.attempt_ended, hgivenUp.unstarted⟩
  · intro hrunning
    obtain ⟨earlier, attempt, lease, rfl, -, hlast⟩ := hphase.held_of_status (by simp [hrunning])
    rw [hrunning] at hlast
    cases hlast with
    | running hattempt hlease => exact ⟨attempt, lease, h.lastClaim, hattempt, hlease⟩
  · intro hreported
    obtain ⟨earlier, attempt, lease, rfl, -, hlast⟩ := hphase.held_of_status (by
      rcases hreported with hstatus | hstatus <;> simp [hstatus])
    refine ⟨attempt, lease, h.lastClaim, ?_⟩
    rcases hreported with hstatus | hstatus <;> rw [hstatus] at hlast <;> cases hlast
    · exact ⟨‹_›, ‹_›⟩
    · exact ⟨‹_›, ‹_›⟩
  · intro hdecided
    obtain ⟨earlier, attempt, lease, rfl, hearlier, hlast⟩ := hphase.held_of_status (by
      rcases hdecided with hstatus | hstatus <;> simp [hstatus])
    have hends : lease.status ≠ .active ∧ attempt.status ≠ .claimed ∧ attempt.status ≠ .started := by
      rcases hdecided with hstatus | hstatus <;> rw [hstatus] at hlast <;> cases hlast <;> simp_all
    constructor
    · intro lease' hlease'
      rw [h.leasesEq, List.map_append] at hlease'
      rcases List.mem_append.mp hlease' with hlease' | hlease'
      · obtain ⟨claim, hclaim, rfl⟩ := List.mem_map.mp hlease'
        exact (hearlier claim hclaim).inactive
      · obtain rfl := List.mem_singleton.mp hlease'
        exact hends.1
    · intro attempt' hattempt'
      rw [h.attemptsEq, List.map_append] at hattempt'
      rcases List.mem_append.mp hattempt' with hattempt' | hattempt'
      · obtain ⟨claim, hclaim, rfl⟩ := List.mem_map.mp hattempt'
        exact (hearlier claim hclaim).not_held
      · obtain rfl := List.mem_singleton.mp hattempt'
        exact hends.2
  · intro hcancelled
    constructor
    · intro attempt hattempt
      obtain ⟨lease, hclaim⟩ := h.exists_of_attempt hattempt
      exact hphase.unstarted (Or.inr hcancelled) _ hclaim
    · intro lease hlease hactive
      obtain ⟨attempt, hclaim⟩ := h.exists_of_lease hlease
      obtain ⟨earlier, rfl, -, hlast⟩ := hphase.active_last hclaim hactive
      refine ⟨attempt, h.lastClaim, ?_⟩
      rw [hcancelled] at hlast
      cases hlast with
      | cancelled hattempt => exact hattempt

theorem Sound.runAgreement (hs : Sound db) {row : RunRow} (hrow : row ∈ db.runs) :
    RunAgreement db row.run := by
  obtain ⟨claims, hclaimed⟩ := (hs.agrees row.run.id).claimed row.run (hs.stored.run? hrow)
  exact runAgreement_of_claimed hclaimed

end Run

/-! ### Runs that were started -/

def RunHistory.Started (h : RunHistory) : Prop :=
  ∃ attempt ∈ h.attempts, attempt.startedAt ≠ none

theorem started_moved {run : ConversionRun} {attempt : ConversionAttempt} {lease : ConversionLease}
    {t : Transition} (h : Moved run attempt lease t) (hstarted : attempt.startedAt ≠ none) :
    t.attempt.startedAt ≠ none := by
  cases h with
  | started => simp [startedTransition]
  | progress => exact hstarted
  | outputReady => exact hstarted
  | failed => exact hstarted
  | completed => exact hstarted
  | verificationFailed => exact hstarted
  | expired => exact hstarted

/-- An attempt that started stays so. -/
theorem started_step {h h' : RunHistory} (hkeys : KeysUnique h.attempts) (hstep : RunStep h h')
    (hstarted : h.Started) : h'.Started := by
  obtain ⟨started, hmem, hat⟩ := hstarted
  cases hstep with
  | dispatched => exact ⟨started, hmem, hat⟩
  | cancelled => exact ⟨started, hmem, hat⟩
  | claimed => exact ⟨started, List.mem_append_left _ hmem, hat⟩
  | renewed => exact ⟨started, hmem, hat⟩
  | @closed lease attempt closing code now _ _ hattempt _ _ hunstarted =>
    refine ⟨started, mem_update.mpr (Or.inl ⟨hmem, fun hid => hat ?_⟩), hat⟩
    obtain rfl := hkeys.eq_of_key hmem hattempt hid
    exact hunstarted
  | @moved run attempt lease t _ _ hattempt _ _ hmoved =>
    by_cases hid : started.id = attempt.id
    · obtain rfl := hkeys.eq_of_key hmem hattempt hid
      have hsame : key started = key t.attempt := (moved_ids hmoved).1.symm
      exact ⟨t.attempt, mem_update.mpr (Or.inr ⟨rfl, started, hmem, hsame⟩), started_moved hmoved hat⟩
    · refine ⟨started, mem_update.mpr (Or.inl ⟨hmem, fun hsame => hid ?_⟩), hat⟩
      exact hsame.trans (moved_ids hmoved).1

section Calls

variable {platform : ConversionPlatform} {db db' : ConversionDatabase}

theorem started_runFrom (hs : Sound db) {runId : Id} (hstarted : (history db runId).Started)
    (calls : List ConversionCall) :
    (history ((store platform).runFrom db calls) runId).Started :=
  history_runFrom started_step hs hstarted calls

/-- A claim hands out a run that was not started, unless it repeats a claim that was answered. -/
theorem claim_handsOut (hs : Sound db) {request : ConversionClaimRequest}
    {capability : Except RegistryError ConversionWorkerCapability} {values : ConversionClaimValues}
    {result : ConversionClaimPersistenceResult} {lease : ConversionLease}
    {readGrant : RawArtifactReadGrant} {uploadGrant : StagingOutputUploadGrant}
    (h : claim platform request capability values db = .ok (result, db'))
    (hresult : result.result = .claimed lease readGrant uploadGrant) :
    (result.replayed = true ∧ ∃ row ∈ db.claims, row.Answers platform request ∧
        row.result = result.result) ∨
      ¬ (history db lease.conversionRunId).Started := by
  rcases claim_cases h with ⟨hreplayed, -, hanswered⟩ | ⟨hnone, -⟩ | ⟨supported, run, path, hfound, hclaimed⟩
  · exact Or.inl ⟨hreplayed, hanswered⟩
  · rw [hnone] at hresult
    cases hresult
  · obtain ⟨⟨row, hrow, rfl⟩, -, hstatus, -⟩ := claimable_spec hfound
    obtain ⟨expiresAt, renewableUntil, -, -, -, rfl, -⟩ := claimRun_eq_ok.mp hclaimed
    obtain ⟨rfl, -, -⟩ := ConversionClaimResult.claimed.inj hresult
    obtain ⟨claims, hclaims⟩ := (hs.agrees row.run.id).claimed row.run (hs.stored.run? hrow)
    refine Or.inr ?_
    rintro ⟨attempt, hattempt, hstarted⟩
    obtain ⟨lease, hmem⟩ := hclaims.exists_of_attempt hattempt
    exact hstarted (hclaims.phase.unstarted (Or.inl hstatus) _ hmem).1

/-- In every state the runs agree with their attempts and leases, and once an attempt of a run has
    started the run is only handed out again by a claim that repeats an answered one. -/
theorem conversion_agreement (platform : ConversionPlatform) (calls : List ConversionCall) :
    let db := (store platform).run calls
    (∀ row ∈ db.runs, RunAgreement db row.run) ∧
      ∀ attempt ∈ db.attempts, attempt.startedAt ≠ none →
        ∀ (later : List ConversionCall) (request : ConversionClaimRequest)
          (capability : Except RegistryError ConversionWorkerCapability)
          (values : ConversionClaimValues) (result : ConversionClaimPersistenceResult)
          (lease : ConversionLease) (readGrant : RawArtifactReadGrant)
          (uploadGrant : StagingOutputUploadGrant),
          (perform platform ((store platform).runFrom db later)
            (.claim request capability values)).1 = .ok (.claimed result) →
          result.result = .claimed lease readGrant uploadGrant →
          lease.conversionRunId = attempt.conversionRunId →
          result.replayed = true ∧ ∃ row ∈ ((store platform).runFrom db later).claims,
            row.Answers platform request ∧ row.result = result.result := by
  intro db
  have hs : Sound db := sound_run calls
  refine ⟨fun row hrow => hs.runAgreement hrow, ?_⟩
  intro attempt hattempt hat later request capability values result lease readGrant uploadGrant hclaim
    hresult hrun
  have hstarted : (history db attempt.conversionRunId).Started :=
    ⟨attempt, mem_attemptsOfRun.mpr ⟨hattempt, rfl⟩, hat⟩
  have hlater : (history ((store platform).runFrom db later) attempt.conversionRunId).Started :=
    started_runFrom hs hstarted later
  obtain ⟨next, hbody⟩ := commit_fst_ok hclaim
  simp only [body, bind_eq_ok, pure_eq_ok, Prod.mk.injEq] at hbody
  obtain ⟨⟨_, _⟩, hclaimed, heq, -⟩ := hbody
  obtain rfl := ConversionOutcome.claimed.inj heq
  rcases claim_handsOut (sound_runFrom hs later) hclaimed hresult with hreplay | hfree
  · exact hreplay
  · rw [hrun] at hfree
    exact absurd hlater hfree

end Calls

/-! ### A cancelled run that is still leased -/

def sampleConverter : RuntimeConverterRef := { converterId := "markdown", version := "1.0.0" }

def sampleInputs : ConverterInputRule where
  artifactKinds := [.pdf]
  mimePatterns := ["application/pdf"]

def sampleCatalogue : ConversionCatalogue where
  artifacts :=
    [{ id := 7, workspaceId := 1, sourceId := 2, status := .readyForConversion, artifactKind := .pdf
       mimeType := "application/pdf", binaryHash := 11, sizeBytes := 4 }]
  profiles :=
    [{ id := 5, workspaceId := 1, sourceId := none, status := .active, converter := sampleConverter
       input := sampleInputs, targetPathTemplate := "staging/out.md", configurationKeys := [] }]
  manifests :=
    [{ converterId := "markdown", version := "1.0.0", status := .active, inputs := sampleInputs
       configurationSchemaKeys := [] }]

def sampleDispatch : ConversionCall :=
  .dispatchManual sampleCatalogue
    { workspaceId := 1, rawArtifactId := 7, conversionProfileId := 5
      targetPathTemplate := "staging/out.md", trigger := none, actor := none
      idempotencyKey := "dispatch" } 0 20 1

def sampleSupport : List ExactConverterSupport :=
  [{ converterId := "markdown", versions := ["1.0.0"] }]

def sampleRequest : ConversionClaimRequest where
  id := 1
  workspaceId := 1
  workerId := 3
  capabilityRevision := 1
  supportedConverters := sampleSupport
  maxAcceptedWork := 1
  idempotencyKey := "claim"
  requestedLeaseDurationSeconds := 60

/-- Claims the dispatched run for a minute. -/
def sampleClaim : ConversionCall :=
  .claim sampleRequest
    (.ok
      { supportedConverters := sampleSupport, acceptedArtifactKinds := [.pdf]
        acceptedMimePatterns := ["application/pdf"] })
    { now := 0, attemptId := 30, leaseId := 31, tokenReference := 32, tokenDigest := 33
      readGrantId := 35, uploadGrantId := 34 }

def sampleReport (body : RuntimeReportBody) : RuntimeReport where
  id := 40
  workspaceId := 1
  workerId := 3
  conversionRunId := 20
  conversionAttemptId := 30
  conversionLeaseId := 31
  leaseGeneration := 1
  leaseTokenReference := 32
  leaseTokenDigest := 33
  idempotencyKey := "started"
  occurredAt := 0
  expectedCurrentStatus := .pending
  body := body

def sampleStart : ConversionCall :=
  .submitReport (sampleReport (.started sampleConverter))
    { worker := .ok 1, now := 0, eventId := 3, storedAt := 0 }

def sampleCancel : ConversionCall :=
  .cancel 20 { workspaceId := 1, actor := none, message := none } 0 2

/-- Digests that tell requests apart by their ids. -/
def sampleDigests : ConversionPlatform where
  hashIntent intent := intent.rawArtifactId
  hashClaim request := request.id
  hashReport report := report.id
  hashVerifier _ := 0

/-- The run a call hands out. -/
def handedOut : Except RegistryError ConversionOutcome → Option Id
  | .ok (.claimed { result := .claimed lease _ _, .. }) => some lease.conversionRunId
  | _ => none

/-- A run cancelled after it was claimed keeps the active lease and the claimed attempt, and a claim
    that is repeated after the start returns the run once more. -/
theorem cancelled_run_leased :
    (let db := (store sampleDigests).run [sampleDispatch, sampleClaim, sampleCancel]
     db.runs.map (·.run.status) = [.cancelled] ∧ db.leases.map (·.status) = [.active] ∧
       db.attempts.map (·.status) = [.claimed]) ∧
    (let db := (store sampleDigests).run [sampleDispatch, sampleClaim, sampleStart]
     db.attempts.map (·.startedAt) = [some 0] ∧
       handedOut (perform sampleDigests db sampleClaim).1 = some 20) := by
  decide +kernel

/-! ### Event logs -/

def TerminalStatus (status : ConversionRunStatus) : Prop :=
  status = .completed ∨ status = .failed ∨ status = .cancelled

theorem conversionStep_of_terminal {status next : ConversionRunStatus} (h : TerminalStatus status) :
    ¬ ConversionStep (some status) next := by
  rcases h with rfl | rfl | rfl <;> simp [ConversionStep, canTransitionConversionRun]

theorem Sound.run_log_consistent {db : ConversionDatabase} (hs : Sound db) {row : RunRow}
    (hrow : row ∈ db.runs) :
    Consistent conversionView ConversionStep TerminalStatus (eventsOfRun db row.run.id)
      row.run.status := by
  have hlog := (hs.agrees row.run.id).log
  have hrun : (history db row.run.id).run = some row.run := hs.stored.run? hrow
  rw [hrun, Option.map_some] at hlog
  exact hlog.consistent fun _ _ h => conversionStep_of_terminal h

/-- In every state of the collection execution store and of the conversion store, the events of each
    execution attempt and of each conversion run replay to the stored status. -/
theorem event_logs_consistent (executionPlatform : Execution.Platform)
    (options : Execution.WorkerProtocolOptions) (ops : List Execution.Op)
    (platform : ConversionPlatform) (calls : List ConversionCall) :
    let executionDb := (Execution.machine executionPlatform options).run ops
    let db := (store platform).run calls
    (∀ attempt ∈ executionDb.attempts,
        Consistent Execution.executionView Execution.ExecutionStep
          (fun status => ¬ status.isActive) (Execution.eventsOfAttempt executionDb.events attempt.id)
          attempt.status) ∧
      ∀ row ∈ db.runs, Consistent conversionView ConversionStep TerminalStatus
        (eventsOfRun db row.run.id) row.run.status := by
  intro executionDb db
  constructor
  · exact Execution.attempt_log_consistent executionPlatform options ops
  · intro row hrow
    exact (sound_run calls).run_log_consistent hrow

end MarkorbitKnowledge.Conversion
