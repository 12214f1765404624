import MarkorbitKnowledge.Conversion.Transitions
import MarkorbitKnowledge.Lib.EventLog

/-!
# The history of one conversion run

What the conversion store keeps of one run: its document, its events, and the attempts made at it
with their leases and upload grants.  A `RunStep` is a change the protocol allows to such a history,
with the facts that allow it.  `Agrees` says when a history is one the protocol can produce: the
events replay to the status of the run, and the run was claimed again and again, each claim given up
before it started, until one claim started and decided the run.

`agrees_step` is the result: every step keeps the agreement.  The repositories are connected to it in
`Conversion.Refinement`.
-/

namespace MarkorbitKnowledge.Conversion

open Contracts Tables EventLog

@[ext]
structure RunHistory where
  run : Option ConversionRun
  events : List ConversionExecutionEvent
  attempts : List ConversionAttempt
  leases : List ConversionLease
  uploadGrants : List StagingOutputUploadGrant

def RunHistory.empty : RunHistory := ⟨none, [], [], [], []⟩

/-! ### Steps -/

/-- What a report or a request of the control plane does to a run, its attempt and its lease. -/
inductive Moved (run : ConversionRun) (attempt : ConversionAttempt) (lease : ConversionLease) :
    Transition → Prop
  | started {report : RuntimeReport} (hrun : run.status = .pending)
      (hattempt : attempt.status = .claimed) (hlease : lease.status = .active) :
      Moved run attempt lease (startedTransition report run attempt lease)
  | progress {report : RuntimeReport} {percent : Nat} {message : Option String}
      (hrun : run.status = .running) (hattempt : attempt.status = .started)
      (hlease : lease.status = .active) :
      Moved run attempt lease (progressTransition report percent message run attempt lease)
  | outputReady {report : RuntimeReport} (hrun : run.status = .running)
      (hattempt : attempt.status = .started) (hlease : lease.status = .active) :
      Moved run attempt lease (outputReadyTransition report run attempt lease)
  | failed {report : RuntimeReport} {failure : AttemptFailure} (hrun : run.status = .running)
      (hattempt : attempt.status = .started) (hlease : lease.status = .active) :
      Moved run attempt lease (failedTransition report failure run attempt lease)
  | completed {descriptor : StagingDocumentDescriptor} {actorId : String} {occurredAt : Timestamp}
      (hrun : run.status = .verifying) (hattempt : attempt.status = .outputReported) :
      Moved run attempt lease (completedTransition descriptor actorId occurredAt run attempt lease)
  | verificationFailed {code message actorId : String} {occurredAt : Timestamp}
      (hrun : run.status = .verifying) :
      Moved run attempt lease
        (verificationFailedTransition code message actorId occurredAt run attempt lease)
  | expired {actorId : String} {occurredAt : Timestamp} (hrun : run.status = .running)
      (hattempt : attempt.status = .started) (hlease : lease.status = .active) :
      Moved run attempt lease (expiredTransition actorId occurredAt run attempt lease)

/-- The event of a step: valid, and numbered after the events before it. -/
structure Recorded (events : List ConversionExecutionEvent) (previous : Option ConversionRunStatus)
    (resulting : ConversionRunStatus) (event : ConversionExecutionEvent) : Prop where
  valid : isConversionExecutionEvent event = true
  sequence : event.sequence = (events.map (·.sequence)).foldr max 0 + 1 ∨
    event.sequence = events.length + 1
  previousStatus : event.previousStatus = previous
  resultingStatus : event.resultingStatus = resulting

/-- An attempt and the lease it is made under. -/
structure Tenure (run : ConversionRun) (attempt : ConversionAttempt) (lease : ConversionLease) :
    Prop where
  leaseId : attempt.conversionLeaseId = lease.id
  attemptId : lease.conversionAttemptId = attempt.id
  worker : attempt.workerId = lease.workerId
  workspace : attempt.workspaceId = run.workspaceId
  leaseWorkspace : lease.workspaceId = run.workspaceId
  converter : attempt.converter = lease.converter

/-- A change the protocol allows to the history of a run. -/
inductive RunStep (h : RunHistory) : RunHistory → Prop
  | dispatched {run : ConversionRun} {event : ConversionExecutionEvent} (hrun : h.run = none)
      (hstatus : run.status = .pending) (hevent : Recorded h.events none .pending event) :
      RunStep h { h with run := some run, events := h.events ++ [event] }
  | cancelled {run : ConversionRun} (now : Timestamp) {event : ConversionExecutionEvent}
      (hrun : h.run = some run) (hstatus : run.status = .pending)
      (hevent : Recorded h.events (some .pending) .cancelled event) :
      RunStep h { h with run := some (cancelledRun run now), events := h.events ++ [event] }
  | claimed {run : ConversionRun} {attempt : ConversionAttempt} {lease : ConversionLease}
      (grant : StagingOutputUploadGrant) (hrun : h.run = some run) (hstatus : run.status = .pending)
      (hfree : ∀ l ∈ h.leases, l.status ≠ .active) (htenure : Tenure run attempt lease)
      (hordinal : attempt.ordinal = h.attempts.length + 1) (hattempt : attempt.status = .claimed)
      (hunstarted : attempt.startedAt = none) (hlease : lease.status = .active)
      (hgrant : grant.conversionAttemptId = attempt.id ∧ grant.workerId = attempt.workerId ∧
        grant.workspaceId = attempt.workspaceId) :
      RunStep h
        { h with
          attempts := h.attempts ++ [attempt], leases := h.leases ++ [lease]
          uploadGrants := h.uploadGrants ++ [grant] }
  | renewed {lease : ConversionLease} (token : RuntimeToken) (expiresAt : Timestamp)
      (hlease : lease ∈ h.leases) (hactive : lease.status = .active) :
      RunStep h { h with leases := update h.leases (renewedLease lease token expiresAt) }
  | closed {lease : ConversionLease} {attempt : ConversionAttempt} (closing : PreStartClosing)
      (code : String) (now : Timestamp) (hlease : lease ∈ h.leases) (hactive : lease.status = .active)
      (hattempt : attempt ∈ h.attempts) (hof : lease.conversionAttemptId = attempt.id)
      (hclaimed : attempt.status = .claimed) (hunstarted : attempt.startedAt = none) :
      RunStep h
        { h with
          attempts := update h.attempts (closing.endedAttempt attempt code now)
          leases := update h.leases (closing.closedLease lease now) }
  | moved {run : ConversionRun} {attempt : ConversionAttempt} {lease : ConversionLease}
      {t : Transition} {event : ConversionExecutionEvent} (hrun : h.run = some run)
      (hattempt : attempt ∈ h.attempts) (hlease : lease ∈ h.leases)
      (hof : attempt.conversionLeaseId = lease.id) (hmoved : Moved run attempt lease t)
      (hevent : Recorded h.events (some run.status) t.run.status event) :
      RunStep h
        { h with
          run := some t.run, events := h.events ++ [event]
          attempts := update h.attempts t.attempt, leases := update h.leases t.lease }

/-! ### Agreement -/

def conversionView : View ConversionExecutionEvent ConversionRunStatus where
  sequence := ConversionExecutionEvent.sequence
  previous := ConversionExecutionEvent.previousStatus
  resulting := ConversionExecutionEvent.resultingStatus

/-- A step of the lifecycle of a conversion run. -/
def ConversionStep (source : Option ConversionRunStatus) (target : ConversionRunStatus) : Prop :=
  canTransitionConversionRun source target = true

/-- A claim that ended before its attempt started. -/
structure GivenUp (attempt : ConversionAttempt) (lease : ConversionLease) : Prop where
  unstarted : attempt.startedAt = none
  ended : attempt.status = .abandoned ∧ lease.status = .released ∨
    attempt.status = .leaseLost ∧ lease.status = .expired

/-- The claim a run of each status was last given out by, where that claim was not given up. -/
inductive Phase (attempt : ConversionAttempt) (lease : ConversionLease) :
    ConversionRunStatus → Prop
  | claimed (hattempt : attempt.status = .claimed) (hunstarted : attempt.startedAt = none)
      (hlease : lease.status = .active) : Phase attempt lease .pending
  | cancelled (hattempt : attempt.status = .claimed) (hunstarted : attempt.startedAt = none)
      (hlease : lease.status = .active) : Phase attempt lease .cancelled
  | running (hattempt : attempt.status = .started) (hlease : lease.status = .active) :
      Phase attempt lease .running
  | verifying (hattempt : attempt.status = .outputReported) (hlease : lease.status = .released) :
      Phase attempt lease .verifying
  | completed (hattempt : attempt.status = .outputReported) (hlease : lease.status = .released) :
      Phase attempt lease .completed
  | rejected (hattempt : attempt.status = .outputReported) (hlease : lease.status = .released) :
      Phase attempt lease .failed
  | failed (hattempt : attempt.status = .failed) (hlease : lease.status = .released) :
      Phase attempt lease .failed
  | lost (hattempt : attempt.status = .leaseLost) (hlease : lease.status = .expired) :
      Phase attempt lease .failed

/-- The claims of a run of the given status, oldest first. -/
inductive Claims (status : ConversionRunStatus) : List (ConversionAttempt × ConversionLease) → Prop
  | waiting {earlier : List (ConversionAttempt × ConversionLease)}
      (hearlier : ∀ claim ∈ earlier, GivenUp claim.1 claim.2)
      (hstatus : status = .pending ∨ status = .cancelled) : Claims status earlier
  | held {earlier : List (ConversionAttempt × ConversionLease)} {attempt : ConversionAttempt}
      {lease : ConversionLease} (hearlier : ∀ claim ∈ earlier, GivenUp claim.1 claim.2)
      (hphase : Phase attempt lease status) : Claims status (earlier ++ [(attempt, lease)])

/-- The attempts and the leases of a run are the two sides of its claims. -/
structure Claimed (attempts : List ConversionAttempt) (leases : List ConversionLease)
    (run : ConversionRun) (claims : List (ConversionAttempt × ConversionLease)) : Prop where
  attemptsEq : attempts = claims.map (·.1)
  leasesEq : leases = claims.map (·.2)
  tenure : ∀ claim ∈ claims, Tenure run claim.1 claim.2
  ordinals : attempts.map (·.ordinal) = List.range' 1 attempts.length
  phase : Claims run.status claims

structure Agrees (h : RunHistory) : Prop where
  absent : h.run = none → h = .empty
  log : Replays conversionView ConversionStep h.events (h.run.map (·.status))
  claimed : ∀ run ∈ h.run, ∃ claims, Claimed h.attempts h.leases run claims

theorem agrees_empty : Agrees .empty where
  absent _ := rfl
  log := .nil
  claimed _ hrun := by cases hrun

/-! ### The log -/

theorem conversionStep_of_valid {event : ConversionExecutionEvent}
    (h : isConversionExecutionEvent event = true) :
    ConversionStep event.previousStatus event.resultingStatus := by
  simp only [isConversionExecutionEvent, Bool.and_eq_true] at h
  exact h.1.1.1.1.1.2

theorem Recorded.replays {events : List ConversionExecutionEvent}
    {previous : Option ConversionRunStatus} {resulting : ConversionRunStatus}
    {event : ConversionExecutionEvent} (h : Recorded events previous resulting event)
    (hlog : Replays conversionView ConversionStep events previous) :
    Replays conversionView ConversionStep (events ++ [event]) (some resulting) := by
  have hstep := conversionStep_of_valid h.valid
  rw [h.previousStatus] at hstep
  have hsequence : event.sequence = events.length + 1 := by
    rcases h.sequence with hmax | hlength
    · rw [hmax]
      exact congrArg (· + 1) hlog.maxSequence
    · exact hlength
  rw [← h.resultingStatus]
  exact hlog.snoc hsequence h.previousStatus hstep

/-! ### The claims -/

/-- A phase does not depend on the token and the expiry of its lease. -/
theorem Phase.renewed {attempt : ConversionAttempt} {lease : ConversionLease}
    {status : ConversionRunStatus} (h : Phase attempt lease status) (token : RuntimeToken)
    (expiresAt : Timestamp) : Phase attempt (renewedLease lease token expiresAt) status := by
  cases h with
  | claimed hattempt hunstarted hlease => exact .claimed hattempt hunstarted hlease
  | cancelled hattempt hunstarted hlease => exact .cancelled hattempt hunstarted hlease
  | running hattempt hlease => exact .running hattempt hlease
  | verifying hattempt hlease => exact .verifying hattempt hlease
  | completed hattempt hlease => exact .completed hattempt hlease
  | rejected hattempt hlease => exact .rejected hattempt hlease
  | failed hattempt hlease => exact .failed hattempt hlease
  | lost hattempt hlease => exact .lost hattempt hlease

namespace Claims

variable {status : ConversionRunStatus} {claims : List (ConversionAttempt × ConversionLease)}
  {attempt : ConversionAttempt} {lease : ConversionLease}

theorem inactive_of_givenUp (h : GivenUp attempt lease) : lease.status ≠ .active := by
  rcases h.ended with ⟨-, hlease⟩ | ⟨-, hlease⟩ <;> simp [hlease]

/-- Only the last claim can hold an active lease. -/
theorem active_last (h : Claims status claims) (hmem : (attempt, lease) ∈ claims)
    (hactive : lease.status = .active) :
    ∃ earlier, claims = earlier ++ [(attempt, lease)] ∧
      (∀ claim ∈ earlier, GivenUp claim.1 claim.2) ∧ Phase attempt lease status := by
  cases h with
  | waiting hearlier _ => exact absurd hactive (inactive_of_givenUp (hearlier _ hmem))
  | @held earlier _ _ hearlier hphase =>
    rcases List.mem_append.mp hmem with hmem | hmem
    · exact absurd hactive (inactive_of_givenUp (hearlier _ hmem))
    · obtain ⟨rfl, rfl⟩ := Prod.mk.inj (List.mem_singleton.mp hmem)
      exact ⟨earlier, rfl, hearlier, hphase⟩

/-- A pending run without an active lease has given up all its claims. -/
theorem givenUp_of_free (h : Claims .pending claims)
    (hfree : ∀ claim ∈ claims, claim.2.status ≠ .active) :
    ∀ claim ∈ claims, GivenUp claim.1 claim.2 := by
  cases h with
  | waiting hearlier _ => exact hearlier
  | @held earlier _ _ _ hphase =>
    cases hphase with
    | claimed _ _ hlease => exact absurd hlease (hfree _ (List.mem_append_right _ List.mem_cons_self))

theorem cancelled (h : Claims .pending claims) : Claims .cancelled claims := by
  cases h with
  | waiting hearlier _ => exact .waiting hearlier (Or.inr rfl)
  | held hearlier hphase =>
    cases hphase with
    | claimed hattempt hunstarted hlease =>
      exact .held hearlier (.cancelled hattempt hunstarted hlease)

/-- A verified run keeps the claim that reported its output. -/
theorem decided (h : Claims .verifying claims) (hstatus : status = .completed ∨ status = .failed) :
    Claims status claims := by
  cases h with
  | waiting _ hwaiting => simp at hwaiting
  | held hearlier hphase =>
    cases hphase with
    | verifying hattempt hlease =>
      rcases hstatus with rfl | rfl
      · exact .held hearlier (.completed hattempt hlease)
      · exact .held hearlier (.rejected hattempt hlease)

/-- A phase in which the attempt is still claimed is one before the start. -/
theorem unstarted_of_claimed (h : Phase attempt lease status) (hattempt : attempt.status = .claimed) :
    status = .pending ∨ status = .cancelled := by
  cases h <;> simp_all

end Claims

theorem Tenure.of_same {run run' : ConversionRun} {attempt attempt' : ConversionAttempt}
    {lease lease' : ConversionLease} (h : Tenure run attempt lease)
    (hrun : run'.workspaceId = run.workspaceId)
    (hattempt : attempt'.id = attempt.id ∧ attempt'.conversionLeaseId = attempt.conversionLeaseId ∧
      attempt'.workerId = attempt.workerId ∧ attempt'.workspaceId = attempt.workspaceId ∧
      attempt'.converter = attempt.converter)
    (hlease : lease'.id = lease.id ∧ lease'.conversionAttemptId = lease.conversionAttemptId ∧
      lease'.workerId = lease.workerId ∧ lease'.workspaceId = lease.workspaceId ∧
      lease'.converter = lease.converter) : Tenure run' attempt' lease' := by
  obtain ⟨hid, hleaseId, hworker, hworkspace, hconverter⟩ := hattempt
  obtain ⟨hid', hattemptId, hworker', hworkspace', hconverter'⟩ := hlease
  exact ⟨by rw [hleaseId, hid', h.leaseId], by rw [hattemptId, hid, h.attemptId],
    by rw [hworker, hworker', h.worker], by rw [hworkspace, hrun, h.workspace],
    by rw [hworkspace', hrun, h.leaseWorkspace], by rw [hconverter, hconverter', h.converter]⟩

namespace Claimed

variable {attempts : List ConversionAttempt} {leases : List ConversionLease} {run : ConversionRun}
  {claims earlier : List (ConversionAttempt × ConversionLease)} {attempt : ConversionAttempt}
  {lease : ConversionLease}

theorem exists_of_lease (h : Claimed attempts leases run claims) (hlease : lease ∈ leases) :
    ∃ attempt, (attempt, lease) ∈ claims := by
  rw [h.leasesEq] at hlease
  obtain ⟨⟨attempt, _⟩, hmem, rfl⟩ := List.mem_map.mp hlease
  exact ⟨attempt, hmem⟩

theorem exists_of_attempt (h : Claimed attempts leases run claims) (hattempt : attempt ∈ attempts) :
    ∃ lease, (attempt, lease) ∈ claims := by
  rw [h.attemptsEq] at hattempt
  obtain ⟨⟨_, lease⟩, hmem, rfl⟩ := List.mem_map.mp hattempt
  exact ⟨lease, hmem⟩

theorem attempt_mem (h : Claimed attempts leases run claims) (hmem : (attempt, lease) ∈ claims) :
    attempt ∈ attempts := by
  rw [h.attemptsEq]
  exact List.mem_map_of_mem (f := Prod.fst) hmem

theorem lease_mem (h : Claimed attempts leases run claims) (hmem : (attempt, lease) ∈ claims) :
    lease ∈ leases := by
  rw [h.leasesEq]
  exact List.mem_map_of_mem (f := Prod.snd) hmem

/-- An attempt and the lease it names are one claim. -/
theorem mem_of_leaseId (h : Claimed attempts leases run claims) (hkeys : KeysUnique leases)
    (hattempt : attempt ∈ attempts) (hlease : lease ∈ leases)
    (hof : attempt.conversionLeaseId = lease.id) : (attempt, lease) ∈ claims := by
  obtain ⟨lease', hmem⟩ := h.exists_of_attempt hattempt
  have hid : lease'.id = lease.id := (h.tenure _ hmem).leaseId.symm.trans hof
  exact hkeys.eq_of_key (h.lease_mem hmem) hlease hid ▸ hmem

/-- A lease and the attempt it names are one claim. -/
theorem mem_of_attemptId (h : Claimed attempts leases run claims) (hkeys : KeysUnique attempts)
    (hattempt : attempt ∈ attempts) (hlease : lease ∈ leases)
    (hof : lease.conversionAttemptId = attempt.id) : (attempt, lease) ∈ claims := by
  obtain ⟨attempt', hmem⟩ := h.exists_of_lease hlease
  have hid : attempt'.id = attempt.id := (h.tenure _ hmem).attemptId.symm.trans hof
  exact hkeys.eq_of_key (h.attempt_mem hmem) hattempt hid ▸ hmem

/-- Changing the run only. -/
theorem with_run (h : Claimed attempts leases run claims) {run' : ConversionRun}
    (hworkspace : run'.workspaceId = run.workspaceId) (hphase : Claims run'.status claims) :
    Claimed attempts leases run' claims where
  attemptsEq := h.attemptsEq
  leasesEq := h.leasesEq
  tenure claim hmem := (h.tenure claim hmem).of_same hworkspace ⟨rfl, rfl, rfl, rfl, rfl⟩
    ⟨rfl, rfl, rfl, rfl, rfl⟩
  ordinals := h.ordinals
  phase := hphase

/-- Changing the last claim. -/
theorem with_last (h : Claimed attempts leases run (earlier ++ [(attempt, lease)]))
    (hattempts : KeysUnique attempts) (hleases : KeysUnique leases) {run' : ConversionRun}
    {attempt' : ConversionAttempt} {lease' : ConversionLease}
    (hworkspace : run'.workspaceId = run.workspaceId) (htenure : Tenure run' attempt' lease')
    (hattempt : attempt'.id = attempt.id ∧ attempt'.ordinal = attempt.ordinal)
    (hlease : lease'.id = lease.id) (hphase : Claims run'.status (earlier ++ [(attempt', lease')])) :
    Claimed (update attempts attempt') (update leases lease') run'
      (earlier ++ [(attempt', lease')]) := by
  have hattemptsEq : attempts = earlier.map (·.1) ++ [attempt] := by simpa using h.attemptsEq
  have hleasesEq : leases = earlier.map (·.2) ++ [lease] := by simpa using h.leasesEq
  have hupdated : update attempts attempt' = earlier.map (·.1) ++ [attempt'] := by
    rw [hattemptsEq] at hattempts ⊢
    exact hattempts.update_last hattempt.1.symm
  have hupdated' : update leases lease' = earlier.map (·.2) ++ [lease'] := by
    rw [hleasesEq] at hleases ⊢
    exact hleases.update_last hlease.symm
  refine ⟨by simp [hupdated], by simp [hupdated'], ?_, ?_, hphase⟩
  · intro claim hmem
    rcases List.mem_append.mp hmem with hmem | hmem
    · exact (h.tenure claim (List.mem_append_left _ hmem)).of_same hworkspace
        ⟨rfl, rfl, rfl, rfl, rfl⟩ ⟨rfl, rfl, rfl, rfl, rfl⟩
    · rw [List.mem_singleton.mp hmem]
      exact htenure
  · have hordinals := h.ordinals
    rw [hattemptsEq] at hordinals
    rw [hupdated]
    simpa [hattempt.2] using hordinals

/-- One claim more, after all the others were given up. -/
theorem with_claim (h : Claimed attempts leases run claims)
    (hgivenUp : ∀ claim ∈ claims, GivenUp claim.1 claim.2) (htenure : Tenure run attempt lease)
    (hordinal : attempt.ordinal = attempts.length + 1) (hphase : Phase attempt lease run.status) :
    Claimed (attempts ++ [attempt]) (leases ++ [lease]) run (claims ++ [(attempt, lease)]) where
  attemptsEq := by simp [h.attemptsEq]
  leasesEq := by simp [h.leasesEq]
  tenure := by
    intro claim hmem
    rcases List.mem_append.mp hmem with hmem | hmem
    · exact h.tenure claim hmem
    · rw [List.mem_singleton.mp hmem]
      exact htenure
  ordinals := by
    rw [List.map_append, h.ordinals, List.map_singleton, hordinal, List.length_append,
      List.length_singleton, ← List.range'_append_1]
    simp [Nat.add_comm]
  phase := .held hgivenUp hphase

end Claimed

/-! ### Steps keep the agreement -/

section Steps

variable {h : RunHistory} {run : ConversionRun} {attempt : ConversionAttempt}
  {lease : ConversionLease} {claims : List (ConversionAttempt × ConversionLease)}

theorem givenUp_closed (closing : PreStartClosing) {code : String} {now : Timestamp}
    (hunstarted : attempt.startedAt = none) :
    GivenUp (closing.endedAttempt attempt code now) (closing.closedLease lease now) where
  unstarted := hunstarted
  ended := by
    cases closing with
    | released => exact Or.inl ⟨rfl, rfl⟩
    | expired => exact Or.inr ⟨rfl, rfl⟩

theorem tenure_closed (htenure : Tenure run attempt lease) (closing : PreStartClosing)
    (code : String) (now : Timestamp) :
    Tenure run (closing.endedAttempt attempt code now) (closing.closedLease lease now) := by
  cases closing <;>
    exact htenure.of_same rfl ⟨rfl, rfl, rfl, rfl, rfl⟩ ⟨rfl, rfl, rfl, rfl, rfl⟩

theorem tenure_moved {t : Transition} (htenure : Tenure run attempt lease)
    (hmoved : Moved run attempt lease t) : Tenure t.run t.attempt t.lease := by
  cases hmoved <;>
    exact htenure.of_same rfl ⟨rfl, rfl, rfl, rfl, rfl⟩ ⟨rfl, rfl, rfl, rfl, rfl⟩

theorem moved_ids {t : Transition} (hmoved : Moved run attempt lease t) :
    t.attempt.id = attempt.id ∧ t.attempt.ordinal = attempt.ordinal ∧ t.lease.id = lease.id ∧
      t.run.workspaceId = run.workspaceId := by
  cases hmoved <;> exact ⟨rfl, rfl, rfl, rfl⟩

theorem claimed_closed (hclaimed : Claimed h.attempts h.leases run claims)
    (hattempts : KeysUnique h.attempts) (hleases : KeysUnique h.leases)
    (hmem : (attempt, lease) ∈ claims) (hactive : lease.status = .active)
    (hattempt : attempt.status = .claimed) (hunstarted : attempt.startedAt = none)
    (closing : PreStartClosing) (code : String) (now : Timestamp) :
    ∃ claims', Claimed (update h.attempts (closing.endedAttempt attempt code now))
      (update h.leases (closing.closedLease lease now)) run claims' := by
  obtain ⟨earlier, rfl, hearlier, hphase⟩ := hclaimed.phase.active_last hmem hactive
  refine ⟨_, hclaimed.with_last hattempts hleases rfl
    (tenure_closed (hclaimed.tenure _ hmem) closing code now) ⟨rfl, rfl⟩
    (by cases closing <;> rfl) ?_⟩
  refine .waiting ?_ (Claims.unstarted_of_claimed hphase hattempt)
  intro claim hclaim
  rcases List.mem_append.mp hclaim with hclaim | hclaim
  · exact hearlier claim hclaim
  · rw [List.mem_singleton.mp hclaim]
    exact givenUp_closed closing hunstarted

/-- A transition either goes on with an active claim or decides a run that is being verified. -/
theorem moved_cases {t : Transition} (hmoved : Moved run attempt lease t) :
    lease.status = .active ∧ Phase t.attempt t.lease t.run.status ∨
      run.status = .verifying ∧ (t.run.status = .completed ∨ t.run.status = .failed) ∧
        t.attempt = attempt ∧ t.lease = lease := by
  cases hmoved with
  | started _ _ hlease => exact Or.inl ⟨hlease, .running rfl hlease⟩
  | @progress report percent message hrun hattempt hlease =>
    have hstatus : (progressTransition report percent message run attempt lease).run.status =
      .running := hrun
    exact Or.inl ⟨hlease, hstatus ▸ .running hattempt hlease⟩
  | outputReady _ _ hlease => exact Or.inl ⟨hlease, .verifying rfl rfl⟩
  | failed _ _ hlease => exact Or.inl ⟨hlease, .failed rfl rfl⟩
  | completed hrun _ => exact Or.inr ⟨hrun, Or.inl rfl, rfl, rfl⟩
  | verificationFailed hrun => exact Or.inr ⟨hrun, Or.inr rfl, rfl, rfl⟩
  | expired _ _ hlease => exact Or.inl ⟨hlease, .lost rfl rfl⟩

theorem claimed_moved (hclaimed : Claimed h.attempts h.leases run claims)
    (hattempts : KeysUnique h.attempts) (hleases : KeysUnique h.leases)
    (hmem : (attempt, lease) ∈ claims) {t : Transition} (hmoved : Moved run attempt lease t) :
    ∃ claims', Claimed (update h.attempts t.attempt) (update h.leases t.lease) t.run claims' := by
  obtain ⟨hid, hordinal, hleaseId, hworkspace⟩ := moved_ids hmoved
  rcases moved_cases hmoved with ⟨hactive, hphase⟩ | ⟨hverifying, hdecided, hattempt, hlease⟩
  · obtain ⟨earlier, rfl, hearlier, -⟩ := hclaimed.phase.active_last hmem hactive
    exact ⟨_, hclaimed.with_last hattempts hleases hworkspace
      (tenure_moved (hclaimed.tenure _ hmem) hmoved) ⟨hid, hordinal⟩ hleaseId
      (.held hearlier hphase)⟩
  · rw [hattempt, hlease, hattempts.update_self (hclaimed.attempt_mem hmem),
      hleases.update_self (hclaimed.lease_mem hmem)]
    have hphase := hclaimed.phase
    rw [hverifying] at hphase
    exact ⟨claims, hclaimed.with_run hworkspace (hphase.decided hdecided)⟩

/-- Every step of the protocol keeps a history in agreement. -/
theorem agrees_step {h' : RunHistory} (hagrees : Agrees h) (hattempts : KeysUnique h.attempts)
    (hleases : KeysUnique h.leases) (hstep : RunStep h h') : Agrees h' := by
  have hlog := hagrees.log
  cases hstep with
  | @dispatched run event hrun hstatus hevent =>
    obtain rfl := hagrees.absent hrun
    refine ⟨fun hnone => (by cases hnone), ?_, ?_⟩
    · rw [hrun] at hlog
      rw [Option.map_some, hstatus]
      exact hevent.replays hlog
    · intro run' hrun'
      obtain rfl := Option.some.inj hrun'
      exact ⟨[], rfl, rfl, by simp, rfl, .waiting (by simp) (Or.inl hstatus)⟩
  | @cancelled run now event hrun hstatus hevent =>
    obtain ⟨claims, hclaimed⟩ := hagrees.claimed run hrun
    refine ⟨fun hnone => (by cases hnone), ?_, ?_⟩
    · rw [hrun, Option.map_some, hstatus] at hlog
      exact hevent.replays hlog
    · intro run' hrun'
      obtain rfl := Option.some.inj hrun'
      have hphase := hclaimed.phase
      rw [hstatus] at hphase
      exact ⟨claims, hclaimed.with_run rfl hphase.cancelled⟩
  | @claimed run attempt lease grant hrun hstatus hfree htenure hordinal hattempt hunstarted hlease =>
    obtain ⟨claims, hclaimed⟩ := hagrees.claimed run hrun
    refine ⟨fun hnone => (by simp [hrun] at hnone), hlog, ?_⟩
    intro run' hrun'
    obtain rfl := Option.some.inj (hrun.symm.trans hrun')
    have hphase := hclaimed.phase
    rw [hstatus] at hphase
    have hgivenUp := hphase.givenUp_of_free fun claim hclaim =>
      hfree claim.2 (hclaimed.lease_mem hclaim)
    exact ⟨_, hclaimed.with_claim hgivenUp htenure hordinal
      (hstatus ▸ .claimed hattempt hunstarted hlease)⟩
  | @renewed lease token expiresAt hlease hactive =>
    refine ⟨fun hnone => ?_, hlog, ?_⟩
    · rw [hagrees.absent hnone] at hlease
      cases hlease
    · intro run hrun
      obtain ⟨claims, hclaimed⟩ := hagrees.claimed run hrun
      obtain ⟨attempt, hmem⟩ := hclaimed.exists_of_lease hlease
      obtain ⟨earlier, rfl, hearlier, hphase⟩ := hclaimed.phase.active_last hmem hactive
      have htenure : Tenure run attempt (renewedLease lease token expiresAt) :=
        (hclaimed.tenure _ hmem).of_same rfl ⟨rfl, rfl, rfl, rfl, rfl⟩ ⟨rfl, rfl, rfl, rfl, rfl⟩
      have hnext := hclaimed.with_last hattempts hleases rfl htenure ⟨rfl, rfl⟩ rfl
        (.held hearlier (hphase.renewed token expiresAt))
      rw [hattempts.update_self (hclaimed.attempt_mem hmem)] at hnext
      exact ⟨_, hnext⟩
  | @closed lease attempt closing code now hlease hactive hattempt hof hclaimedStatus hunstarted =>
    refine ⟨fun hnone => ?_, hlog, ?_⟩
    · rw [hagrees.absent hnone] at hlease
      cases hlease
    · intro run hrun
      obtain ⟨claims, hclaimed⟩ := hagrees.claimed run hrun
      have hmem := hclaimed.mem_of_attemptId hattempts hattempt hlease hof
      exact claimed_closed hclaimed hattempts hleases hmem hactive hclaimedStatus hunstarted closing
        code now
  | @moved run attempt lease t event hrun hattempt hlease hof hmoved hevent =>
    obtain ⟨claims, hclaimed⟩ := hagrees.claimed run hrun
    refine ⟨fun hnone => (by cases hnone), ?_, ?_⟩
    · rw [hrun] at hlog
      exact hevent.replays hlog
    · intro run' hrun'
      obtain rfl := Option.some.inj hrun'
      have hmem := hclaimed.mem_of_leaseId hleases hattempt hlease hof
      exact claimed_moved hclaimed hattempts hleases hmem hmoved

end Steps

end MarkorbitKnowledge.Conversion
