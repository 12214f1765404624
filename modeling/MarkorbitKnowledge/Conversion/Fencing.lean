import MarkorbitKnowledge.Conversion.Frame

/-!
# Fencing of conversion leases

A lease only moves forward: a renewal raises its generation and replaces its token, and a closed
lease never changes again (`LeaseKept`).  A report changes the tables only when it carries exactly
what the lease it names holds at that moment, so a report with anything of an earlier state of the
lease is refused, or it repeats a report that was accepted and gets the event of that acceptance.
-/

namespace MarkorbitKnowledge.Conversion

open Contracts Fallible Tables Transitions
open Execution (RegistryError)

/-! ### Leases move forward -/

/-- What a later state of a lease keeps of an earlier one. -/
structure LeaseKept (lease current : ConversionLease) : Prop where
  id : current.id = lease.id
  generation : lease.generation ≤ current.generation
  closed : lease.status ≠ .active → current = lease
  token : current.generation = lease.generation → current.tokenReference = lease.tokenReference ∧
    current.tokenDigest = lease.tokenDigest ∧ current.expiresAt = lease.expiresAt

namespace LeaseKept

variable {lease mid current : ConversionLease}

theorem refl (lease : ConversionLease) : LeaseKept lease lease :=
  ⟨rfl, Nat.le_refl _, fun _ => rfl, fun _ => ⟨rfl, rfl, rfl⟩⟩

theorem trans (h : LeaseKept lease mid) (h' : LeaseKept mid current) : LeaseKept lease current where
  id := h'.id.trans h.id
  generation := Nat.le_trans h.generation h'.generation
  closed hclosed := by
    obtain rfl := h.closed hclosed
    exact h'.closed hclosed
  token hgeneration := by
    have hle := h.generation
    have hle' := h'.generation
    obtain ⟨href, hdigest, hexpires⟩ := h.token (by omega)
    obtain ⟨href', hdigest', hexpires'⟩ := h'.token (by omega)
    exact ⟨href'.trans href, hdigest'.trans hdigest, hexpires'.trans hexpires⟩

/-- An active lease that is not renewed may only change its status. -/
theorem of_active (hactive : lease.status = .active) (hid : current.id = lease.id)
    (hgeneration : current.generation = lease.generation)
    (htoken : current.tokenReference = lease.tokenReference ∧
      current.tokenDigest = lease.tokenDigest ∧ current.expiresAt = lease.expiresAt) :
    LeaseKept lease current :=
  ⟨hid, hgeneration ▸ Nat.le_refl _, fun hclosed => absurd hactive hclosed, fun _ => htoken⟩

theorem renewed (hactive : lease.status = .active) (token : RuntimeToken) (expiresAt : Timestamp) :
    LeaseKept lease (renewedLease lease token expiresAt) where
  id := rfl
  generation := Nat.le_succ _
  closed hclosed := absurd hactive hclosed
  token hgeneration := absurd hgeneration (Nat.succ_ne_self _)

theorem moved {run : ConversionRun} {attempt : ConversionAttempt} {t : Transition}
    (h : Moved run attempt lease t) : LeaseKept lease t.lease := by
  cases h with
  | started => exact refl lease
  | progress => exact refl lease
  | outputReady _ _ hlease => exact of_active hlease rfl rfl ⟨rfl, rfl, rfl⟩
  | failed _ _ hlease => exact of_active hlease rfl rfl ⟨rfl, rfl, rfl⟩
  | completed => exact refl lease
  | verificationFailed => exact refl lease
  | expired _ _ hlease => exact of_active hlease rfl rfl ⟨rfl, rfl, rfl⟩

end LeaseKept

/-- Every lease of the first list has a later state in the second. -/
def LeasesKept (leases leases' : List ConversionLease) : Prop :=
  ∀ lease ∈ leases, ∃ current ∈ leases', LeaseKept lease current

theorem leasesKept_refl (leases : List ConversionLease) : LeasesKept leases leases :=
  fun lease hlease => ⟨lease, hlease, .refl lease⟩

theorem leasesKept_update {leases : List ConversionLease} (hkeys : KeysUnique leases)
    {lease next : ConversionLease} (hlease : lease ∈ leases) (hkept : LeaseKept lease next) :
    LeasesKept leases (update leases next) := by
  intro stored hstored
  by_cases hid : stored.id = next.id
  · obtain rfl := hkeys.eq_of_key hstored hlease (hid.trans hkept.id)
    exact ⟨next, mem_update.mpr (Or.inr ⟨rfl, stored, hstored, hid⟩), hkept⟩
  · exact ⟨stored, mem_update.mpr (Or.inl ⟨hstored, hid⟩), .refl stored⟩

/-- A step of the protocol moves leases forward and only adds events. -/
theorem leasesKept_step {h h' : RunHistory} (hkeys : KeysUnique h.leases) (hstep : RunStep h h') :
    LeasesKept h.leases h'.leases ∧ h.events ⊆ h'.events := by
  cases hstep with
  | dispatched => exact ⟨leasesKept_refl _, List.subset_append_left _ _⟩
  | cancelled => exact ⟨leasesKept_refl _, List.subset_append_left _ _⟩
  | claimed =>
    refine ⟨fun lease hlease => ?_, List.Subset.refl _⟩
    exact ⟨lease, List.mem_append_left _ hlease, .refl lease⟩
  | renewed token expiresAt hlease hactive =>
    exact ⟨leasesKept_update hkeys hlease (.renewed hactive token expiresAt), List.Subset.refl _⟩
  | closed closing code now hlease hactive =>
    refine ⟨leasesKept_update hkeys hlease ?_, List.Subset.refl _⟩
    cases closing <;> exact .of_active hactive rfl rfl ⟨rfl, rfl, rfl⟩
  | moved _ _ hlease _ hmoved =>
    exact ⟨leasesKept_update hkeys hlease (.moved hmoved), List.subset_append_left _ _⟩

section Calls

variable {platform : ConversionPlatform} {db db' : ConversionDatabase}

theorem leasesKept_advances (hs : Sound db) (h : Advances db db') :
    LeasesKept db.leases db'.leases ∧ db.events ⊆ db'.events := by
  have hrun : ∀ runId, LeasesKept (db.leasesOfRun runId) (db'.leasesOfRun runId) ∧
      eventsOfRun db runId ⊆ eventsOfRun db' runId := by
    intro runId
    rcases h with ⟨-, hsame⟩ | ⟨moved, hsteps⟩
    · have hleases : db'.leasesOfRun runId = db.leasesOfRun runId := congrArg (·.leases) (hsame runId)
      have hevents : eventsOfRun db' runId = eventsOfRun db runId := congrArg (·.events) (hsame runId)
      rw [hleases, hevents]
      exact ⟨leasesKept_refl _, List.Subset.refl _⟩
    · by_cases hid : runId = moved
      · subst hid
        exact leasesKept_step (hs.stored.leaseKeys.filter _) hsteps.step
      · have hsame := hsteps.others runId hid
        have hleases : db'.leasesOfRun runId = db.leasesOfRun runId := congrArg (·.leases) hsame
        have hevents : eventsOfRun db' runId = eventsOfRun db runId := congrArg (·.events) hsame
        rw [hleases, hevents]
        exact ⟨leasesKept_refl _, List.Subset.refl _⟩
  constructor
  · intro lease hlease
    obtain ⟨current, hcurrent, hkept⟩ :=
      (hrun lease.conversionRunId).1 lease (mem_leasesOfRun.mpr ⟨hlease, rfl⟩)
    exact ⟨current, (mem_leasesOfRun.mp hcurrent).1, hkept⟩
  · intro event hevent
    exact (mem_eventsOfRun.mp ((hrun event.runId).2 (mem_eventsOfRun.mpr ⟨hevent, rfl⟩))).1

/-- From any state on, leases only move forward. -/
theorem leasesKept_runFrom (hs : Sound db) (calls : List ConversionCall) :
    LeasesKept db.leases ((store platform).runFrom db calls).leases := by
  have hboth : Sound ((store platform).runFrom db calls) ∧
      LeasesKept db.leases ((store platform).runFrom db calls).leases := by
    refine Machine.runFrom_invariant (P := fun later => Sound later ∧ LeasesKept db.leases later.leases)
      ?_ ⟨hs, leasesKept_refl _⟩ calls
    rintro later call ⟨hlater, hkept⟩
    have hadvances : Advances later (perform platform later call).2 := perform_advances hlater call
    refine ⟨hlater.advances hadvances, fun lease hlease => ?_⟩
    obtain ⟨mid, hmid, hkept⟩ := hkept lease hlease
    obtain ⟨current, hcurrent, hkept'⟩ := (leasesKept_advances hlater hadvances).1 mid hmid
    exact ⟨current, hcurrent, hkept.trans hkept'⟩
  exact hboth.2

/-! ### Accepted reports -/

/-- The report was accepted by a call of the run, with the event `event`. -/
def AcceptedIn (platform : ConversionPlatform) (calls : List ConversionCall) (report : RuntimeReport)
    (event : ConversionExecutionEvent) : Prop :=
  ∃ first values rest result, calls = first ++ .submitReport report values :: rest ∧
    (perform platform ((store platform).run first) (.submitReport report values)).1 =
      .ok (.transitioned result) ∧ result.replayed = false ∧ result.event = event

theorem AcceptedIn.append {calls : List ConversionCall} {report : RuntimeReport}
    {event : ConversionExecutionEvent} (h : AcceptedIn platform calls report event)
    (more : List ConversionCall) : AcceptedIn platform (calls ++ more) report event := by
  obtain ⟨first, values, rest, result, rfl, haccepted⟩ := h
  exact ⟨first, values, rest ++ more, result, by simp, haccepted⟩

/-- Every stored report was accepted by a call of the run, and its event is stored. -/
theorem reports_accepted (calls : List ConversionCall) :
    ∀ row ∈ ((store platform).run calls).reports,
      row.reportDigest = platform.hashReport row.report ∧
        ∃ event ∈ ((store platform).run calls).events, event.id = row.eventId ∧
          AcceptedIn platform calls row.report event := by
  induction calls using List.reverseRecOn with
  | nil => exact fun row hrow => by cases hrow
  | append_singleton calls call ih =>
    rw [run_concat_store]
    have hs : Sound ((store platform).run calls) := sound_run calls
    have hadvances : Advances _ (perform platform ((store platform).run calls) call).2 :=
      perform_advances hs call
    have hevents := (leasesKept_advances hs hadvances).2
    have hkept : ∀ row ∈ ((store platform).run calls).reports,
        row.reportDigest = platform.hashReport row.report ∧
          ∃ event ∈ (perform platform ((store platform).run calls) call).2.events,
            event.id = row.eventId ∧ AcceptedIn platform (calls ++ [call]) row.report event := by
      intro row hrow
      obtain ⟨hdigest, event, hevent, hid, haccepted⟩ := ih row hrow
      exact ⟨hdigest, event, hevents hevent, hid, haccepted.append [call]⟩
    cases hbody : body platform call ((store platform).run calls) with
    | error error =>
      rw [perform, commit_of_error hbody] at hkept ⊢
      exact hkept
    | ok r =>
      obtain ⟨outcome, db'⟩ := r
      have hperform := commit_of_ok hbody
      rw [perform, hperform] at hkept ⊢
      cases body_frame hbody with
      | frame hframe =>
        rw [hframe.reports]
        exact hkept
      | dispatched hdispatched =>
        rw [hdispatched.reports]
        exact hkept
      | @accepted report values result hadded =>
        intro row hrow
        rw [hadded.reports] at hrow
        rcases List.mem_append.mp hrow with hrow | hrow
        · exact hkept row hrow
        · obtain rfl := List.mem_singleton.mp hrow
          refine ⟨rfl, result.event, hadded.event, rfl, calls, values, [], result, rfl, ?_,
            hadded.fresh, rfl⟩
          rw [perform, hperform]

/-! ### Reports of earlier states -/

/-- The report carries something of the state `earlier` of its lease that the lease, now in the state
    `lease`, does not hold any more; where the lease is closed or has run out, its identity is
    enough. -/
def Stale (earlier lease : ConversionLease) (report : RuntimeReport) (now : Timestamp) : Prop :=
  lease.status ≠ .active ∨ lease.expiresAt ≤ now ∨
    (report.leaseGeneration = earlier.generation ∧ earlier.generation < lease.generation) ∨
    (report.leaseTokenReference = earlier.tokenReference ∧
      lease.tokenReference ≠ earlier.tokenReference) ∨
    (report.leaseTokenDigest = earlier.tokenDigest ∧ lease.tokenDigest ≠ earlier.tokenDigest)

/-- A report that matches an active lease carries nothing stale. -/
theorem not_stale {earlier lease : ConversionLease} {report : RuntimeReport} {now : Timestamp}
    (hactive : isConversionLeaseActive lease now = true)
    (hmatches : reportMatchesLease report lease = true) : ¬ Stale earlier lease report now := by
  simp only [isConversionLeaseActive, Bool.and_eq_true, beq_iff_eq, decide_eq_true_eq] at hactive
  simp only [reportMatchesLease, Bool.and_eq_true, beq_iff_eq] at hmatches
  obtain ⟨⟨hstatus, -⟩, hexpires⟩ := hactive
  obtain ⟨⟨⟨-, hgeneration⟩, hreference⟩, hdigest⟩ := hmatches
  rintro (hclosed | hexpired | ⟨hcarried, hlt⟩ | ⟨hcarried, hne⟩ | ⟨hcarried, hne⟩)
  · exact hclosed hstatus
  · exact absurd hexpires (not_lt.mpr hexpired)
  · omega
  · exact hne (hreference.symm.trans hcarried)
  · exact hne (hdigest.symm.trans hcarried)

/-- The report is an exact repetition of `original`. -/
structure Repeats (platform : ConversionPlatform) (report original : RuntimeReport) : Prop where
  workspace : original.workspaceId = report.workspaceId
  worker : original.workerId = report.workerId
  key : original.idempotencyKey = report.idempotencyKey
  digest : platform.hashReport original = platform.hashReport report

/-- The leases of the state after the calls `before` are fenced in the state that the calls `after`
    lead on to. -/
structure Fenced (platform : ConversionPlatform) (before after : List ConversionCall) : Prop where
  /-- Every lease is still stored, at its generation or a later one, and unchanged if closed. -/
  kept : LeasesKept ((store platform).run before).leases ((store platform).run (before ++ after)).leases
  /-- A renewal raises the generation. -/
  renewal : ∀ id input now token renewed,
    (perform platform ((store platform).run (before ++ after)) (.renewLease id input now token)).1 =
        .ok (.lease renewed) →
      ∃ lease ∈ ((store platform).run (before ++ after)).leases, lease.id = id ∧
        renewed.generation = lease.generation + 1
  /-- A report that changes anything carries exactly what its active lease holds. -/
  exact : ∀ report values,
    (perform platform ((store platform).run (before ++ after)) (.submitReport report values)).2 ≠
        (store platform).run (before ++ after) →
      ∃ lease ∈ ((store platform).run (before ++ after)).leases,
        lease.id = report.conversionLeaseId ∧ isConversionLeaseActive lease values.now = true ∧
          reportMatchesLease report lease = true
  /-- A stale report changes nothing, and is only answered as a repetition. -/
  stale : ∀ earlier ∈ ((store platform).run before).leases,
    ∀ lease ∈ ((store platform).run (before ++ after)).leases, lease.id = earlier.id →
    ∀ report values, report.conversionLeaseId = earlier.id → Stale earlier lease report values.now →
      (perform platform ((store platform).run (before ++ after)) (.submitReport report values)).2 =
          (store platform).run (before ++ after) ∧
        ∀ outcome, (perform platform ((store platform).run (before ++ after))
            (.submitReport report values)).1 = .ok outcome →
          ∃ result original, outcome = .transitioned result ∧ result.replayed = true ∧
            Repeats platform report original ∧
            AcceptedIn platform (before ++ after) original result.event
  /-- A call that throws changes nothing. -/
  throws : ∀ call error,
    (perform platform ((store platform).run (before ++ after)) call).1 = .error error →
      (perform platform ((store platform).run (before ++ after)) call).2 =
        (store platform).run (before ++ after)

theorem AcceptedReport.lease_matches {report : RuntimeReport} {values : ReportValues}
    {result : ConversionRuntimeTransitionResult} {run : ConversionRun} {lease : ConversionLease}
    {attempt : ConversionAttempt} {t : Transition} {mid : ConversionDatabase} {digest : Digest}
    (h : AcceptedReport report digest values db db' result run lease attempt t mid) :
    lease ∈ db.leases ∧ lease.id = report.conversionLeaseId ∧
      isConversionLeaseActive lease values.now = true ∧ reportMatchesLease report lease = true :=
  ⟨mem_of_find? h.findLease, key_of_find? h.findLease, (authorizeReport_spec h.authorized).active,
    (authorizeReport_spec h.authorized).matched⟩

theorem RepeatsRow.repeats {calls : List ConversionCall} {report : RuntimeReport}
    {result : ConversionRuntimeTransitionResult} {row : ReportRow}
    (h : RepeatsRow platform ((store platform).run calls) report result row) :
    Repeats platform report row.report ∧ AcceptedIn platform calls row.report result.event := by
  obtain ⟨hdigest, event, hevent, hid, haccepted⟩ := reports_accepted calls row h.stored
  have hkeyed := h.keyed
  simp only [reportKeyed, Bool.and_eq_true, decide_eq_true_eq] at hkeyed
  obtain ⟨⟨hworkspace, hworker⟩, hkey⟩ := hkeyed
  refine ⟨⟨hworkspace, hworker, hkey, hdigest.symm.trans h.digest⟩, ?_⟩
  have hs : Sound ((store platform).run calls) := sound_run calls
  have hsame : result.event.id = event.id := (key_of_find? h.event).trans hid.symm
  rw [hs.stored.eventKeys.eq_of_key (mem_of_find? h.event) hevent hsame]
  exact haccepted

/-- A report either leaves the tables alone or carries exactly what its active lease holds. -/
theorem submitReport_cases (platform : ConversionPlatform) (db : ConversionDatabase)
    (report : RuntimeReport) (values : ReportValues) :
    (perform platform db (.submitReport report values)).2 = db ∧
        (∀ outcome, (perform platform db (.submitReport report values)).1 = .ok outcome →
          ∃ result row, outcome = .transitioned result ∧ RepeatsRow platform db report result row) ∨
      ∃ lease ∈ db.leases, lease.id = report.conversionLeaseId ∧
        isConversionLeaseActive lease values.now = true ∧ reportMatchesLease report lease = true := by
  cases hbody : body platform (.submitReport report values) db with
  | error error =>
    rw [perform, commit_of_error hbody]
    exact Or.inl ⟨rfl, fun _ h => by cases h⟩
  | ok r =>
    obtain ⟨outcome, db'⟩ := r
    rw [perform, commit_of_ok hbody]
    simp only [body, bind_eq_ok, pure_eq_ok, Prod.mk.injEq] at hbody
    obtain ⟨⟨result, _⟩, hsubmit, rfl, rfl⟩ := hbody
    rcases submitReport_spec hsubmit with ⟨hsame, row, hrow⟩ | ⟨_, lease, _, _, _, haccepted⟩
    · refine Or.inl ⟨hsame, fun outcome h => ?_⟩
      exact ⟨result, row, (Except.ok.inj h).symm, hrow⟩
    · obtain ⟨hlease, hmatches⟩ := haccepted.lease_matches
      exact Or.inr ⟨lease, hlease, hmatches⟩

end Calls

/-- Conversion leases are fenced, whatever calls lead to a state and on from it. -/
theorem conversion_fenced (platform : ConversionPlatform) (before after : List ConversionCall) :
    Fenced platform before after := by
  have hrun : (store platform).run (before ++ after) =
      (store platform).runFrom ((store platform).run before) after :=
    (store platform).runFrom_append _ before after
  have hs : Sound ((store platform).run (before ++ after)) := sound_run _
  refine ⟨?_, ?_, ?_, ?_, ?_⟩
  · rw [hrun]
    exact leasesKept_runFrom (sound_run before) after
  · intro id input now token renewed h
    obtain ⟨_, hbody⟩ := commit_fst_ok h
    simp only [body, renewLease, bind_eq_ok, pure_eq_ok, Prod.mk.injEq, getLease_eq_ok] at hbody
    obtain ⟨_, ⟨_, -, current, ⟨hfind, -⟩, _, -, _, -, _, -, _, -, _, -, rfl⟩, heq, -⟩ := hbody
    obtain rfl := ConversionOutcome.lease.inj heq
    exact ⟨current, mem_of_find? hfind, key_of_find? hfind, rfl⟩
  · intro report values hchanged
    rcases submitReport_cases platform _ report values with ⟨hsame, -⟩ | hmatches
    · exact absurd hsame hchanged
    · exact hmatches
  · intro earlier hearlier lease hlease hid report values hnames hstale
    rcases submitReport_cases platform ((store platform).run (before ++ after)) report values
      with ⟨hsame, hanswer⟩ | ⟨current, hcurrent, hof, hactive, hmatches⟩
    · refine ⟨hsame, fun outcome houtcome => ?_⟩
      obtain ⟨result, row, rfl, hrow⟩ := hanswer outcome houtcome
      obtain ⟨hrepeats, haccepted⟩ := hrow.repeats
      exact ⟨result, row.report, rfl, hrow.replayed, hrepeats, haccepted⟩
    · have hsame : current.id = lease.id := hof.trans (hnames.trans hid.symm)
      obtain rfl := hs.stored.leaseKeys.eq_of_key hcurrent hlease hsame
      exact absurd hstale (not_stale hactive hmatches)
  · intro call error h
    exact commit_fst_error h

end MarkorbitKnowledge.Conversion
