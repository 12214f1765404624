import MarkorbitKnowledge.Scheduler.Scheduler

/-!
# What the examination of a plan can do

A tick examines its plans one after another, and an examination has three commits: the reconciled
state, the dispatch of the slot and the advanced state.  The state commits touch the schedule state
of the plan and nothing else (`OnlyState`); the dispatch inserts one run with its first job, for the
slot the state held before the tick (`Dispatched`), or does nothing.  `examinePlan_spec` puts the
three together, dead processes included, and `examinePlan_row` says which state an examination that
ran to its end leaves.
-/

namespace MarkorbitKnowledge.Scheduler

open Contracts Execution Fallible

/-! ### Schedule states -/

theorem stateRow_upsertState (db : Database) (row : PersistedScheduleState) (planId : Id) :
    stateRow (upsertState db row) planId =
      if planId = row.planId then some row else stateRow db planId := by
  unfold stateRow upsertState
  cases h : stateRow db row.planId with
  | none =>
    unfold stateRow at h
    rw [Tables.find?_append_singleton]
    by_cases hid : planId = row.planId
    · simp [hid, h]
    · simp [hid, Ne.symm hid]
  | some existing =>
    by_cases hid : planId = row.planId
    · rw [if_pos hid, hid]
      exact Tables.find?_update_self ⟨existing, Tables.mem_of_find? h, Tables.key_of_find? h⟩
    · rw [if_neg hid]
      exact Tables.find?_update_of_ne (by simpa using hid)

/-- Only the schedule state of the plan `planId` may differ. -/
structure OnlyState (planId : Id) (db db' : Database) : Prop where
  rest : db' = { db with scheduleStates := db'.scheduleStates }
  others : ∀ id, id ≠ planId → stateRow db' id = stateRow db id

namespace OnlyState

variable {planId : Id} {db db' db'' : Database}

theorem refl (planId : Id) (db : Database) : OnlyState planId db db := ⟨rfl, fun _ _ => rfl⟩

theorem upsert (db : Database) (row : PersistedScheduleState) :
    OnlyState row.planId db (upsertState db row) :=
  ⟨rfl, fun id hne => by rw [stateRow_upsertState, if_neg hne]⟩

theorem plans (h : OnlyState planId db db') : db'.plans = db.plans := by rw [h.rest]

theorem runs (h : OnlyState planId db db') : db'.runs = db.runs := by rw [h.rest]

end OnlyState

/-- Schedules of different modes have different fingerprints. -/
def ModesDistinct (platform : Platform) : Prop :=
  ∀ left right : CollectionSchedule,
    scheduleFingerprint platform left = scheduleFingerprint platform right → left.mode = right.mode

/-- What holds of every stored state: its mode and fingerprint are those of one schedule, and a slot
    that lies after its last error is not one the scheduler reads. -/
structure StateSound (platform : Platform) (row : PersistedScheduleState) : Prop where
  schedule : ∃ schedule : CollectionSchedule, row.scheduleMode = schedule.mode ∧
    row.scheduleFingerprint = scheduleFingerprint platform schedule
  errorFollows : ∀ slot error, row.nextDueAt = some slot → row.lastErrorAt = some error →
    slot ≤ error ∨ isRfc3339 slot = false

/-- The state of the plan is still sound. -/
def KeepsSound (platform : Platform) (planId : Id) (db db' : Database) : Prop :=
  (∀ row, stateRow db planId = some row → StateSound platform row) →
    ∀ row, stateRow db' planId = some row → StateSound platform row

theorem KeepsSound.trans {platform : Platform} {planId : Id} {db db' db'' : Database}
    (h : KeepsSound platform planId db db') (h' : KeepsSound platform planId db' db'') :
    KeepsSound platform planId db db'' := fun hdb => h' (h hdb)

/-- An error may be written over a slot that is due or cannot be read. -/
theorem errorState_sound {platform : Platform} {plan : CollectionPlan} {now : Timestamp}
    {error : RegistryError} {existing : Option PersistedScheduleState}
    (h : ∀ row slot, existing = some row →
      row.scheduleFingerprint = scheduleFingerprint platform plan.schedule →
      row.nextDueAt = some slot → slot ≤ now ∨ isRfc3339 slot = false) :
    StateSound platform (errorState platform plan now error existing) := by
  refine ⟨⟨plan.schedule, rfl, rfl⟩, fun slot at' hslot hat => ?_⟩
  obtain rfl : now = at' := Option.some.inj hat
  simp only [errorState, Option.bind_eq_some_iff] at hslot
  obtain ⟨row, hrow, hslot⟩ := hslot
  split at hslot
  · cases hslot
  · rename_i hsame
    exact h row slot hrow (not_not.mp hsame) hslot

theorem writeScheduleError_spec (platform : Platform) (db : Database) (plan : CollectionPlan)
    (now : Timestamp) (error : RegistryError) :
    OnlyState plan.id db (writeScheduleError platform db plan now error).2 ∧
      stateRow (writeScheduleError platform db plan now error).2 plan.id =
        some (writeScheduleError platform db plan now error).1 ∧
      (writeScheduleError platform db plan now error).1.lastErrorAt = some now ∧
      (writeScheduleError platform db plan now error).1.scheduleFingerprint =
        scheduleFingerprint platform plan.schedule ∧
      ∀ slot, (writeScheduleError platform db plan now error).1.nextDueAt = some slot →
        ∃ row, stateRow db plan.id = some row ∧ row.nextDueAt = some slot := by
  have hupsert := OnlyState.upsert db (errorState platform plan now error (stateRow db plan.id))
  refine ⟨hupsert, ?_, rfl, rfl, fun slot hslot => ?_⟩
  · exact (stateRow_upsertState db _ plan.id).trans (if_pos rfl)
  · simp only [writeScheduleError, errorState, Option.bind_eq_some_iff] at hslot
    obtain ⟨row, hrow, hslot⟩ := hslot
    split at hslot
    · cases hslot
    · exact ⟨row, hrow, hslot⟩

/-- A slot the state of a plan holds. -/
def Holds (db : Database) (planId : Id) (slot : Timestamp) : Prop :=
  ∃ row, stateRow db planId = some row ∧ row.nextDueAt = some slot

/-- The state a reconciliation leaves: the current one, one whose slot lies ahead, or the one of an
    error. -/
theorem reconcileActivePlan_spec {platform : Platform} {db db' : Database} {plan : CollectionPlan}
    {now : Int} {reconciled : Reconciled}
    (h : reconcileActivePlan platform db plan now = (reconciled, db')) :
    OnlyState plan.id db db' ∧ stateRow db' plan.id = some reconciled.row ∧
      reconciled.row.scheduleFingerprint = scheduleFingerprint platform plan.schedule ∧
      (stateRow db plan.id = some reconciled.row ∧
          stateIsCurrent platform plan reconciled.row = true ∨
        reconciled.row.lastErrorAt = none ∧
          (∃ next, reconciled.row.nextDueAt = some next ∧ now < next ∧
            nextScheduledAt platform plan.schedule now = .ok (some (some next))) ∨
        reconciled.row.lastErrorAt = some now ∧
          ∀ slot, reconciled.row.nextDueAt = some slot → Holds db plan.id slot) := by
  simp only [reconcileActivePlan] at h
  split at h
  · rename_i row hrow
    obtain ⟨hrow, hcurrent⟩ := Option.filter_eq_some_iff.mp hrow
    obtain ⟨rfl, rfl⟩ := Prod.mk.inj h
    have hfingerprint : row.scheduleFingerprint = scheduleFingerprint platform plan.schedule := by
      simp only [stateIsCurrent, Bool.and_eq_true, decide_eq_true_eq] at hcurrent
      exact hcurrent.1.2
    exact ⟨.refl _ _, hrow, hfingerprint, Or.inl ⟨hrow, hcurrent⟩⟩
  · split at h
    · rename_i next hnext
      obtain ⟨rfl, rfl⟩ := Prod.mk.inj h
      simp only [bind_eq_ok, storedSlot, isoInstant, orThrow_eq_ok] at hnext
      obtain ⟨_, hnext, _, rfl, rfl⟩ := hnext
      refine ⟨OnlyState.upsert db (initialState platform plan now _ _),
        (stateRow_upsertState db _ plan.id).trans (if_pos rfl), rfl, Or.inr (Or.inl ⟨rfl, ?_⟩)⟩
      exact ⟨_, rfl, lt_nextScheduledAt hnext, hnext⟩
    · rename_i error _
      obtain ⟨rfl, rfl⟩ := Prod.mk.inj h
      obtain ⟨honly, hrow, herror, hfingerprint, hslot⟩ :=
        writeScheduleError_spec platform db plan now error
      exact ⟨honly, hrow, hfingerprint, Or.inr (Or.inr ⟨herror, hslot⟩)⟩

theorem reconcileActivePlan_sound {platform : Platform} (hmodes : ModesDistinct platform)
    {db db' : Database} {plan : CollectionPlan} {now : Timestamp} {reconciled : Reconciled}
    (h : reconcileActivePlan platform db plan now = (reconciled, db')) :
    KeepsSound platform plan.id db db' := by
  intro hsound row hrow
  simp only [reconcileActivePlan] at h
  split at h
  · obtain ⟨-, rfl⟩ := Prod.mk.inj h
    exact hsound row hrow
  · rename_i hstale
    split at h
    · obtain ⟨-, rfl⟩ := Prod.mk.inj h
      obtain rfl := Option.some.inj (((stateRow_upsertState db _ plan.id).trans (if_pos rfl)).symm.trans
        hrow)
      exact ⟨⟨plan.schedule, rfl, rfl⟩, nofun⟩
    · obtain ⟨-, rfl⟩ := Prod.mk.inj h
      obtain rfl := Option.some.inj (((stateRow_upsertState db _ plan.id).trans (if_pos rfl)).symm.trans
        hrow)
      -- The slot is kept only of a state of this schedule, which is stale because of its slot.
      refine errorState_sound fun existing slot hexisting hfingerprint hslot => Or.inr ?_
      obtain ⟨schedule, hmode, hof⟩ := (hsound existing hexisting).schedule
      have hmode : existing.scheduleMode = plan.schedule.mode :=
        hmode.trans (hmodes _ _ (hof.symm.trans hfingerprint))
      have hnot : ¬ stateIsCurrent platform plan existing = true := fun hcurrent => by
        rw [hexisting, Option.filter_eq_none_iff] at hstale
        exact hstale existing rfl hcurrent
      simpa [stateIsCurrent, hmode, hfingerprint, hslot] using hnot

/-- The slot an examination finds due was in the state before it. -/
theorem holds_of_reconciled {platform : Platform} {db db' : Database} {plan : CollectionPlan}
    {now slot : Int} {reconciled : Reconciled}
    (h : reconcileActivePlan platform db plan now = (reconciled, db'))
    (hslot : reconciled.row.nextDueAt = some slot) (hdue : slot ≤ now) : Holds db plan.id slot := by
  obtain ⟨-, -, -, hrow⟩ := reconcileActivePlan_spec h
  rcases hrow with ⟨hrow, -⟩ | ⟨-, next, hnext, hahead, -⟩ | ⟨-, hkept⟩
  · exact ⟨_, hrow, hslot⟩
  · rw [hslot, Option.some.injEq] at hnext
    omega
  · exact hkept slot hslot

/-! ### The dispatch of a slot -/

/-- `db'` has one run more than `db`, pending, scheduled for the slot of the plan, with its first
    job; the plan was active and had neither a run under the key of the slot nor one in flight. -/
structure Dispatched (db db' : Database) (plan : CollectionPlan) (slot : Timestamp) : Prop where
  active : plan.status = .active
  keyFree : runWithKey db plan.workspaceId (scheduledSlotIdempotencyKey plan.id slot) = none
  idle : ∀ run ∈ db.runs, run.planId = plan.id → run.status ≠ .pending ∧ run.status ≠ .running
  inserted : ∃ source connector jobType runId jobId now,
    let run := newRun plan source connector
      { type := .scheduled
        requestedBy := { actorType := .system, actorId := some SYSTEM_ACTOR_ID }
        idempotencyKey := some (scheduledSlotIdempotencyKey plan.id slot)
        parentRunId := none } (some (executionExtensions slot)) runId now
    let job := newJob run jobType jobId now
    (isCollectionRun run = true ∧ isJob job = true) ∧ insertDispatch db run job = .ok db'

theorem inFlightRunForPlan_none {db : Database} {planId : Id}
    (h : inFlightRunForPlan db planId = .ok none) {run : CollectionRun} (hrun : run ∈ db.runs)
    (hplan : run.planId = planId) : run.status ≠ .pending ∧ run.status ≠ .running := by
  simp only [inFlightRunForPlan, mapM_eq_ok_none, List.head?_eq_none_iff] at h
  have hnil := (List.perm_insertionSort _ _).symm.trans (.of_eq h)
  have hnone := List.filter_eq_nil_iff.mp hnil.eq_nil run hrun
  simpa [hplan] using hnone

theorem dispatchScheduled_spec {db db' : Database} {plan : CollectionPlan}
    {slot now : Timestamp} {runId jobId : Id} {dispatch : ScheduledDispatchResult}
    (h : dispatchScheduled db plan slot now runId jobId = .ok (dispatch, db')) :
    db' = db ∨ Dispatched db db' plan slot := by
  simp only [dispatchScheduled, bind_eq_ok, require_eq_ok] at h
  obtain ⟨source, -, connector, -, jobType, hvalid, _, -, existing, hexisting, h⟩ := h
  split at h
  · simp only [pure_eq_ok, Prod.mk.injEq] at h
    exact Or.inl h.2.symm
  · simp only [bind_eq_ok] at h
    obtain ⟨active, hactive, h⟩ := h
    split at h
    · simp only [pure_eq_ok, Prod.mk.injEq] at h
      exact Or.inl h.2.symm
    · simp only [bind_eq_ok, require_eq_ok, pure_eq_ok, Prod.mk.injEq] at h
      obtain ⟨_, hvalidated, _, hinsert, -, rfl⟩ := h
      refine Or.inr ⟨?_, ?_, fun run hrun hplan => inFlightRunForPlan_none hactive hrun hplan,
        source, connector, jobType, runId, jobId, now, hvalidated, hinsert⟩
      · simp only [validateScheduledDispatch, checkDispatch, bind_eq_ok, require_eq_ok] at hvalid
        obtain ⟨_, hactive, -⟩ := hvalid
        exact hactive
      · unfold existingScheduledRun at hexisting
        split at hexisting
        · assumption
        · simp at hexisting

theorem Dispatched.scheduleStates {db db' : Database} {plan : CollectionPlan} {slot : Timestamp}
    (h : Dispatched db db' plan slot) : db'.scheduleStates = db.scheduleStates := by
  obtain ⟨source, connector, jobType, runId, jobId, now, -, hinsert⟩ := h.inserted
  simp only [insertDispatch, insertRun, insertJob, bind_eq_ok, require_eq_ok, pure_eq_ok] at hinsert
  obtain ⟨_, ⟨_, -, _, -, rfl⟩, _, -, _, -, rfl⟩ := hinsert
  rfl

/-! ### The examination of a plan -/

/-- `next` is a slot the schedule of a plan has after `now`, computed at `now`. -/
def ComputedAt (platform : Platform) (schedule : CollectionSchedule) (now next : Timestamp) : Prop :=
  nextScheduledAt platform schedule now = .ok (some (some next)) ∨
    ∃ slot : Timestamp, slot ≤ now ∧
      nextFutureScheduledAt platform schedule (newDate slot) now = .ok (some (some next))

/-- At an instant with a year of four digits, a computed slot is ahead and within the horizon. -/
theorem ComputedAt.bounds {platform : Platform} {schedule : CollectionSchedule} {now next : Int}
    (hnow : isRfc3339 now = true) (h : ComputedAt platform schedule now next) :
    now < next ∧ next ≤ now + scheduleHorizon schedule := by
  rcases h with h | ⟨slot, hdue, h⟩
  · exact ⟨lt_nextScheduledAt h, nextScheduledAt_le h⟩
  · exact ⟨lt_nextFutureScheduledAt hnow h, nextFutureScheduledAt_le hnow hdue h⟩

/-- The states an examination at `now` leaves: that of an error, one whose slot was computed, or the
    state it found, if its slot lay ahead. -/
def Rested (platform : Platform) (plan : CollectionPlan) (now : Timestamp)
    (before : Option PersistedScheduleState) (row : PersistedScheduleState) : Prop :=
  row.lastErrorAt = some now ∨
    (row.lastErrorAt = none ∧ ∃ next, row.nextDueAt = some next ∧
      ComputedAt platform plan.schedule now next) ∨
    (before = some row ∧ ∃ next, row.nextDueAt = some next ∧ now < next ∧ isRfc3339 next = true)

theorem settleSlot_spec {platform : Platform} {db db' : Database} {plan : CollectionPlan}
    {slot now : Int} {dispatch : ScheduledDispatchResult} {item : TickItem}
    {row : PersistedScheduleState} (hrow : stateRow db plan.id = some row)
    (hfingerprint : row.scheduleFingerprint = scheduleFingerprint platform plan.schedule)
    (hslot : row.nextDueAt = some slot) (hdue : slot ≤ now)
    (h : settleSlot platform db plan slot now dispatch = (item, db')) :
    item.planId = plan.id ∧ OnlyState plan.id db db' ∧
      ∃ row', stateRow db' plan.id = some row' ∧ (∀ before, Rested platform plan now before row') ∧
        (StateSound platform row → StateSound platform row') := by
  have hadvance : ∀ {triggered : Option Id} {lost : String} {result : PersistedScheduleState}
      {current : Database}, advance platform db plan slot now triggered lost = .ok (result, current) →
      OnlyState plan.id db current ∧
        ∃ row', stateRow current plan.id = some row' ∧
          (∀ before, Rested platform plan now before row') ∧
          (StateSound platform row → StateSound platform row') := by
    intro triggered lost result current h
    simp only [advance, storedSlot, isoInstant, bind_eq_ok, orThrow_eq_ok] at h
    obtain ⟨_, hnext, next, ⟨_, rfl, rfl⟩, found, hfound, h⟩ := h
    obtain rfl : row = found := Option.some.inj (hrow.symm.trans hfound)
    rw [if_pos ⟨hfingerprint, hslot⟩, pure_eq_ok, Prod.mk.injEq] at h
    obtain ⟨-, rfl⟩ := h
    have hid : row.planId = plan.id := Tables.key_of_find? hrow
    refine ⟨⟨rfl, fun id hne => Tables.find?_update_of_ne (by simpa [advancedState, hid] using hne)⟩,
      advancedState row slot next now triggered, ?_,
      fun before => Or.inr (Or.inl ⟨rfl, next, rfl, Or.inr ⟨slot, hdue, hnext⟩⟩),
      fun hsound => ⟨hsound.schedule, fun _ _ _ h => by cases h⟩⟩
    rw [← hid]
    exact Tables.find?_update_self ⟨row, Tables.mem_of_find? hrow, rfl⟩
  simp only [settleSlot] at h
  split at h
  · rename_i state current hadvanced
    obtain ⟨rfl, rfl⟩ := Prod.mk.inj h
    refine ⟨rfl, ?_⟩
    split at hadvanced
    · exact hadvance hadvanced
    · exact hadvance hadvanced
  · rename_i error _
    obtain ⟨rfl, rfl⟩ := Prod.mk.inj h
    obtain ⟨honly, hwritten, herror, -, -⟩ := writeScheduleError_spec platform db plan now error
    refine ⟨rfl, honly, _, hwritten, fun before => Or.inl herror, fun _ => ?_⟩
    refine errorState_sound fun existing slot' hexisting _ hslot' => Or.inl ?_
    obtain rfl := Option.some.inj (hrow.symm.trans hexisting)
    exact (Option.some.inj (hslot.symm.trans hslot')) ▸ hdue

/-- The three commits of an examination, wherever the process dies. -/
structure Examined (platform : Platform) (plan : CollectionPlan) (now : Timestamp)
    (db db' : Database) : Prop where
  commits : ∃ mid mid', OnlyState plan.id db mid ∧
    (mid' = mid ∨ ∃ slot, slot ≤ now ∧ Holds db plan.id slot ∧ Dispatched mid mid' plan slot) ∧
    OnlyState plan.id mid' db'
  sound : ModesDistinct platform → KeepsSound platform plan.id db db'

theorem examinePlan_spec {platform : Platform} {db db' : Database} {plan : CollectionPlan}
    {now : Int} {ids : Id × Id} {crash : Option CommitPoint} {item : Option TickItem}
    (h : examinePlan platform db plan now ids crash = (item, db')) :
    Examined platform plan now db db' ∧
      (∀ i, item = some i → i.planId = plan.id ∧
        ∃ row, stateRow db' plan.id = some row ∧
          Rested platform plan now (stateRow db plan.id) row) ∧
      (crash = none → item.isSome) := by
  cases hreconciled : reconcileActivePlan platform db plan now with
  | mk reconciled mid =>
  obtain ⟨honly, hrow, hfingerprint, hstate⟩ := reconcileActivePlan_spec hreconciled
  have hkeeps := fun hmodes : ModesDistinct platform => reconcileActivePlan_sound hmodes hreconciled
  have hquiet : Examined platform plan now db mid :=
    ⟨⟨mid, mid, honly, Or.inl rfl, .refl _ _⟩, fun hmodes => hkeeps hmodes⟩
  simp only [examinePlan, hreconciled] at h
  split at h
  · rename_i hcrash
    obtain ⟨rfl, rfl⟩ := Prod.mk.inj h
    exact ⟨hquiet, nofun, by simp [hcrash]⟩
  · split at h
    · rename_i hnone
      obtain ⟨rfl, rfl⟩ := Prod.mk.inj h
      refine ⟨hquiet, ?_, fun _ => rfl⟩
      rintro i ⟨⟩
      refine ⟨rfl, reconciled.row, hrow, Or.inl ?_⟩
      rcases hstate with ⟨-, hcurrent⟩ | ⟨-, next, hnext, -⟩ | ⟨herror, -⟩
      · simp [stateIsCurrent, hnone] at hcurrent
      · rw [hnone] at hnext; cases hnext
      · exact herror
    · rename_i slot hslot
      split at h
      · rename_i hahead
        obtain ⟨rfl, rfl⟩ := Prod.mk.inj h
        refine ⟨hquiet, ?_, fun _ => rfl⟩
        rintro i ⟨⟩
        refine ⟨rfl, reconciled.row, hrow, ?_⟩
        rcases hstate with ⟨hsame, hcurrent⟩ | ⟨hclear, next, hnext, -, hcomputed⟩ | ⟨herror, -⟩
        · refine Or.inr (Or.inr ⟨hsame, slot, hslot, hahead, ?_⟩)
          simpa [stateIsCurrent, hslot] using (Bool.and_eq_true_iff.mp hcurrent).2
        · exact Or.inr (Or.inl ⟨hclear, next, hnext, Or.inl hcomputed⟩)
        · exact Or.inl herror
      · rename_i hdue
        have hdue : slot ≤ now := Int.not_lt.mp hdue
        have hholds := holds_of_reconciled hreconciled hslot hdue
        split at h
        · rename_i error hdispatch
          split at h
          · rename_i hcrash
            obtain ⟨rfl, rfl⟩ := Prod.mk.inj h
            exact ⟨hquiet, nofun, by simp [hcrash]⟩
          · obtain ⟨rfl, rfl⟩ := Prod.mk.inj h
            obtain ⟨hfailed, hwritten, herror, -, -⟩ :=
              writeScheduleError_spec platform mid plan now error
            refine ⟨⟨⟨mid, mid, honly, Or.inl rfl, hfailed⟩, fun hmodes =>
              (hkeeps hmodes).trans fun _ row hrow' => ?_⟩, ?_, fun _ => rfl⟩
            · obtain rfl := Option.some.inj (hwritten.symm.trans hrow')
              refine errorState_sound fun existing slot' hexisting _ hslot' => Or.inl ?_
              obtain rfl := Option.some.inj (hrow.symm.trans hexisting)
              exact (Option.some.inj (hslot.symm.trans hslot')) ▸ hdue
            · rintro i ⟨⟩
              exact ⟨rfl, _, hwritten, Or.inl herror⟩
        · rename_i dispatch mid' hdispatch
          have hmid : mid' = mid ∨
              ∃ slot, slot ≤ now ∧ Holds db plan.id slot ∧ Dispatched mid mid' plan slot :=
            (dispatchScheduled_spec hdispatch).imp id fun hd => ⟨slot, hdue, hholds, hd⟩
          have hstate' : stateRow mid' plan.id = stateRow mid plan.id := by
            rcases dispatchScheduled_spec hdispatch with rfl | hd
            · rfl
            · rw [stateRow, hd.scheduleStates]
              rfl
          split at h
          · rename_i hcrash
            obtain ⟨rfl, rfl⟩ := Prod.mk.inj h
            refine ⟨⟨⟨mid, mid', honly, hmid, .refl _ _⟩, fun hmodes =>
              (hkeeps hmodes).trans fun hsound => ?_⟩, nofun, by simp [hcrash]⟩
            rw [hstate']
            exact hsound
          · obtain ⟨rfl, rfl⟩ := Prod.mk.inj h
            obtain ⟨hitem, hsettled, row', hwritten, hrested, hsound⟩ :=
              settleSlot_spec (hstate'.trans hrow) hfingerprint hslot hdue
                (rfl : settleSlot platform mid' plan slot now dispatch = (_, _))
            refine ⟨⟨⟨mid, mid', honly, hmid, hsettled⟩, fun hmodes =>
              (hkeeps hmodes).trans fun hmid row hrow' => ?_⟩, ?_, fun _ => rfl⟩
            · obtain rfl := Option.some.inj (hwritten.symm.trans hrow')
              exact hsound (hmid _ hrow)
            · rintro i ⟨⟩
              exact ⟨hitem, row', hwritten, hrested _⟩

/-! ### The loop of a tick -/

/-- A property of the plans a tick has examined and of the database they left holds wherever the
    loop ends, if every examination carries it on to one plan more. -/
theorem tickLoop_rule {platform : Platform} {now : Timestamp}
    {P : List CollectionPlan → Database → Prop}
    {db : Database} (rows : List (CollectionPlan × (Id × Id) × Option CommitPoint))
    (done : List CollectionPlan) (items : List TickItem) (hdb : P done db)
    (hstep : ∀ (earlier : List CollectionPlan) (row : CollectionPlan × (Id × Id) × Option CommitPoint)
      (current next : Database) (item : Option TickItem), row ∈ rows →
      (earlier ++ [row.1]) <+: (done ++ rows.map (·.1)) → P earlier current →
      examinePlan platform current row.1 now row.2.1 row.2.2 = (item, next) →
      P (earlier ++ [row.1]) next) :
    ∃ examined, examined <+: (done ++ rows.map (·.1)) ∧
      P examined (tickLoop platform now rows items db).2 ∧
      ∀ result, (tickLoop platform now rows items db).1 = .finished result →
        examined = done ++ rows.map (·.1) := by
  induction rows generalizing done items db with
  | nil => exact ⟨done, by simp, hdb, by simp⟩
  | cons row rows ih =>
    obtain ⟨plan, ids, crash⟩ := row
    have hleading : (done ++ [plan]) <+: (done ++ ((plan, ids, crash) :: rows).map (·.1)) := by
      rw [List.prefix_append_right_inj]
      simp
    simp only [tickLoop]
    split
    · exact ⟨done, List.prefix_append _ _, hdb, nofun⟩
    · rename_i parsed hparse
      obtain ⟨-, rfl⟩ := parsePlan_eq_ok.mp hparse
      split
      · rename_i next hexamine
        exact ⟨_, hleading, hstep done _ db next _ List.mem_cons_self hleading hdb hexamine, nofun⟩
      · rename_i item next hexamine
        have hnext := hstep done _ db next _ List.mem_cons_self hleading hdb hexamine
        have hall : done ++ ((plan, ids, crash) :: rows).map (·.1) =
            done ++ [plan] ++ rows.map (·.1) := by simp
        rw [hall] at hstep ⊢
        exact ih (done ++ [plan]) _ hnext fun earlier row current after item hrow =>
          hstep earlier row current after item (List.mem_cons_of_mem _ hrow)

theorem map_tickRows (plans : List CollectionPlan) (ids : Nat → Id × Id)
    (crash : Option (Nat × CommitPoint)) : (tickRows plans ids crash).map (·.1) = plans := by
  refine List.ext_getElem? fun i => ?_
  simp [tickRows, Function.comp_def]

theorem point_of_mem_tickRows {plans : List CollectionPlan} {ids : Nat → Id × Id}
    {row : CollectionPlan × (Id × Id) × Option CommitPoint} (h : row ∈ tickRows plans ids none) :
    row.2.2 = none := by
  obtain ⟨i, hi, rfl⟩ := List.mem_mapIdx.mp h
  rfl

theorem tick_rule {platform : Platform} {input : TickInput} {ids : Nat → Id × Id}
    {crash : Option (Nat × CommitPoint)} {P : List CollectionPlan → Database → Prop} {db : Database}
    (hdb : P [] db)
    (hstep : ∀ (earlier : List CollectionPlan) (plan : CollectionPlan) (ids : Id × Id)
      (point : Option CommitPoint) (current next : Database) (item : Option TickItem),
      (earlier ++ [plan]) <+: tickOrder db input.observedAt → (crash = none → point = none) →
      P earlier current → examinePlan platform current plan input.observedAt ids point = (item, next) →
      P (earlier ++ [plan]) next) :
    ∃ examined, examined <+: tickOrder db input.observedAt ∧
      P examined (tick platform input ids crash db).2 ∧
      ∀ items, (tick platform input ids crash db).1 = .finished items →
        ∃ limit, normalizedTickLimit input.limit = .ok limit ∧
          examined = (tickOrder db input.observedAt).take limit := by
  unfold tick
  split
  · exact ⟨[], List.nil_prefix, hdb, nofun⟩
  · rename_i limit hlimit
    have hleading := List.take_prefix limit (tickOrder db input.observedAt)
    obtain ⟨examined, hexamined, hP, hall⟩ := tickLoop_rule (P := P)
      (tickRows ((tickOrder db input.observedAt).take limit) ids crash) [] [] hdb
      fun earlier row current next item hrow hearlier hcurrent hexamine => by
        rw [List.nil_append, map_tickRows] at hearlier
        refine hstep earlier _ _ _ current next item (hearlier.trans hleading) ?_ hcurrent hexamine
        rintro rfl
        exact point_of_mem_tickRows hrow
    rw [List.nil_append, map_tickRows] at hexamined hall
    exact ⟨examined, hexamined.trans hleading, hP, fun items h => ⟨limit, hlimit, hall items h⟩⟩

/-- What every examination keeps, a tick keeps, however it ends. -/
theorem tick_preserves {platform : Platform} {input : TickInput} {ids : Nat → Id × Id}
    {crash : Option (Nat × CommitPoint)} {P : Database → Prop} {db : Database} (hdb : P db)
    (hstep : ∀ plan ∈ tickOrder db input.observedAt, ∀ current next, P current →
      Examined platform plan input.observedAt current next → P next) :
    P (tick platform input ids crash db).2 := by
  obtain ⟨_, -, hP, -⟩ := tick_rule (P := fun _ => P) hdb
    fun earlier plan _ _ current next _ hleading _ hcurrent hexamine =>
      hstep plan (hleading.subset (by simp)) current next hcurrent (examinePlan_spec hexamine).1
  exact hP

end MarkorbitKnowledge.Scheduler
