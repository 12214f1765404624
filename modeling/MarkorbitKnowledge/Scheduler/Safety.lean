import MarkorbitKnowledge.Execution.Machine

/-!
# A slot of a plan is dispatched once

The slot of a scheduled run is written twice: in its extensions, and in the idempotency key under
which the ledger keeps one run for a workspace.  `Slotted` says that the two agree and that the run
lies in the workspace of its plan; every call keeps it, because the ledger never changes the identity
of a run and the registry never moves a plan.  `Ticked` follows a tick through its plans: what it has
inserted so far, and that the states of the plans still to come are those it started from.

`scheduled_slots_safe` is the result for every run of the machine.
-/

namespace MarkorbitKnowledge.Scheduler

open Contracts Execution Fallible Transitions
open Tables (KeysUnique)
open Execution.Protocol (Coherent)

/-! ### Slots, keys and plans of runs -/

structure Slotted (plans : List CollectionPlan) (runs : List RunIdentity) : Prop where
  planKeys : KeysUnique plans
  slot : ∀ run ∈ runs, run.triggerType = .scheduled → ∃ slot,
    run.idempotencyKey = some (scheduledSlotIdempotencyKey run.planId slot) ∧
      run.extensions = some (executionExtensions slot)
  plan : ∀ run ∈ runs, run.triggerType = .scheduled →
    ∃ plan ∈ plans, plan.id = run.planId ∧ plan.workspaceId = run.workspaceId
  keys : ∀ run ∈ runs, ∀ other ∈ runs, run.workspaceId = other.workspaceId →
    run.idempotencyKey.isSome = true → run.idempotencyKey = other.idempotencyKey → run = other

theorem slotted_empty : Slotted [] [] := ⟨.nil, nofun, nofun, nofun⟩

theorem executionExtensions_text {slot slot' : Timestamp}
    (h : executionExtensions slot = executionExtensions slot') :
    toISOString slot = toISOString slot' := by
  simpa [executionExtensions, String.append_assoc, String.append_right_inj,
    String.append_left_inj] using h

namespace Slotted

variable {plans : List CollectionPlan} {runs : List RunIdentity}

/-- Two scheduled runs of a plan with the same slot are one run. -/
theorem unique (h : Slotted plans runs) {run other : RunIdentity} (hrun : run ∈ runs)
    (hother : other ∈ runs) (hscheduled : run.triggerType = .scheduled)
    (hscheduled' : other.triggerType = .scheduled) (hplan : run.planId = other.planId)
    (hslot : run.extensions = other.extensions) : run = other := by
  obtain ⟨slot, hkey, hext⟩ := h.slot run hrun hscheduled
  obtain ⟨slot', hkey', hext'⟩ := h.slot other hother hscheduled'
  obtain ⟨plan, hmem, hid, hworkspace⟩ := h.plan run hrun hscheduled
  obtain ⟨plan', hmem', hid', hworkspace'⟩ := h.plan other hother hscheduled'
  have hsame : plan = plan' := h.planKeys.eq_of_key hmem hmem' (hid.trans (hplan.trans hid'.symm))
  have htext : toISOString slot = toISOString slot' := by
    rw [hext, hext', Option.some.injEq] at hslot
    exact executionExtensions_text hslot
  refine h.keys run hrun other hother ?_ (by rw [hkey]; rfl) ?_
  · rw [← hworkspace, ← hworkspace', hsame]
  · rw [hkey, hkey', scheduledSlotIdempotencyKey, scheduledSlotIdempotencyKey, hplan, htext]

theorem append (h : Slotted plans runs) {run : RunIdentity}
    (hslot : run.triggerType = .scheduled → ∃ slot,
      run.idempotencyKey = some (scheduledSlotIdempotencyKey run.planId slot) ∧
        run.extensions = some (executionExtensions slot))
    (hplan : run.triggerType = .scheduled →
      ∃ plan ∈ plans, plan.id = run.planId ∧ plan.workspaceId = run.workspaceId)
    (hfree : ∀ other ∈ runs, run.idempotencyKey.isSome = true →
      other.workspaceId = run.workspaceId → other.idempotencyKey ≠ run.idempotencyKey) :
    Slotted plans (runs ++ [run]) where
  planKeys := h.planKeys
  slot other hother := by
    rcases List.mem_append.mp hother with hother | hother
    · exact h.slot other hother
    · obtain rfl := List.mem_singleton.mp hother
      exact hslot
  plan other hother := by
    rcases List.mem_append.mp hother with hother | hother
    · exact h.plan other hother
    · obtain rfl := List.mem_singleton.mp hother
      exact hplan
  keys left hleft right hright hworkspace hsome hkey := by
    simp only [List.mem_append, List.mem_singleton] at hleft hright
    rcases hleft with hleft | rfl <;> rcases hright with hright | rfl
    · exact h.keys left hleft right hright hworkspace hsome hkey
    · exact absurd hkey (hfree left hleft (hkey ▸ hsome) hworkspace)
    · exact absurd hkey.symm (hfree right hright hsome hworkspace.symm)
    · rfl

/-- The registry may add plans and edit them, in their workspace. -/
theorem of_plans (h : Slotted plans runs) {plans' : List CollectionPlan} (hkeys : KeysUnique plans')
    (hkept : ∀ plan ∈ plans, ∃ plan' ∈ plans', plan'.id = plan.id ∧
      plan'.workspaceId = plan.workspaceId) : Slotted plans' runs where
  planKeys := hkeys
  slot := h.slot
  plan run hrun hscheduled := by
    obtain ⟨plan, hplan, hid, hworkspace⟩ := h.plan run hrun hscheduled
    obtain ⟨plan', hplan', hid', hworkspace'⟩ := hkept plan hplan
    exact ⟨plan', hplan', hid'.trans hid, hworkspace'.trans hworkspace⟩
  keys := h.keys

end Slotted

/-! ### One dispatch -/

/-- A dispatch inserts its run, under an id and a key no other run has. -/
theorem insertDispatch_run {db db' : Database} {run : CollectionRun} {job : Job}
    (h : insertDispatch db run job = .ok db') :
    db'.runs = db.runs ++ [run] ∧ db'.plans = db.plans ∧
      db'.scheduleStates = db.scheduleStates ∧ (∀ stored ∈ db.runs, stored.id ≠ run.id) ∧
      ∀ stored ∈ db.runs, run.trigger.idempotencyKey.isSome = true →
        stored.workspaceId = run.workspaceId →
        stored.trigger.idempotencyKey ≠ run.trigger.idempotencyKey := by
  simp only [insertDispatch, insertRun, insertJob, bind_eq_ok, require_eq_ok, pure_eq_ok] at h
  obtain ⟨_, ⟨_, hid, _, hkey, rfl⟩, _, -, _, -, rfl⟩ := h
  exact ⟨rfl, rfl, rfl, hid, hkey⟩

theorem Slotted.insertDispatch {db db' : Database} {run : CollectionRun} {job : Job}
    (h : Slotted db.plans (db.runs.map runIdentity))
    (hinsert : insertDispatch db run job = .ok db')
    (hslot : run.trigger.type = .scheduled → ∃ slot,
      run.trigger.idempotencyKey = some (scheduledSlotIdempotencyKey run.planId slot) ∧
        run.extensions = some (executionExtensions slot))
    (hplan : run.trigger.type = .scheduled →
      ∃ plan ∈ db.plans, plan.id = run.planId ∧ plan.workspaceId = run.workspaceId) :
    Slotted db'.plans (db'.runs.map runIdentity) := by
  obtain ⟨hruns, hplans, -, -, hkey⟩ := insertDispatch_run hinsert
  rw [hruns, hplans, List.map_append, List.map_singleton]
  exact h.append hslot hplan (List.forall_mem_map.mpr hkey)

/-! ### One tick -/

/-- A run a tick at `now` creates from `db`: for an active plan without a run in flight, and the
    slot the state of the plan holds, which is due. -/
structure SlotRun (db : Database) (now : Timestamp) (run : CollectionRun) : Prop where
  scheduled : run.trigger.type = .scheduled
  pending : run.status = .pending
  plan : ∃ plan ∈ db.plans, plan.id = run.planId ∧ plan.status = .active
  slot : ∃ slot, slot ≤ now ∧ Holds db run.planId slot ∧
    run.extensions = some (executionExtensions slot)
  idle : ∀ other ∈ db.runs, other.planId = run.planId →
    other.status ≠ .pending ∧ other.status ≠ .running

/-- A tick at `now` that started from `db` and has examined `examined`. -/
structure Ticked (db : Database) (now : Timestamp) (examined : List CollectionPlan)
    (current : Database) : Prop where
  plans : current.plans = db.plans
  states : ∀ id, id ∉ examined.map (·.id) → stateRow current id = stateRow db id
  runs : ∃ fresh, current.runs = db.runs ++ fresh ∧ (fresh.map (·.planId)).Nodup ∧
    ∀ run ∈ fresh, run.planId ∈ examined.map (·.id) ∧ SlotRun db now run
  slotted : Slotted current.plans (current.runs.map runIdentity)

theorem Ticked.onlyState {db current next : Database} {now : Timestamp}
    {examined : List CollectionPlan} {plan : CollectionPlan} (h : Ticked db now examined current)
    (honly : OnlyState plan.id current next) (hplan : plan ∈ examined) :
    Ticked db now examined next where
  plans := honly.plans.trans h.plans
  states id hid := by
    have hne : id ≠ plan.id := fun heq => hid (heq ▸ List.mem_map_of_mem hplan)
    exact (honly.others id hne).trans (h.states id hid)
  runs := by rw [honly.runs]; exact h.runs
  slotted := by rw [honly.plans, honly.runs]; exact h.slotted

theorem Ticked.more {db current : Database} {now : Timestamp} {examined : List CollectionPlan}
    (h : Ticked db now examined current) (plan : CollectionPlan) :
    Ticked db now (examined ++ [plan]) current where
  plans := h.plans
  states id hid := h.states id fun hmem => hid (by simp_all)
  runs := by
    obtain ⟨fresh, hruns, hnodup, hfresh⟩ := h.runs
    exact ⟨fresh, hruns, hnodup, fun run hrun => ⟨by simp [(hfresh run hrun).1], (hfresh run hrun).2⟩⟩
  slotted := h.slotted

theorem Ticked.dispatched {db current next : Database} {now slot : Timestamp}
    {examined : List CollectionPlan} {plan : CollectionPlan} (h : Ticked db now examined current)
    (hplan : plan ∈ db.plans) (hmem : plan ∈ examined) (hdue : slot ≤ now)
    (hholds : Holds db plan.id slot) (hdispatched : Dispatched current next plan slot) :
    Ticked db now examined next := by
  obtain ⟨source, connector, jobType, runId, jobId, timestamp, -, hinsert⟩ := hdispatched.inserted
  obtain ⟨hruns, hplans, hstates, -, -⟩ := insertDispatch_run hinsert
  obtain ⟨fresh, hfresh, hnodup, hslots⟩ := h.runs
  -- A run the tick created is still pending, so the dispatch would have coalesced with it.
  have hnone : plan.id ∉ fresh.map (·.planId) := by
    intro hmem
    obtain ⟨run, hrun, hid⟩ := List.mem_map.mp hmem
    have hstored : run ∈ current.runs := hfresh ▸ List.mem_append_right _ hrun
    exact (hdispatched.idle run hstored hid).1 (hslots run hrun).2.pending
  refine ⟨hplans.trans h.plans, fun id hid => ?_, ?_, ?_⟩
  · rw [stateRow, hstates]
    exact h.states id hid
  · rw [hruns, hfresh, List.append_assoc]
    refine ⟨_, rfl, ?_, fun run hrun => ?_⟩
    · rw [List.map_append, List.map_singleton, List.nodup_append]
      refine ⟨hnodup, List.nodup_singleton _, fun a ha b hb heq => hnone ?_⟩
      obtain rfl : b = plan.id := List.mem_singleton.mp hb
      exact heq ▸ ha
    · rcases List.mem_append.mp hrun with hrun | hrun
      · exact hslots run hrun
      · rw [List.mem_singleton.mp hrun]
        refine ⟨List.mem_map_of_mem hmem, rfl, rfl, ⟨plan, hplan, rfl, hdispatched.active⟩,
          ⟨slot, hdue, hholds, rfl⟩, fun other hother hid => hdispatched.idle other ?_ hid⟩
        rw [hfresh]
        exact List.mem_append_left _ hother
  · exact h.slotted.insertDispatch hinsert (fun _ => ⟨slot, rfl, rfl⟩)
      fun _ => ⟨plan, h.plans ▸ hplan, rfl, rfl⟩

theorem Ticked.examined {platform : Platform} {db current next : Database} {now : Timestamp}
    {examined : List CollectionPlan} {plan : CollectionPlan} (h : Ticked db now examined current)
    (hplan : plan ∈ db.plans) (hnew : plan.id ∉ examined.map (·.id))
    (hexamined : Examined platform plan now current next) :
    Ticked db now (examined ++ [plan]) next := by
  have hmem : plan ∈ examined ++ [plan] := by simp
  obtain ⟨mid, mid', hbefore, hmid, hafter⟩ := hexamined.commits
  have hmore := (h.more plan).onlyState hbefore hmem
  refine Ticked.onlyState ?_ hafter hmem
  rcases hmid with rfl | ⟨slot, hdue, hholds, hdispatched⟩
  · exact hmore
  · refine hmore.dispatched hplan hmem hdue ?_ hdispatched
    rw [Holds, ← h.states plan.id hnew]
    exact hholds

theorem mem_tickOrder {db : Database} {now : Timestamp} {plan : CollectionPlan} :
    plan ∈ tickOrder db now ↔
      plan ∈ db.plans ∧ plan.status = .active ∧ plan.schedule.mode ≠ .manual := by
  simp [tickOrder, List.mem_insertionSort]

/-- A tick examines no plan twice. -/
theorem tickOrder_nodup {db : Database} (h : KeysUnique db.plans) (now : Timestamp) :
    ((tickOrder db now).map (·.id)).Nodup :=
  ((List.perm_insertionSort _ _).map _).nodup_iff.mpr (h.filter _)

theorem not_mem_of_prefix_tickOrder {db : Database} {now : Timestamp} {earlier : List CollectionPlan}
    {plan : CollectionPlan} (h : KeysUnique db.plans)
    (hleading : (earlier ++ [plan]) <+: tickOrder db now) : plan.id ∉ earlier.map (·.id) := by
  have hnodup := (hleading.map (·.id)).sublist.nodup (tickOrder_nodup h now)
  rw [List.map_append, List.map_singleton, List.nodup_append] at hnodup
  exact fun hmem => hnodup.2.2 _ hmem _ (List.mem_singleton_self _) rfl

theorem ticked_tick (platform : Platform) {db : Database}
    (h : Slotted db.plans (db.runs.map runIdentity)) (input : TickInput) (ids : Nat → Id × Id)
    (crash : Option (Nat × CommitPoint)) :
    ∃ examined, Ticked db input.observedAt examined (tick platform input ids crash db).2 := by
  have hstart : Ticked db input.observedAt [] db :=
    ⟨rfl, fun _ _ => rfl, ⟨[], by simp⟩, h⟩
  obtain ⟨examined, -, hticked, -⟩ := tick_rule hstart
    fun earlier plan _ _ current next _ hleading _ hcurrent hexamine => by
      have hplan : plan ∈ db.plans := (mem_tickOrder.mp (hleading.subset (by simp))).1
      exact hcurrent.examined hplan (not_mem_of_prefix_tickOrder h.planKeys hleading)
        (examinePlan_spec hexamine).1
  exact ⟨examined, hticked⟩

/-! ### Every call -/

theorem slotted_savePlan (plan : CollectionPlan) {db : Database}
    (h : Slotted db.plans (db.runs.map runIdentity)) :
    Slotted (commit (savePlan plan) db).2.plans
        ((commit (savePlan plan) db).2.runs.map runIdentity) ∧
      (commit (savePlan plan) db).2.runs = db.runs := by
  refine commit_rel (R := fun db db' : Database =>
    Slotted db.plans (db.runs.map runIdentity) →
      Slotted db'.plans (db'.runs.map runIdentity) ∧ db'.runs = db.runs)
    (fun h => ⟨h, rfl⟩) (fun _ db' hsave h => ?_) h
  obtain ⟨-, ⟨hnone, rfl⟩ | ⟨current, hcurrent, hworkspace, hsource, rfl⟩⟩ := savePlan_spec hsave
  · exact ⟨h.of_plans (h.planKeys.append_singleton (Tables.find?_eq_none.mp hnone))
      fun plan hplan => ⟨plan, List.mem_append_left _ hplan, rfl, rfl⟩, rfl⟩
  · refine ⟨h.of_plans (h.planKeys.update plan) fun stored hstored =>
      Tables.exists_mem_update (fun x hx hk hP => ?_) ⟨stored, hstored, rfl, rfl⟩, rfl⟩
    have hid : x.id = current.id := hk.trans (Tables.key_of_find? hcurrent).symm
    have : x = current := h.planKeys.eq_of_key hx (Tables.mem_of_find? hcurrent) hid
    subst this
    exact ⟨hk.symm.trans hP.1, hworkspace.trans hP.2⟩

/-- A dispatch by hand stores at most a manual run. -/
theorem slotted_dispatchManual (input : ManualDispatchInput) (now : Timestamp) (runId jobId : Id)
    {db : Database} (h : Slotted db.plans (db.runs.map runIdentity)) :
    Slotted (commit (dispatchManual input now runId jobId) db).2.plans
        ((commit (dispatchManual input now runId jobId) db).2.runs.map runIdentity) ∧
      ∀ run ∈ (commit (dispatchManual input now runId jobId) db).2.runs,
        run.trigger.type = .scheduled → run ∈ db.runs := by
  refine commit_rel (R := fun db db' : Database =>
    Slotted db.plans (db.runs.map runIdentity) →
      Slotted db'.plans (db'.runs.map runIdentity) ∧
        ∀ run ∈ db'.runs, run.trigger.type = .scheduled → run ∈ db.runs)
    (fun h => ⟨h, fun run hrun _ => hrun⟩) (fun _ db' hdispatch h => ?_) h
  rcases dispatchManual_spec hdispatch with
    rfl | ⟨plan, source, connector, trigger, jobType, hmanual, -, hinsert⟩
  · exact ⟨h, fun run hrun _ => hrun⟩
  · have hnot : (newRun plan source connector trigger input.extensions runId now).trigger.type ≠
        .scheduled := by
      simp [newRun, hmanual]
    refine ⟨h.insertDispatch hinsert (fun heq => absurd heq hnot) fun heq => absurd heq hnot,
      fun run hrun hscheduled => ?_⟩
    rw [(insertDispatch_run hinsert).1, List.mem_append, List.mem_singleton] at hrun
    rcases hrun with hrun | rfl
    · exact hrun
    · exact absurd hscheduled hnot

variable (platform : Platform) (options : WorkerProtocolOptions)

/-- No call unties a slot from its key, and only a tick creates scheduled runs. -/
theorem slotted_step {db : Database} (hc : Coherent (view db))
    (h : Slotted db.plans (db.runs.map runIdentity)) (op : Op) :
    Slotted (step platform options db op).plans
        ((step platform options db op).runs.map runIdentity) ∧
      ∀ run ∈ (step platform options db op).runs, run.trigger.type = .scheduled →
        (∀ stored ∈ db.runs, stored.id ≠ run.id) →
        ∃ input ids crash, op = .tick input ids crash ∧ SlotRun db input.observedAt run := by
  by_cases hop : op.isExecution = true
  · have hframe := (execution_refined platform options hc hop).frame
    refine ⟨by rw [hframe.elsewhere.plans, hframe.runs]; exact h, fun run hrun _ hnew => ?_⟩
    have hmem : runIdentity run ∈ db.runs.map runIdentity :=
      hframe.runs ▸ List.mem_map_of_mem hrun
    obtain ⟨stored, hstored, hsame⟩ := List.mem_map.mp hmem
    exact absurd (congrArg RunIdentity.id hsame) (hnew stored hstored)
  · cases op with
    | savePlan plan =>
      obtain ⟨hslotted, hruns⟩ := slotted_savePlan plan h
      exact ⟨hslotted, fun run hrun _ hnew => absurd rfl (hnew run (hruns ▸ hrun))⟩
    | saveCatalogue => exact ⟨h, fun run hrun _ hnew => absurd rfl (hnew run hrun)⟩
    | dispatchManual input now runId jobId =>
      obtain ⟨hslotted, hstored⟩ := slotted_dispatchManual input now runId jobId h
      exact ⟨hslotted, fun run hrun hscheduled hnew =>
        absurd rfl (hnew run (hstored run hrun hscheduled))⟩
    | tick input ids crash =>
      obtain ⟨examined, hticked⟩ := ticked_tick platform h input ids crash
      refine ⟨hticked.slotted, fun run hrun _ hnew => ⟨input, ids, crash, rfl, ?_⟩⟩
      obtain ⟨fresh, hruns, -, hfresh⟩ := hticked.runs
      rw [step, hruns, List.mem_append] at hrun
      rcases hrun with hrun | hrun
      · exact absurd rfl (hnew run hrun)
      · exact (hfresh run hrun).2
    | getScheduleState planId now =>
      have honly := getState_onlyState platform planId now db
      refine ⟨by rw [step, honly.plans, honly.runs]; exact h, fun run hrun _ hnew => ?_⟩
      rw [step, honly.runs] at hrun
      exact absurd rfl (hnew run hrun)
    | _ => exact absurd rfl hop

theorem slotted_run (ops : List Op) :
    Slotted ((machine platform options).run ops).plans
      (((machine platform options).run ops).runs.map runIdentity) := by
  let m := machine platform options
  have hinit : Coherent (view m.init) ∧ Slotted m.init.plans (m.init.runs.map runIdentity) :=
    ⟨Protocol.coherent_empty, slotted_empty⟩
  exact (Machine.run_invariant (M := m) (P := fun db : Database =>
    Coherent (view db) ∧ Slotted db.plans (db.runs.map runIdentity)) hinit
    (fun db op h => ⟨Protocol.coherent_of_steps h.1 (steps_of_step platform options h.1 op),
      (slotted_step platform options h.1 h.2 op).1⟩) ops).2

variable {platform options}

/-- A scheduled run carries its slot, and no other scheduled run of its plan has the same one.  A
    scheduled run is created by a tick only, for an active plan whose persisted state holds the slot
    of the run, no later than the tick, and which has no run in flight; and a tick creates at most
    one run for a plan. -/
theorem scheduled_slots_safe (ops : List Op) (op : Op) :
    let db := (machine platform options).run ops
    let db' := step platform options db op
    (∀ run ∈ db.runs, run.trigger.type = .scheduled →
      ∃ slot, run.extensions = some (executionExtensions slot)) ∧
    (∀ run ∈ db.runs, ∀ other ∈ db.runs,
      run.trigger.type = .scheduled → other.trigger.type = .scheduled →
      run.planId = other.planId → run.extensions = other.extensions → run = other) ∧
    (∀ run ∈ db'.runs, run.trigger.type = .scheduled → (∀ stored ∈ db.runs, stored.id ≠ run.id) →
      ∃ input ids crash, op = .tick input ids crash ∧
        (∃ plan ∈ db.plans, plan.id = run.planId ∧ plan.status = .active) ∧
        (∃ slot state, stateRow db run.planId = some state ∧ state.nextDueAt = some slot ∧
          slot ≤ input.observedAt ∧ run.extensions = some (executionExtensions slot)) ∧
        ∀ other ∈ db.runs, other.planId = run.planId →
          other.status ≠ .pending ∧ other.status ≠ .running) ∧
    ∀ input ids crash, op = .tick input ids crash →
      ∃ fresh, db'.runs = db.runs ++ fresh ∧ (fresh.map (·.planId)).Nodup := by
  intro db db'
  have hc : Coherent (view db) := coherent_run platform options ops
  have h : Slotted db.plans (db.runs.map runIdentity) := slotted_run platform options ops
  refine ⟨fun run hrun hscheduled => ?_, fun run hrun other hother hscheduled hscheduled' hplan hext => ?_,
    fun run hrun hscheduled hnew => ?_, ?_⟩
  · obtain ⟨slot, -, hslot⟩ := h.slot _ (List.mem_map_of_mem hrun) hscheduled
    exact ⟨slot, hslot⟩
  · have hsame := h.unique (List.mem_map_of_mem hrun) (List.mem_map_of_mem hother) hscheduled
      hscheduled' hplan hext
    exact (runKeys_of_coherent hc).eq_of_key hrun hother (congrArg RunIdentity.id hsame)
  · obtain ⟨input, ids, crash, hop, hrun⟩ := (slotted_step platform options hc h op).2 run hrun hscheduled hnew
    obtain ⟨slot, hdue, ⟨state, hstate, hnext⟩, hslot⟩ := hrun.slot
    exact ⟨input, ids, crash, hop, hrun.plan, ⟨slot, state, hstate, hnext, hdue, hslot⟩, hrun.idle⟩
  · rintro input ids crash rfl
    obtain ⟨examined, hticked⟩ := ticked_tick platform h input ids crash
    obtain ⟨fresh, hruns, hnodup, -⟩ := hticked.runs
    exact ⟨fresh, hruns, hnodup⟩

end MarkorbitKnowledge.Scheduler
