import Mathlib.Algebra.Order.Floor.Div
import MarkorbitKnowledge.Lib.Rounds
import MarkorbitKnowledge.Scheduler.Safety

/-!
# Which plans a tick reaches

A tick with a limit examines the first plans in the order of `tickKey`, so a plan is reached only if
those before it move behind.  After an examination at `now` a plan sorts no earlier than the text of
`now` (`restKey_le_tickKey`), and a plan that is not examined keeps its place or sorts later still
(`tickKey_later`).  So a plan that the ones before it could not overtake by failing at `now` is
overtaken by none, and each tick that passes it over takes `limit` plans off those before it:
`tick_fair`.

A plan whose schedule was edited sorts by the slot of the schedule before, which may lie far ahead,
until it is examined; `edited_plan_passed_over` is a run in which it is not.
-/

namespace MarkorbitKnowledge.Scheduler

open Contracts Execution Fallible Transitions
open Tables (KeysUnique)
open Execution.Protocol (Coherent)

/-! ### Sort keys -/

/-- The plans a tick chooses from. -/
def activePlans (db : Database) : List CollectionPlan :=
  db.plans.filter fun plan => decide (plan.status = .active) && decide (plan.schedule.mode ≠ .manual)

/-- Where a plan sorts that failed at `now`. -/
def restKey (now : Timestamp) (planId : Id) : Nat ×ₗ (Nat ×ₗ Int ×ₗ Timestamp) ×ₗ Id :=
  toLex (1, toLex (isoOrder now, planId))

theorem tickKey_id {db : Database} {now : Timestamp} {plan other : CollectionPlan}
    (h : tickKey db now plan = tickKey db now other) : plan.id = other.id := by
  have hid : ∀ plan : CollectionPlan,
      (ofLex (ofLex (tickKey db now plan)).2).2 = plan.id := by
    intro plan
    unfold tickKey
    split <;> rfl
  rw [← hid plan, ← hid other, h]

/-- A slot that a state sorts by although it failed lies ahead. -/
theorem erroredAt_false {now error : Timestamp} {state : PersistedScheduleState}
    (h : erroredAt now state = false) (herror : state.lastErrorAt = some error) :
    ∃ slot, state.nextDueAt = some slot ∧ isoOrder now < isoOrder slot := by
  cases hslot : state.nextDueAt with
  | none => simp [erroredAt, herror, hslot] at h
  | some slot => exact ⟨slot, rfl, by simpa [erroredAt, herror, hslot] using h⟩

theorem restKey_lt_restKey {now later : Timestamp} (h : isoOrder now < isoOrder later) (id id' : Id) :
    restKey now id < restKey later id' := by
  simp [restKey, Prod.Lex.toLex_lt_toLex, h]

theorem restKey_le_restKey {now later : Timestamp} (h : isoOrder now ≤ isoOrder later) (id : Id) :
    restKey now id ≤ restKey later id := by
  rcases h.lt_or_eq with h | h
  · exact (restKey_lt_restKey h id id).le
  · rw [restKey, h]
    rfl

/-- A failed plan sorts by its error. -/
theorem tickKey_errored {db : Database} {now error : Timestamp} {plan : CollectionPlan}
    {state : PersistedScheduleState} (hstate : stateRow db plan.id = some state)
    (herrored : erroredAt now state = true) (herror : state.lastErrorAt = some error) :
    tickKey db now plan = restKey error plan.id := by
  rw [tickKey, hstate]
  simp only [herrored, herror, if_true]
  rfl

/-- Any other plan sorts by its slot. -/
theorem tickKey_slot {db : Database} {now slot : Timestamp} {plan : CollectionPlan}
    {state : PersistedScheduleState} (hstate : stateRow db plan.id = some state)
    (hnot : erroredAt now state = false) (hslot : state.nextDueAt = some slot) :
    tickKey db now plan = restKey slot plan.id := by
  rw [tickKey, hstate]
  simp only [hnot, hslot, Bool.false_eq_true, if_false]
  rfl

/-- A plan that was examined at `now` sorts no earlier than its error there would, from then on. -/
theorem restKey_le_tickKey {platform : Platform} {db db' : Database} {now later : Timestamp}
    {plan : CollectionPlan} {row : PersistedScheduleState} (hnow : isRfc3339 now = true)
    (hlater : isoOrder now ≤ isoOrder later)
    (hslots : ∀ next, ComputedAt platform plan.schedule now next → isRfc3339 next = true)
    (hbefore : tickKey db now plan < restKey now plan.id)
    (hrow : stateRow db' plan.id = some row)
    (hrested : Rested platform plan now (stateRow db plan.id) row) :
    restKey now plan.id ≤ tickKey db' later plan := by
  rcases hrested with herror | ⟨hclear, next, hnext, hcomputed⟩ | ⟨hsame, next, hnext, hlt, hread⟩
  · cases herrored : erroredAt later row with
    | true => rw [tickKey_errored hrow herrored herror]
    | false =>
      obtain ⟨slot, hslot, hahead⟩ := erroredAt_false herrored herror
      rw [tickKey_slot hrow herrored hslot]
      exact (restKey_lt_restKey (hlater.trans_lt hahead) _ _).le
  · have hnot : erroredAt later row = false := by simp [erroredAt, hclear]
    rw [tickKey_slot hrow hnot hnext]
    have hlt := (hcomputed.bounds hnow).1
    exact (restKey_lt_restKey ((isoOrder_lt_iff hnow (hslots next hcomputed)).mpr hlt) _ _).le
  · -- A plan found with a slot ahead of `now` would not have come before its error at `now`.
    have hahead : isoOrder now < isoOrder next := (isoOrder_lt_iff hnow hread).mpr hlt
    have hnot : erroredAt now row = false := by simp [erroredAt, hnext, hahead]
    rw [tickKey_slot hsame hnot hnext] at hbefore
    exact absurd hbefore (restKey_lt_restKey hahead _ _).not_gt

/-- The state of a plan that is not examined stays, and its key stays or lies behind the text of `now`
    both before and after. -/
theorem tickKey_later {platform : Platform} {db db' : Database} {now later : Timestamp}
    {plan : CollectionPlan} (hnow : isRfc3339 now = true) (hlater : isoOrder now ≤ isoOrder later)
    (hstate : stateRow db' plan.id = stateRow db plan.id)
    (hsound : ∀ row, stateRow db plan.id = some row → StateSound platform row)
    (herrors : ∀ row error, stateRow db plan.id = some row → row.lastErrorAt = some error →
      isRfc3339 error = true) :
    tickKey db' later plan = tickKey db now plan ∨
      ∀ id, restKey now id < tickKey db now plan ∧ restKey now id < tickKey db' later plan := by
  cases hrow : stateRow db plan.id with
  | none =>
    refine Or.inl ?_
    rw [tickKey, tickKey, hstate, hrow]
  | some row =>
    cases hbefore : erroredAt now row with
    | true =>
      have hafter : erroredAt later row = true := by
        simp only [erroredAt, Bool.and_eq_true] at hbefore ⊢
        refine ⟨hbefore.1, ?_⟩
        cases hslot : row.nextDueAt with
        | none => rfl
        | some slot =>
          have hdue : isoOrder slot ≤ isoOrder now := by simpa [hslot] using hbefore.2
          simpa using hdue.trans hlater
      refine Or.inl ?_
      rw [tickKey, tickKey, hstate, hrow]
      simp only [hbefore, hafter]
    | false =>
      cases hafter : erroredAt later row with
      | false =>
        refine Or.inl ?_
        rw [tickKey, tickKey, hstate, hrow]
        simp only [hbefore, hafter]
      | true =>
        -- The slot came due in between; the error lies after it.
        obtain ⟨error, herror⟩ := Option.isSome_iff_exists.mp (Bool.and_eq_true_iff.mp hafter).1
        obtain ⟨slot, hslot, hahead⟩ := erroredAt_false hbefore herror
        have hread := isRfc3339_of_isoOrder_lt hnow hahead
        have hfollows : slot ≤ error :=
          ((hsound row hrow).errorFollows slot error hslot herror).resolve_right (by simp [hread])
        have herrorAhead : isoOrder now < isoOrder error :=
          hahead.trans_le ((isoOrder_le_iff hread (herrors row error hrow herror)).mpr hfollows)
        refine Or.inr fun id => ⟨?_, ?_⟩
        · rw [tickKey_slot hrow hbefore hslot]
          exact restKey_lt_restKey hahead _ _
        · rw [tickKey_errored (hstate.trans hrow) hafter herror]
          exact restKey_lt_restKey herrorAhead _ _

/-! ### One tick -/

/-- An examination changes the state of its plan at most. -/
theorem Examined.others {platform : Platform} {plan : CollectionPlan} {now : Timestamp}
    {db db' : Database} (h : Examined platform plan now db db') :
    db'.plans = db.plans ∧ ∀ id, id ≠ plan.id → stateRow db' id = stateRow db id := by
  obtain ⟨mid, mid', hbefore, hmid, hafter⟩ := h.commits
  have hsame : mid'.plans = mid.plans ∧ mid'.scheduleStates = mid.scheduleStates := by
    rcases hmid with rfl | ⟨slot, -, -, hdispatched⟩
    · exact ⟨rfl, rfl⟩
    · obtain ⟨source, connector, jobType, runId, jobId, timestamp, -, hinsert⟩ := hdispatched.inserted
      obtain ⟨-, hplans, hstates, -⟩ := insertDispatch_run hinsert
      exact ⟨hplans, hstates⟩
  refine ⟨hafter.plans.trans (hsame.1.trans hbefore.plans), fun id hne => ?_⟩
  rw [hafter.others id hne, ← hbefore.others id hne, stateRow, stateRow, hsame.2]

/-- A tick at `now` that started from `db` and has examined `examined` to the end. -/
structure Served (platform : Platform) (db : Database) (now : Timestamp)
    (examined : List CollectionPlan) (current : Database) : Prop where
  plans : current.plans = db.plans
  states : ∀ id, id ∉ examined.map (·.id) → stateRow current id = stateRow db id
  rested : ∀ plan ∈ examined, ∃ row, stateRow current plan.id = some row ∧
    Rested platform plan now (stateRow db plan.id) row

theorem Served.examine {platform : Platform} {db current next : Database} {now : Timestamp}
    {examined : List CollectionPlan} {plan : CollectionPlan} {ids : Id × Id} {item : Option TickItem}
    (h : Served platform db now examined current) (hnew : plan.id ∉ examined.map (·.id))
    (hexamine : examinePlan platform current plan now ids none = (item, next)) :
    Served platform db now (examined ++ [plan]) next := by
  obtain ⟨hexamined, hrow, hitem⟩ := examinePlan_spec hexamine
  obtain ⟨hplans, hothers⟩ := hexamined.others
  obtain ⟨item, rfl⟩ := Option.isSome_iff_exists.mp (hitem rfl)
  obtain ⟨-, row, hwritten, hrested⟩ := hrow item rfl
  refine ⟨hplans.trans h.plans, fun id hid => ?_, fun other hother => ?_⟩
  · simp only [List.map_append, List.map_cons, List.map_nil, List.mem_append, List.mem_singleton,
      not_or] at hid
    exact (hothers id hid.2).trans (h.states id hid.1)
  · rcases List.mem_append.mp hother with hother | hother
    · have hne : other.id ≠ plan.id := fun heq => hnew (heq ▸ List.mem_map_of_mem hother)
      rw [hothers other.id hne]
      exact h.rested other hother
    · rw [List.mem_singleton.mp hother]
      exact ⟨row, hwritten, h.states plan.id hnew ▸ hrested⟩

/-- The loop runs to its end over plans it can parse. -/
theorem tickLoop_finished (platform : Platform) (now : Timestamp)
    {rows : List (CollectionPlan × (Id × Id) × Option CommitPoint)}
    (hrows : ∀ row ∈ rows, isCollectionPlan row.1 = true ∧ row.2.2 = none) (items : List TickItem)
    (db : Database) :
    ∃ result, (tickLoop platform now rows items db).1 = .finished (items ++ result) ∧
      result.map (·.planId) = (rows.map (·.1)).map (·.id) := by
  induction rows generalizing items db with
  | nil => exact ⟨[], by simp [tickLoop], rfl⟩
  | cons row rows ih =>
    obtain ⟨plan, ids, crash⟩ := row
    obtain ⟨hvalid, rfl⟩ := hrows _ List.mem_cons_self
    have hparse : parsePlan plan = .ok plan := parsePlan_eq_ok.mpr ⟨hvalid, rfl⟩
    cases hexamine : examinePlan platform db plan now ids none with
    | mk item next =>
    obtain ⟨-, hrow, hitem⟩ := examinePlan_spec hexamine
    obtain ⟨item, rfl⟩ := Option.isSome_iff_exists.mp (hitem rfl)
    obtain ⟨result, hend, hids⟩ :=
      ih (fun row hrow => hrows row (List.mem_cons_of_mem _ hrow)) (items ++ [item]) next
    refine ⟨item :: result, ?_, ?_⟩
    · simp only [tickLoop, hparse, hexamine, hend]
      rw [List.append_assoc, List.singleton_append]
    · rw [List.map_cons, List.map_cons, List.map_cons, hids, (hrow item rfl).1]

/-- A tick that does not die examines the first plans of its order. -/
theorem tick_served {platform : Platform} {db : Database} {input : TickInput} {limit : Nat}
    (ids : Nat → Id × Id) (hkeys : KeysUnique db.plans)
    (hvalid : ∀ plan ∈ db.plans, isCollectionPlan plan = true)
    (hlimit : normalizedTickLimit input.limit = .ok limit) :
    ∃ items, (tick platform input ids none db).1 = .finished items ∧
      items.map (·.planId) =
        (Rounds.serve (activePlans db) (tickKey db input.observedAt) limit).map (·.id) ∧
      Served platform db input.observedAt
        (Rounds.serve (activePlans db) (tickKey db input.observedAt) limit)
        (tick platform input ids none db).2 := by
  have hplans : ∀ plan ∈ (tickOrder db input.observedAt).take limit, plan ∈ db.plans :=
    fun plan hplan => (mem_tickOrder.mp (List.mem_of_mem_take hplan)).1
  have hrows : ∀ row ∈ tickRows ((tickOrder db input.observedAt).take limit) ids none,
      isCollectionPlan row.1 = true ∧ row.2.2 = none := by
    intro row hrow
    refine ⟨hvalid _ (hplans _ ?_), point_of_mem_tickRows hrow⟩
    have := List.mem_map_of_mem (f := fun row => row.1) hrow
    rwa [map_tickRows] at this
  obtain ⟨items, hend, hids⟩ :=
    tickLoop_finished platform input.observedAt hrows [] db
  have hfinished : (tick platform input ids none db).1 = .finished items := by
    simp only [tick, hlimit]
    exact hend
  have hitems : items.map (·.planId) =
      (Rounds.serve (activePlans db) (tickKey db input.observedAt) limit).map (·.id) := by
    rw [hids, map_tickRows]
    rfl
  have hstart : Served platform db input.observedAt [] db := ⟨rfl, fun _ _ => rfl, by simp⟩
  obtain ⟨examined, -, hserved, hall⟩ := tick_rule hstart
    fun earlier plan _ _ current next _ hleading hpoint hcurrent hexamine => by
      obtain rfl := hpoint rfl
      exact hcurrent.examine (not_mem_of_prefix_tickOrder hkeys hleading) hexamine
  obtain ⟨limit', hlimit', rfl⟩ := hall items hfinished
  obtain rfl : limit = limit' := Except.ok.inj (hlimit.symm.trans hlimit')
  exact ⟨items, hfinished, hitems, hserved⟩

/-- Each plan that comes first at `now` would sort behind the plan once it failed there. -/
def SortsAhead (db : Database) (now : Timestamp) (plan : CollectionPlan) : Prop :=
  ∀ other ∈ activePlans db, tickKey db now other < tickKey db now plan →
    tickKey db now plan < restKey now other.id

instance (db : Database) (now : Timestamp) (plan : CollectionPlan) :
    Decidable (SortsAhead db now plan) :=
  inferInstanceAs (Decidable (∀ other ∈ activePlans db, _ → _))

theorem mem_activePlans {db : Database} {plan : CollectionPlan} (h : plan ∈ activePlans db) :
    plan ∈ db.plans :=
  List.mem_of_mem_filter h

theorem tickKey_injOn {db : Database} (hkeys : KeysUnique db.plans) (now : Timestamp) :
    Set.InjOn (tickKey db now) {plan | plan ∈ activePlans db} := fun _ hplan _ hother heq =>
  hkeys.eq_of_key (mem_activePlans hplan) (mem_activePlans hother) (tickKey_id heq)

theorem activePlans_nodup {db : Database} (hkeys : KeysUnique db.plans) : (activePlans db).Nodup :=
  (List.Nodup.of_map _ hkeys).filter _

theorem sortsAhead_of_missing {db : Database} {plan : CollectionPlan}
    (h : stateRow db plan.id = none) (now : Timestamp) : SortsAhead db now plan := by
  intro other _ _
  rw [tickKey, h, restKey]
  simp [Prod.Lex.toLex_lt_toLex]

/-- A plan ahead of the tick keeps its key when the tick passes it over, and none comes before it. -/
theorem passed_over {platform : Platform} {db current : Database} {now later : Timestamp}
    {limit : Nat} {plan : CollectionPlan} (hkeys : KeysUnique db.plans) (hlimit : 0 < limit)
    (hserved : Served platform db now (Rounds.serve (activePlans db) (tickKey db now) limit) current)
    (hnow : isRfc3339 now = true) (hlater : isoOrder now ≤ isoOrder later)
    (hslots : ∀ plan ∈ activePlans db, ∀ next, ComputedAt platform plan.schedule now next →
      isRfc3339 next = true)
    (hsound : ∀ id row, stateRow db id = some row → StateSound platform row)
    (herrors : ∀ plan ∈ activePlans db, ∀ row error, stateRow db plan.id = some row →
      row.lastErrorAt = some error → isRfc3339 error = true)
    (hplan : plan ∈ activePlans db)
    (hpassed : plan ∉ Rounds.serve (activePlans db) (tickKey db now) limit)
    (hahead : SortsAhead db now plan) :
    SortsAhead current later plan ∧
      ∀ other ∈ activePlans db, tickKey current later other < tickKey current later plan →
        other ∉ Rounds.serve (activePlans db) (tickKey db now) limit ∧
          tickKey db now other < tickKey db now plan := by
  have hinj := tickKey_injOn hkeys now
  have hbefore := Rounds.serve_subset_ahead hinj hplan hpassed
  have hrest : ∀ other ∈ Rounds.serve (activePlans db) (tickKey db now) limit,
      tickKey db now other < tickKey db now plan ∧ tickKey db now plan < restKey now other.id := by
    intro other hmem
    have hfirst := (Rounds.mem_ahead.mp (hbefore hmem)).2
    exact ⟨hfirst, hahead other (Rounds.mem_of_mem_serve hmem) hfirst⟩
  have hkept : ∀ other ∈ activePlans db,
      other ∉ Rounds.serve (activePlans db) (tickKey db now) limit →
      tickKey current later other = tickKey db now other ∨
        ∀ id, restKey now id < tickKey db now other ∧ restKey now id < tickKey current later other := by
    intro other hother hnot
    refine tickKey_later hnow hlater (hserved.states other.id fun hmem => hnot ?_) (hsound other.id)
      (herrors other hother)
    obtain ⟨same, hsame, hid⟩ := List.mem_map.mp hmem
    have : same = other := hkeys.eq_of_key (mem_activePlans (Rounds.mem_of_mem_serve hsame))
      (mem_activePlans hother) hid
    exact this ▸ hsame
  -- The tick took at least one plan, so the plan's own key is not behind the text of `now`.
  have hlength := Rounds.length_serve_of_not_mem hplan hpassed
  obtain ⟨first, hfirst⟩ := List.exists_mem_of_length_pos (hlength ▸ hlimit)
  have hbound := (hrest first hfirst).2
  have hkey : tickKey current later plan = tickKey db now plan :=
    (hkept plan hplan hpassed).resolve_right fun hbehind => absurd hbound (hbehind first.id).1.not_gt
  have hnext : ∀ other ∈ activePlans db, tickKey current later other < tickKey current later plan →
      other ∉ Rounds.serve (activePlans db) (tickKey db now) limit ∧
        tickKey db now other < tickKey db now plan := by
    intro other hother hlt
    rw [hkey] at hlt
    have hnot : other ∉ Rounds.serve (activePlans db) (tickKey db now) limit := by
      intro hmem
      obtain ⟨row, hrow, hrested⟩ := hserved.rested other hmem
      obtain ⟨hother', hfailed⟩ := hrest other hmem
      have hbehind := restKey_le_tickKey hnow hlater (hslots other hother) (hother'.trans hfailed)
        hrow hrested
      exact absurd (hlt.trans hfailed) hbehind.not_gt
    refine ⟨hnot, ?_⟩
    rcases hkept other hother hnot with hsame | hbehind
    · rwa [hsame] at hlt
    · exact absurd (hlt.trans hbound) (hbehind first.id).2.not_gt
  refine ⟨fun other hother hlt => ?_, hnext⟩
  rw [activePlans, hserved.plans] at hother
  rw [hkey]
  exact (hahead other hother (hnext other hother hlt).2).trans_le (restKey_le_restKey hlater other.id)

/-! ### Windows of ticks -/

/-- The calls that leave plans and schedule states alone. -/
def leavesSchedules : Op → Bool
  | .savePlan _ | .tick .. | .getScheduleState .. => false
  | _ => true

variable (platform : Platform) (options : WorkerProtocolOptions)

structure SameSchedules (db db' : Database) : Prop where
  plans : db'.plans = db.plans
  scheduleStates : db'.scheduleStates = db.scheduleStates

namespace SameSchedules

variable {db db' : Database}

theorem activePlans_eq (h : SameSchedules db db') : activePlans db' = activePlans db := by
  rw [activePlans, h.plans]
  rfl

theorem stateRow_eq (h : SameSchedules db db') (id : Id) : stateRow db' id = stateRow db id := by
  rw [stateRow, h.scheduleStates]
  rfl

theorem tickKey_eq (h : SameSchedules db db') (now : Timestamp) : tickKey db' now = tickKey db now := by
  funext plan
  rw [tickKey, tickKey, h.stateRow_eq]

end SameSchedules

theorem sameSchedules_step {db : Database} (hc : Coherent (view db)) {op : Op}
    (hop : leavesSchedules op = true) : SameSchedules db (step platform options db op) := by
  by_cases hexecution : op.isExecution = true
  · have hframe := (execution_refined platform options hc hexecution).frame
    exact ⟨hframe.elsewhere.plans, hframe.elsewhere.scheduleStates⟩
  · cases op with
    | savePlan | tick | getScheduleState => cases hop
    | saveCatalogue => exact ⟨rfl, rfl⟩
    | dispatchManual input now runId jobId =>
      refine commit_rel (R := SameSchedules) ⟨rfl, rfl⟩ fun _ db' hdispatch => ?_
      rcases dispatchManual_spec hdispatch with rfl | ⟨_, _, _, _, _, -, -, hinsert⟩
      · exact ⟨rfl, rfl⟩
      · obtain ⟨-, hplans, hstates, -⟩ := insertDispatch_run hinsert
        exact ⟨hplans, hstates⟩
    | _ => exact absurd rfl hexecution

/-- The stored plans are valid, and the states of plans sound. -/
structure SchedulesSound (db : Database) : Prop where
  valid : ∀ plan ∈ db.plans, isCollectionPlan plan = true
  sound : ∀ id row, stateRow db id = some row → StateSound platform row

variable {platform} in
theorem SchedulesSound.only {planId : Id} {db db' : Database} (h : SchedulesSound platform db)
    (hplans : db'.plans = db.plans) (hothers : ∀ id, id ≠ planId → stateRow db' id = stateRow db id)
    (hkeeps : KeepsSound platform planId db db') : SchedulesSound platform db' where
  valid := hplans ▸ h.valid
  sound id row hrow := by
    by_cases hid : id = planId
    · subst hid
      exact hkeeps (h.sound id) row hrow
    · exact h.sound id row (hothers id hid ▸ hrow)

theorem schedulesSound_savePlan {db : Database} (h : SchedulesSound platform db)
    (plan : CollectionPlan) : SchedulesSound platform (commit (savePlan plan) db).2 := by
  refine commit_rel (R := fun db db' : Database =>
    SchedulesSound platform db → SchedulesSound platform db') id (fun _ db' hsave h => ?_) h
  obtain ⟨hplan, ⟨-, rfl⟩ | ⟨_, -, -, -, rfl⟩⟩ := savePlan_spec hsave
  · refine ⟨fun other hother => ?_, h.sound⟩
    rcases List.mem_append.mp hother with hother | hother
    · exact h.valid other hother
    · exact List.mem_singleton.mp hother ▸ hplan
  · refine ⟨fun other hother => ?_, h.sound⟩
    rcases Tables.mem_update.mp hother with ⟨hother, -⟩ | ⟨rfl, -⟩
    · exact h.valid other hother
    · exact hplan

theorem getState_sound (hmodes : ModesDistinct platform) (planId : Id) (now : Timestamp)
    (db : Database) :
    KeepsSound platform planId db (commit (getState platform planId now) db).2 := by
  refine commit_rel (R := fun db db' : Database => KeepsSound platform planId db db') id
    fun _ db' h => ?_
  simp only [getState, loadPlan, bind_eq_ok, orThrow_eq_ok, parsePlan_eq_ok] at h
  obtain ⟨plan, ⟨stored, hstored, -, rfl⟩, h⟩ := h
  obtain rfl : stored.id = planId := Tables.key_of_find? hstored
  split at h <;> simp only [pure_eq_ok, Prod.mk.injEq] at h <;> obtain ⟨-, rfl⟩ := h
  · exact id
  · exact reconcileActivePlan_sound hmodes (Prod.mk.eta (p := _)).symm

theorem schedulesSound_step (hmodes : ModesDistinct platform) {db : Database}
    (hc : Coherent (view db)) (h : SchedulesSound platform db) (op : Op) :
    SchedulesSound platform (step platform options db op) := by
  by_cases hop : leavesSchedules op = true
  · have hsame := sameSchedules_step platform options hc hop
    exact ⟨hsame.plans ▸ h.valid, fun id row hrow => h.sound id row (hsame.stateRow_eq id ▸ hrow)⟩
  · cases op with
    | savePlan plan => exact schedulesSound_savePlan platform h plan
    | tick input ids crash =>
      exact tick_preserves (P := SchedulesSound platform) h fun plan _ current next hcurrent hexamined =>
        hcurrent.only hexamined.others.1 hexamined.others.2 (hexamined.sound hmodes)
    | getScheduleState planId now =>
      have honly := getState_onlyState platform planId now db
      exact h.only honly.plans honly.others (getState_sound platform hmodes planId now db)
    | _ => exact absurd rfl hop

/-- What every run keeps, as far as ticks depend on it. -/
structure Kept (db : Database) : Prop where
  coherent : Coherent (view db)
  slotted : Slotted db.plans (db.runs.map runIdentity)
  schedules : SchedulesSound platform db

theorem kept_step (hmodes : ModesDistinct platform) {db : Database} (h : Kept platform db) (op : Op) :
    Kept platform (step platform options db op) where
  coherent := Protocol.coherent_of_steps h.coherent (steps_of_step platform options h.coherent op)
  slotted := (slotted_step platform options h.coherent h.slotted op).1
  schedules := schedulesSound_step platform options hmodes h.coherent h.schedules op

theorem kept_empty : Kept platform Database.empty :=
  ⟨Protocol.coherent_empty, slotted_empty,
    ⟨fun _ h => absurd h List.not_mem_nil, fun _ _ h => by cases h⟩⟩

/-- A tick of a window, and the calls that come before it. -/
structure Round where
  between : List Op
  input : TickInput
  ids : Nat → Id × Id

/-- The database a round ticks on. -/
def Round.ready (round : Round) (db : Database) : Database :=
  (machine platform options).runFrom db round.between

/-- One of the ticks of the window reports the plan. -/
def ExaminedWithin (planId : Id) : Database → List Round → Prop
  | _, [] => False
  | db, round :: rest =>
    let result := tick platform round.input round.ids none (round.ready platform options db)
    planId ∈ result.1.items.map (·.planId) ∨ ExaminedWithin planId result.2 rest

instance decidableExaminedWithin (planId : Id) (db : Database) :
    (window : List Round) → Decidable (ExaminedWithin platform options planId db window)
  | [] => inferInstanceAs (Decidable False)
  | round :: rest =>
    have := decidableExaminedWithin planId
      (tick platform round.input round.ids none (round.ready platform options db)).2 rest
    inferInstanceAs (Decidable (_ ∨ _))

/-- The instants of a window have years of four digits: those of its ticks, the slots computed there
    and the errors stored before. -/
structure Readable (db : Database) (window : List Round) : Prop where
  observed : ∀ round ∈ window, isRfc3339 round.input.observedAt = true
  slots : ∀ round ∈ window, ∀ plan ∈ activePlans db,
    isRfc3339 (round.input.observedAt + scheduleHorizon plan.schedule) = true
  errors : ∀ plan ∈ activePlans db,
    ((stateRow db plan.id).bind (·.lastErrorAt)).all isRfc3339 = true

instance (db : Database) (window : List Round) : Decidable (Readable db window) :=
  decidable_of_iff
    ((∀ round ∈ window, isRfc3339 round.input.observedAt = true) ∧
      (∀ round ∈ window, ∀ plan ∈ activePlans db,
        isRfc3339 (round.input.observedAt + scheduleHorizon plan.schedule) = true) ∧
      ∀ plan ∈ activePlans db, ((stateRow db plan.id).bind (·.lastErrorAt)).all isRfc3339 = true)
    ⟨fun h => ⟨h.1, h.2.1, h.2.2⟩, fun h => ⟨h.observed, h.slots, h.errors⟩⟩

theorem Readable.error {db : Database} {window : List Round} (h : Readable db window)
    {plan : CollectionPlan} (hplan : plan ∈ activePlans db) {row : PersistedScheduleState}
    {error : Timestamp} (hrow : stateRow db plan.id = some row)
    (herror : row.lastErrorAt = some error) : isRfc3339 error = true := by
  simpa [hrow, herror] using h.errors plan hplan

variable {platform options}

theorem sameSchedules_runFrom {db : Database} (hc : Coherent (view db)) {ops : List Op}
    (hops : ∀ op ∈ ops, leavesSchedules op = true) :
    SameSchedules db ((machine platform options).runFrom db ops) := by
  induction ops generalizing db with
  | nil => exact ⟨rfl, rfl⟩
  | cons op ops ih =>
    have hfirst := sameSchedules_step platform options hc (hops op List.mem_cons_self)
    have hcoherent := Protocol.coherent_of_steps hc (steps_of_step platform options hc op)
    have hrest := ih hcoherent fun op hop => hops op (List.mem_cons_of_mem _ hop)
    exact ⟨hrest.plans.trans hfirst.plans, hrest.scheduleStates.trans hfirst.scheduleStates⟩

theorem isRfc3339_of_computedAt {schedule : CollectionSchedule} {now next : Int}
    (hnow : isRfc3339 now = true) (hhorizon : isRfc3339 (now + scheduleHorizon schedule) = true)
    (h : ComputedAt platform schedule now next) : isRfc3339 next = true := by
  have hbounds := h.bounds hnow
  simp only [isRfc3339, Bool.and_eq_true, decide_eq_true_eq] at hnow hhorizon ⊢
  exact ⟨hnow.1.trans hbounds.1.le, hbounds.2.trans hhorizon.2⟩

theorem Readable.tail {db current : Database} {round : Round} {rest : List Round}
    {examined : List CollectionPlan} (h : Readable db (round :: rest))
    (hserved : Served platform db round.input.observedAt examined current) :
    Readable current rest := by
  have hactive : activePlans current = activePlans db := by rw [activePlans, hserved.plans]; rfl
  refine ⟨fun later hlater => h.observed later (List.mem_cons_of_mem _ hlater), fun later hlater => ?_,
    fun plan hplan => ?_⟩
  · rw [hactive]
    exact h.slots later (List.mem_cons_of_mem _ hlater)
  · rw [hactive] at hplan
    rw [Option.all_eq_true]
    intro error herror
    obtain ⟨row, hrow, herror⟩ := Option.bind_eq_some_iff.mp herror
    by_cases hmem : plan.id ∈ examined.map (·.id)
    · obtain ⟨same, hsame, hid⟩ := List.mem_map.mp hmem
      obtain ⟨row', hrow', hrested⟩ := hserved.rested same hsame
      rw [hid] at hrow' hrested
      obtain rfl : row = row' := Option.some.inj (hrow.symm.trans hrow')
      rcases hrested with hnow | ⟨hclear, -⟩ | ⟨hbefore, -⟩
      · obtain rfl := Option.some.inj (herror.symm.trans hnow)
        exact h.observed round List.mem_cons_self
      · rw [hclear] at herror
        cases herror
      · exact h.error hplan hbefore herror
    · exact h.error hplan (hserved.states plan.id hmem ▸ hrow) herror

/-- A tick reaches the plan, or takes `limit` plans off those before it. -/
theorem tick_reaches {db : Database} {round : Round} {rest : List Round} {limit : Nat}
    {plan : CollectionPlan} (hkept : Kept platform db) (hplan : plan ∈ activePlans db)
    (hpos : 0 < limit) (hlimit : normalizedTickLimit round.input.limit = .ok limit)
    (hreadable : Readable db (round :: rest)) :
    let now := round.input.observedAt
    let result := tick platform round.input round.ids none db
    plan.id ∈ result.1.items.map (·.planId) ∨
      (activePlans result.2 = activePlans db ∧ Readable result.2 rest ∧
        limit ≤ (Rounds.ahead (activePlans db) (tickKey db now) plan).length ∧
        (SortsAhead db now plan → ∀ later, isoOrder now ≤ isoOrder later →
          SortsAhead result.2 later plan ∧
            (Rounds.ahead (activePlans db) (tickKey result.2 later) plan).length + limit ≤
              (Rounds.ahead (activePlans db) (tickKey db now) plan).length)) := by
  intro now result
  have hkeys := hkept.slotted.planKeys
  obtain ⟨items, hend, hitems, hserved⟩ :=
    tick_served round.ids hkeys hkept.schedules.valid hlimit
  by_cases hmem : plan ∈ Rounds.serve (activePlans db) (tickKey db now) limit
  · refine Or.inl ?_
    rw [show result.1 = .finished items from hend, TickEnd.items, hitems]
    exact List.mem_map_of_mem hmem
  · have hnow : isRfc3339 now = true := hreadable.observed round List.mem_cons_self
    have hinj := tickKey_injOn hkeys now
    have hnodup := activePlans_nodup hkeys
    refine Or.inr ⟨by rw [activePlans, hserved.plans]; rfl, hreadable.tail hserved,
      Rounds.length_ahead_of_not_mem_serve hnodup hinj hplan hmem, fun hahead later hlater => ?_⟩
    obtain ⟨hstill, hnext⟩ := passed_over hkeys hpos hserved hnow hlater
      (fun other hother next => isRfc3339_of_computedAt hnow
        (hreadable.slots round List.mem_cons_self other hother))
      hkept.schedules.sound (fun other hother _ _ => hreadable.error hother) hplan hmem hahead
    exact ⟨hstill, Rounds.length_ahead_next hnodup hinj hplan hmem hnext⟩

/-- The rank argument: a window with room for the plans before `plan` reaches it. -/
theorem examinedWithin (hmodes : ModesDistinct platform) {plan : CollectionPlan} {limit : Nat}
    (hpos : 0 < limit) {window : List Round} :
    ∀ {db : Database}, Kept platform db → plan ∈ activePlans db →
      (∀ round ∈ window, (∀ op ∈ round.between, leavesSchedules op = true) ∧
        normalizedTickLimit round.input.limit = .ok limit) →
      window.Pairwise (fun round later => round.input.observedAt < later.input.observedAt) →
      Readable db window → window ≠ [] →
      (∀ first ∈ window.head?,
        (Rounds.ahead (activePlans db) (tickKey db first.input.observedAt) plan).length <
            limit * window.length ∧
          ((activePlans db).length ≤ limit ∨ SortsAhead db first.input.observedAt plan)) →
      ExaminedWithin platform options plan.id db window := by
  induction window with
  | nil => exact fun _ _ _ _ _ hne => absurd rfl hne
  | cons round rest ih =>
    intro db hkept hplan hrounds hincreasing hreadable _ hfirst
    obtain ⟨hbetween, hlimit⟩ := hrounds round List.mem_cons_self
    obtain ⟨hrank, hahead⟩ := hfirst round rfl
    have hsame : SameSchedules db (round.ready platform options db) :=
      sameSchedules_runFrom hkept.coherent hbetween
    have hready : Kept platform (round.ready platform options db) :=
      Machine.runFrom_invariant (M := machine platform options) (P := Kept platform)
        (fun db op h => kept_step platform options hmodes h op) hkept _
    have hplan' : plan ∈ activePlans (round.ready platform options db) :=
      hsame.activePlans_eq ▸ hplan
    have hreadable' : Readable (round.ready platform options db) (round :: rest) := by
      refine ⟨hreadable.observed, ?_, ?_⟩
      · rw [hsame.activePlans_eq]
        exact hreadable.slots
      · rw [hsame.activePlans_eq]
        exact fun plan hplan => (hsame.stateRow_eq plan.id).symm ▸ hreadable.errors plan hplan
    rcases tick_reaches hready hplan' hpos hlimit hreadable' with
      hreached | ⟨hactive, hrest, hlength, hnext⟩
    · exact Or.inl hreached
    · rw [hsame.activePlans_eq] at hactive hlength hnext
      rw [hsame.tickKey_eq] at hlength hnext
      have hahead : SortsAhead (round.ready platform options db) round.input.observedAt plan := by
        have hfewer := Rounds.length_ahead_lt (tickKey db round.input.observedAt) hplan
        have := hahead.resolve_left (by omega)
        unfold SortsAhead
        rwa [hsame.activePlans_eq, hsame.tickKey_eq]
      obtain ⟨hfirst, hrestIncreasing⟩ := List.pairwise_cons.mp hincreasing
      refine Or.inr (ih (kept_step platform options hmodes hready
        (.tick round.input round.ids none)) ?_ (fun later hlater => hrounds later
          (List.mem_cons_of_mem _ hlater)) hrestIncreasing hrest ?_ fun next hnextRound => ?_)
      · exact hactive.symm ▸ hplan
      · rintro rfl
        rw [List.length_singleton] at hrank
        omega
      · have hmem : next ∈ rest := List.mem_of_mem_head? hnextRound
        have hlater : isoOrder round.input.observedAt ≤ isoOrder next.input.observedAt :=
          (isoOrder_le_iff (hreadable.observed round List.mem_cons_self)
            (hreadable.observed next (List.mem_cons_of_mem _ hmem))).mpr (hfirst next hmem).le
        obtain ⟨hstill, hlength'⟩ := hnext hahead next.input.observedAt hlater
        refine ⟨?_, Or.inr hstill⟩
        rw [hactive]
        rw [List.length_cons, Nat.mul_succ] at hrank
        exact Nat.lt_of_add_lt_add_right (hlength'.trans_lt hrank)

/-- Ticks of a limit that reach every plan once reach a plan that sorts ahead at the first of them:
    from any state a run leads to, with other calls in between, a window of `N / limit` ticks, rounded
    up, examines each of the `N` active plans that has no state, whose key lies before the text of the
    first instant, or whose key is that text and whose id is below those of the plans that come
    first. -/
theorem tick_fair (hmodes : ModesDistinct platform) (ops : List Op) (window : List Round)
    (limit : Nat) (hpos : 0 < limit) (plan : CollectionPlan) :
    let db := (machine platform options).run ops
    plan ∈ activePlans db →
    (∀ round ∈ window, (∀ op ∈ round.between, leavesSchedules op = true) ∧
      normalizedTickLimit round.input.limit = .ok limit) →
    window.Pairwise (fun round later => round.input.observedAt < later.input.observedAt) →
    Readable db window →
    (activePlans db).length ⌈/⌉ limit ≤ window.length →
    ((activePlans db).length ≤ limit ∨
      ∀ first ∈ window.head?, SortsAhead db first.input.observedAt plan) →
    ExaminedWithin platform options plan.id db window := by
  intro db hplan hrounds hincreasing hreadable hlength hahead
  have hkept : Kept platform db :=
    Machine.run_invariant (M := machine platform options) (P := Kept platform) (kept_empty platform)
      (fun db op h => kept_step platform options hmodes h op) ops
  have hroom := (ceilDiv_le_iff_le_mul hpos).mp hlength
  have hsome : 0 < (activePlans db).length := List.length_pos_of_mem hplan
  have hwindow : window ≠ [] := by
    rintro rfl
    rw [List.length_nil, Nat.mul_zero] at hroom
    omega
  refine examinedWithin hmodes hpos hkept hplan hrounds hincreasing hreadable hwindow
    fun first hfirst => ⟨?_, hahead.imp id fun h => h first hfirst⟩
  exact (Rounds.length_ahead_lt _ hplan).trans_le hroom

/-! ### An edited plan -/

/-- The plan is due, has no state, or its state is that of another schedule. -/
def needsExamination (platform : Platform) (db : Database) (now : Timestamp) (plan : CollectionPlan) :
    Bool :=
  match stateRow db plan.id with
  | none => true
  | some row => row.nextDueAt.any (fun slot => decide (slot ≤ now)) ||
      decide (row.scheduleFingerprint ≠ scheduleFingerprint platform plan.schedule)

/-- A platform whose schedule fingerprints tell the mode, for concrete runs. -/
def samplePlatform : Platform where
  digestHex := String.length
  hashPayload _ := 0
  hashDescriptor _ := 0
  hashSchedule
    | .manual => 0
    | .interval seconds => 4 * seconds + 1
    | .changeWatch seconds => 4 * seconds + 2
    | .cron expression _ => 4 * expression.length + 3
  parseUrl _ := none
  timezoneFormatter _ := none

def samplePlan (id intervalSeconds : Nat) : CollectionPlan where
  id
  workspaceId := 1
  sourceId := 1
  status := .active
  schedule := .interval intervalSeconds
  priority := .normal
  policy :=
    { renderJavascript := false, fetchAttachments := false, rateLimitPerMinute := 60
      retry := { maxAttempts := 1, backoffSeconds := 0 } }
  artifactKinds := [.html]
  createdAt := 0
  updatedAt := 0
  extensions := none

def sampleSource (status : SourceStatus) : SourceDefinition where
  id := 1
  workspaceId := 1
  sourceType := .web
  status
  connector := { connectorId := "web", version := "1.0.0" }
  canonicalUri := none
  entrypoints := ["https://a.test"]
  createdAt := 0
  updatedAt := 0

def sampleConnector : ConnectorManifest where
  connectorId := "web"
  version := "1.0.0"
  sourceTypes := [.web]
  capabilities := [.collect]
  supportedJobTypes := [.webCrawl]
  outputArtifactKinds := [.html]
  status := .active

/-- Two plans, of a minute and of a day; the second has no state yet. -/
def createPlans : List Op :=
  [.saveCatalogue [sampleSource .active] [sampleConnector], .savePlan (samplePlan 1 60),
    .savePlan (samplePlan 2 86400)]

/-- After a first tick the second plan is edited to one of a minute, and the source paused. -/
def editPlan : List Op :=
  createPlans ++
    [.tick ⟨0, none⟩ (fun i => (i, i)) none, .savePlan (samplePlan 2 60),
      .saveCatalogue [sampleSource .paused] [sampleConnector]]

def twoTicks : List Round :=
  [{ between := [], input := ⟨60000, some 1⟩, ids := fun i => (i, i) },
    { between := [], input := ⟨120000, some 1⟩, ids := fun i => (i, i) }]

/-- Two ticks of one plan each, over two active plans, examine the plan that fails twice; the edited
    one sorts by its slot of the next day. -/
theorem edited_plan_passed_over :
    let db := (machine samplePlatform .default).run editPlan
    (∃ plan ∈ activePlans db, plan.id = 2 ∧
      ∀ round ∈ twoTicks, needsExamination samplePlatform db round.input.observedAt plan = true) ∧
    (∀ round ∈ twoTicks, round.between = [] ∧ normalizedTickLimit round.input.limit = .ok 1) ∧
    twoTicks.Pairwise (fun round later => round.input.observedAt < later.input.observedAt) ∧
    (activePlans db).length ⌈/⌉ 1 ≤ twoTicks.length ∧
    ¬ ExaminedWithin samplePlatform .default 2 db twoTicks := by
  refine ⟨by decide +kernel, ?_, by decide, by decide +kernel, by decide +kernel⟩
  simp [twoTicks, normalizedTickLimit, MAX_TICK_LIMIT]

theorem modesDistinct_samplePlatform : ModesDistinct samplePlatform := by
  intro left right h
  have hcode : samplePlatform.hashSchedule left % 4 = samplePlatform.hashSchedule right % 4 :=
    congrArg (· % 4) h
  cases left <;> cases right <;>
    simp [samplePlatform, CollectionSchedule.mode] at hcode ⊢

/-- The same two ticks right after the plans were created examine both. -/
theorem created_plan_examined :
    ExaminedWithin samplePlatform .default 2 ((machine samplePlatform .default).run createPlans)
      twoTicks := by
  refine tick_fair modesDistinct_samplePlatform createPlans twoTicks 1 (by decide)
    (samplePlan 2 86400) ?_ ?_ (by decide) (by decide) (by decide)
    (Or.inr fun first _ => sortsAhead_of_missing rfl first.input.observedAt)
  · exact List.mem_cons_of_mem _ List.mem_cons_self
  · simp [twoTicks, normalizedTickLimit, MAX_TICK_LIMIT]

end MarkorbitKnowledge.Scheduler
