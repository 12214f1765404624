import MarkorbitKnowledge.Execution.WorkerExecution
import MarkorbitKnowledge.Scheduler.Cron

/-!
# The collection scheduler

`collection-scheduler.ts`: a tick takes the active automatic plans in the order of their schedule
state, reconciles the state of each with its schedule, and dispatches a run for the slot that is due.
The calls inside a tick commit one by one: the state of a plan, the run and first job of a slot, and
the advance of the state to its next slot.  A tick that dies between two of them leaves the earlier
ones in place; `CommitPoint` says where that can happen.
-/

namespace MarkorbitKnowledge.Scheduler

open Contracts Execution Fallible

def DEFAULT_TICK_LIMIT : Nat := 50

def MAX_TICK_LIMIT : Nat := 250

def SYSTEM_ACTOR_ID : String := "collection-scheduler"

def normalizedTickLimit (limit : Option Nat) : Except RegistryError Nat :=
  match limit with
  | none => pure DEFAULT_TICK_LIMIT
  | some value => do
    require (0 < value) (.validation "Scheduler tick limit must be a positive integer")
    pure (min value MAX_TICK_LIMIT)

def scheduleFingerprint (platform : Platform) (schedule : CollectionSchedule) : Digest :=
  platform.hashSchedule schedule

/-- The code and message the state of a plan keeps of an error. -/
def errorFields (error : RegistryError) : String × String :=
  let (code, rawMessage) := match error with
    | .registry code message => (code, message)
    | .uniqueConstraint columns => ("ERR_SQLITE_ERROR", "UNIQUE constraint failed: " ++ columns)
    | .invalidTimeValue => ("SCHEDULER_INTERNAL_ERROR", "Invalid time value")
  let message := sliceText (trim rawMessage) 500
  (code, if message = "" then "Unknown scheduler error" else message)

/-- `Date.prototype.toISOString`: the instant, or a `RangeError`. -/
def isoInstant (date : Date) : Except RegistryError Timestamp := orThrow date .invalidTimeValue

/-! ### Schedule states -/

def stateRow (db : Database) (planId : Id) : Option PersistedScheduleState :=
  Tables.find? db.scheduleStates planId

/-- `INSERT … ON CONFLICT(plan_id) DO UPDATE`, from the row the statement leaves. -/
def upsertState (db : Database) (row : PersistedScheduleState) : Database :=
  { db with
    scheduleStates :=
      match stateRow db row.planId with
      | none => db.scheduleStates ++ [row]
      | some _ => Tables.update db.scheduleStates row }

/-- The row of `writeScheduleError`: an error that follows a change of the schedule forgets the
    slot of the schedule before. -/
def errorState (platform : Platform) (plan : CollectionPlan) (now : Timestamp)
    (error : RegistryError) (existing : Option PersistedScheduleState) : PersistedScheduleState :=
  let fingerprint := scheduleFingerprint platform plan.schedule
  { planId := plan.id
    workspaceId := plan.workspaceId
    scheduleMode := plan.schedule.mode
    scheduleFingerprint := fingerprint
    nextDueAt := existing.bind fun row =>
      if row.scheduleFingerprint ≠ fingerprint then none else row.nextDueAt
    lastSlotAt := existing.bind (·.lastSlotAt)
    lastTriggeredAt := existing.bind (·.lastTriggeredAt)
    lastRunId := existing.bind (·.lastRunId)
    lastErrorCode := some (errorFields error).1
    lastErrorMessage := some (errorFields error).2
    lastErrorAt := some now
    updatedAt := now }

def writeScheduleError (platform : Platform) (db : Database) (plan : CollectionPlan)
    (now : Timestamp) (error : RegistryError) : PersistedScheduleState × Database :=
  let row := errorState platform plan now error (stateRow db plan.id)
  (row, upsertState db row)

/-- The row of a plan whose next slot was computed afresh. -/
def initialState (platform : Platform) (plan : CollectionPlan) (now next : Timestamp)
    (existing : Option PersistedScheduleState) : PersistedScheduleState where
  planId := plan.id
  workspaceId := plan.workspaceId
  scheduleMode := plan.schedule.mode
  scheduleFingerprint := scheduleFingerprint platform plan.schedule
  nextDueAt := some next
  lastSlotAt := existing.bind (·.lastSlotAt)
  lastTriggeredAt := existing.bind (·.lastTriggeredAt)
  lastRunId := existing.bind (·.lastRunId)
  lastErrorCode := none
  lastErrorMessage := none
  lastErrorAt := none
  updatedAt := now

/-- The state still belongs to the schedule of the plan and has a slot. -/
def stateIsCurrent (platform : Platform) (plan : CollectionPlan) (row : PersistedScheduleState) :
    Bool :=
  decide (row.scheduleMode = plan.schedule.mode) &&
    decide (row.scheduleFingerprint = scheduleFingerprint platform plan.schedule) &&
    row.nextDueAt.any isRfc3339

/-- The next slot of a plan as it is stored. -/
def storedSlot (next : Option Date) (missing : String) : Except RegistryError Timestamp := do
  let next ← orThrow next (.validation missing)
  isoInstant next

structure Reconciled where
  row : PersistedScheduleState
  initialized : Bool

def reconcileActivePlan (platform : Platform) (db : Database) (plan : CollectionPlan)
    (now : Timestamp) : Reconciled × Database :=
  let existing := stateRow db plan.id
  match existing.filter (stateIsCurrent platform plan) with
  | some row => ({ row, initialized := false }, db)
  | none =>
    let next : Except RegistryError Timestamp := do
      let next ← nextScheduledAt platform plan.schedule now
      storedSlot next "Automatic schedule did not produce nextDueAt"
    match next with
    | .ok next =>
      let row := initialState platform plan now next existing
      ({ row, initialized := true }, upsertState db row)
    | .error error =>
      let (row, db) := writeScheduleError platform db plan now error
      ({ row, initialized := existing.isNone }, db)

/-! ### Dispatching a slot -/

def validateScheduledDispatch : CollectionPlan → SourceDefinition → ConnectorManifest →
    Except RegistryError JobType :=
  checkDispatch
    { planNotActive :=
        .conflict "SCHEDULER_PLAN_NOT_ACTIVE" "Only an active plan can be scheduled"
      sourceNotActive := .conflict "SCHEDULER_SOURCE_NOT_ACTIVE"
        "Scheduled dispatch requires an active source"
      connectorNotActive := .conflict "SCHEDULER_CONNECTOR_NOT_ACTIVE"
        "Scheduled dispatch requires an active exact ConnectorManifest version"
      sourceTypeMismatch := "SCHEDULER_SOURCE_TYPE_MISMATCH"
      capabilityMismatch := "SCHEDULER_CAPABILITY_MISMATCH"
      collectRequired := "Scheduled dispatch requires COLLECT capability"
      changeWatchUnsupported := .conflict "SCHEDULER_CHANGE_WATCH_UNSUPPORTED"
        "Change-watch scheduling requires CHECK_UPDATE or WATCH capability"
      outputMismatch := "SCHEDULER_OUTPUT_MISMATCH"
      manualPlan := some (.conflict "SCHEDULER_MANUAL_PLAN"
        "Manual plans are not automatically scheduled") }

def connectorMissing (connectorId version : String) : RegistryError :=
  .conflict "SCHEDULER_CONNECTOR_NOT_FOUND"
    ("Connector " ++ connectorId ++ "@" ++ version ++ " was not found")

def scheduledSlotIdempotencyKey (planId : Id) (slot : Timestamp) : String :=
  "schedule:" ++ idText "pln" planId ++ ":" ++ toISOString slot

def SLOT_EXTENSION : String := "x-markorbit.schedule-slot-at"

/-- The extensions of a scheduled run and job: the slot, as JSON text. -/
def executionExtensions (slot : Timestamp) : Extensions :=
  [(SLOT_EXTENSION,
    { canonicalText := "\"" ++ toISOString slot ++ "\"", memberNames := [] })]

structure ScheduledDispatchResult where
  run : CollectionRun
  replayed : Bool
  coalesced : Bool

def existingScheduledRun (db : Database) (workspaceId planId : Id) (idempotencyKey : String) :
    Except RegistryError (Option ScheduledDispatchResult) :=
  match runWithKey db workspaceId idempotencyKey with
  | none => pure none
  | some row => do
    let run ← parseRun row
    require (run.planId = planId ∧ run.trigger.type = .scheduled)
      (.conflict "SCHEDULER_IDEMPOTENCY_CONFLICT"
        "Schedule slot idempotency key was already used for a different dispatch")
    let _ ← jobsForRun db run.id
    pure (some { run, replayed := true, coalesced := false })

/-- `ORDER BY requested_at DESC, id DESC LIMIT 1`. -/
def inFlightRunForPlan (db : Database) (planId : Id) :
    Except RegistryError (Option CollectionRun) :=
  (((db.runs.filter fun run => decide (run.planId = planId) &&
      (decide (run.status = .pending) || decide (run.status = .running))).insertionSort
    fun left right => toLex (isoOrder right.requestedAt, right.id) ≤
      toLex (isoOrder left.requestedAt, left.id)).head?).mapM parseRun

def dispatchScheduled (db : Database) (plan : CollectionPlan) (slot now : Timestamp)
    (runId jobId : Id) :
    Except RegistryError (ScheduledDispatchResult × Database) := do
  let source ← loadSource db plan.sourceId
  let connector ← loadConnector db source connectorMissing
  let jobType ← validateScheduledDispatch plan source connector
  let idempotencyKey := scheduledSlotIdempotencyKey plan.id slot
  require (jsLength idempotencyKey ≤ 128)
    (.validation "Scheduled slot idempotency key exceeds 128 characters")
  -- The transaction of the source repeats the next two lookups; nothing ran in between.
  match ← existingScheduledRun db plan.workspaceId plan.id idempotencyKey with
  | some replay => pure (replay, db)
  | none =>
    match ← inFlightRunForPlan db plan.id with
    | some active => pure ({ run := active, replayed := false, coalesced := true }, db)
    | none =>
      let trigger : ExecutionTrigger :=
        { type := .scheduled
          requestedBy := { actorType := .system, actorId := some SYSTEM_ACTOR_ID }
          idempotencyKey := some idempotencyKey
          parentRunId := none }
      let run := newRun plan source connector trigger (some (executionExtensions slot)) runId now
      let job := newJob run jobType jobId now
      require (isCollectionRun run = true ∧ isJob job = true)
        (.validation "Scheduled dispatch does not satisfy Execution Contract v1")
      let db ← insertDispatch db run job
      pure ({ run, replayed := false, coalesced := false }, db)

/-! ### Advancing the state -/

/-- What `advanceState` and `advanceCoalescedState` write into the row of the slot they leave:
    `triggered` holds the run of a slot that was dispatched or replayed. -/
def advancedState (row : PersistedScheduleState) (slot next now : Timestamp)
    (triggered : Option Id) : PersistedScheduleState :=
  { row with
    nextDueAt := some next
    lastSlotAt := some slot
    lastTriggeredAt := if triggered.isSome then some now else row.lastTriggeredAt
    lastRunId := triggered <|> row.lastRunId
    lastErrorCode := none
    lastErrorMessage := none
    lastErrorAt := none
    updatedAt := now }

/-- `UPDATE … WHERE plan_id = ? AND schedule_fingerprint = ? AND next_due_at = ?`. -/
def advance (platform : Platform) (db : Database) (plan : CollectionPlan) (slot now : Timestamp)
    (triggered : Option Id) (lost : String) :
    Except RegistryError (PersistedScheduleState × Database) := do
  let next ← nextFutureScheduledAt platform plan.schedule (newDate slot) now
  let next ← storedSlot next "Automatic schedule did not produce a future slot"
  let row ← orThrow (stateRow db plan.id) (.conflict "SCHEDULER_STATE_LOST" lost)
  if row.scheduleFingerprint = scheduleFingerprint platform plan.schedule ∧
      row.nextDueAt = some slot then
    let row := advancedState row slot next now triggered
    pure (row, { db with scheduleStates := Tables.update db.scheduleStates row })
  else pure (row, db)

def advanceState (platform : Platform) (db : Database) (plan : CollectionPlan) (slot : Timestamp)
    (run : CollectionRun) (now : Timestamp) :
    Except RegistryError (PersistedScheduleState × Database) :=
  advance platform db plan slot now (some run.id) "Scheduler state disappeared during dispatch"

def advanceCoalescedState (platform : Platform) (db : Database) (plan : CollectionPlan)
    (slot now : Timestamp) : Except RegistryError (PersistedScheduleState × Database) :=
  advance platform db plan slot now none
    "Scheduler state disappeared while coalescing an in-flight run"

/-! ### Ticks -/

inductive TickOutcome where
  | initialized | notDue | dispatched | replayed | coalesced | error
deriving DecidableEq

structure TickItem where
  planId : Id
  outcome : TickOutcome
  nextDueAt : Option Timestamp
  runId : Option Id
  errorCode : Option String

/-- Where a tick can die while it examines a plan: after the state was reconciled, or after the
    dispatch transaction ended. -/
inductive CommitPoint where
  | reconciled | dispatched
deriving DecidableEq

/-- The item of a plan whose examination failed with `error`. -/
def failedItem (platform : Platform) (db : Database) (plan : CollectionPlan) (now : Timestamp)
    (error : RegistryError) : TickItem × Database :=
  let (failed, db) := writeScheduleError platform db plan now error
  ({ planId := plan.id, outcome := .error, nextDueAt := failed.nextDueAt, runId := none
     errorCode := failed.lastErrorCode }, db)

/-- The advance of the state after the slot was dispatched, replayed or coalesced. -/
def settleSlot (platform : Platform) (db : Database) (plan : CollectionPlan) (slot now : Timestamp)
    (dispatch : ScheduledDispatchResult) : TickItem × Database :=
  let advanced :=
    if dispatch.coalesced then advanceCoalescedState platform db plan slot now
    else advanceState platform db plan slot dispatch.run now
  match advanced with
  | .ok (state, db) =>
    ({ planId := plan.id
       outcome := if dispatch.coalesced then .coalesced
         else if dispatch.replayed then .replayed else .dispatched
       nextDueAt := state.nextDueAt
       runId := some dispatch.run.id
       errorCode := none }, db)
  | .error error => failedItem platform db plan now error

/-- One iteration of the loop of a tick; no item when the process died at `crash`. -/
def examinePlan (platform : Platform) (db : Database) (plan : CollectionPlan) (now : Timestamp)
    (ids : Id × Id) (crash : Option CommitPoint) : Option TickItem × Database :=
  let (reconciled, db) := reconcileActivePlan platform db plan now
  let state := reconciled.row
  if crash = some .reconciled then (none, db)
  else
    match state.nextDueAt with
    | none =>
      (some { planId := plan.id, outcome := .error, nextDueAt := none, runId := none
              errorCode := state.lastErrorCode }, db)
    | some slot =>
      if now < slot then
        (some
          { planId := plan.id
            outcome := if state.lastErrorCode.isSome then .error
              else if reconciled.initialized then .initialized else .notDue
            nextDueAt := some slot
            runId := none
            errorCode := state.lastErrorCode }, db)
      else
        match dispatchScheduled db plan slot now ids.1 ids.2 with
        | .error error =>
          if crash = some .dispatched then (none, db)
          else
            let (item, db) := failedItem platform db plan now error
            (some item, db)
        | .ok (dispatch, db) =>
          if crash = some .dispatched then (none, db)
          else
            let (item, db) := settleSlot platform db plan slot now dispatch
            (some item, db)

/-- The state failed, and it has no slot or one that is not ahead of `now`. -/
def erroredAt (now : Timestamp) (state : PersistedScheduleState) : Bool :=
  state.lastErrorAt.isSome && state.nextDueAt.all fun due => decide (isoOrder due ≤ isoOrder now)

/-- The place of a nullable instant in the text order, no instant being the empty text. -/
def textOrder : Option Timestamp → Nat ×ₗ Int ×ₗ Timestamp
  | none => toLex (0, toLex (0, 0))
  | some t => isoOrder t

/-- The sort key of the tick query.  A state that failed and is due again sorts by its last error,
    every other state by its next slot, a missing slot first; a missing state comes before all. -/
def tickKey (db : Database) (now : Timestamp) (plan : CollectionPlan) :
    Nat ×ₗ (Nat ×ₗ Int ×ₗ Timestamp) ×ₗ Id :=
  match stateRow db plan.id with
  | none => toLex (0, toLex (textOrder none, plan.id))
  | some state =>
    toLex (1, toLex
      (textOrder (if erroredAt now state then state.lastErrorAt else state.nextDueAt), plan.id))

/-- The active automatic plans, in the order a tick at `now` examines them. -/
def tickOrder (db : Database) (now : Timestamp) : List CollectionPlan :=
  (db.plans.filter fun plan => decide (plan.status = .active) &&
    decide (plan.schedule.mode ≠ .manual)).insertionSort fun left right =>
      tickKey db now left ≤ tickKey db now right

/-- How a tick ends: with its items, with the error of a plan it could not parse, or by dying. -/
inductive TickEnd where
  | finished (items : List TickItem)
  | failed (error : RegistryError)
  | crashed

def TickEnd.items : TickEnd → List TickItem
  | .finished items => items
  | _ => []

/-- The loop of a tick: each plan with its generated run and job id, and where the process dies on
    it. -/
def tickLoop (platform : Platform) (now : Timestamp) :
    List (CollectionPlan × (Id × Id) × Option CommitPoint) → List TickItem → Database →
      TickEnd × Database
  | [], items, db => (.finished items, db)
  | (row, ids, crash) :: rest, items, db =>
    match parsePlan row with
    | .error error => (.failed error, db)
    | .ok plan =>
      match examinePlan platform db plan now ids crash with
      | (none, db) => (.crashed, db)
      | (some item, db) => tickLoop platform now rest (items ++ [item]) db

structure TickInput where
  observedAt : Timestamp
  limit : Option Nat

/-- The plans of a tick with what the loop needs for each: `ids i` are the ids generated for the
    `i`-th plan, and `crash` is where the process dies, if it does. -/
def tickRows (plans : List CollectionPlan) (ids : Nat → Id × Id)
    (crash : Option (Nat × CommitPoint)) :
    List (CollectionPlan × (Id × Id) × Option CommitPoint) :=
  plans.mapIdx fun i plan =>
    (plan, ids i, (crash.filter fun point => point.1 = i).map fun point => point.2)

def tick (platform : Platform) (input : TickInput) (ids : Nat → Id × Id)
    (crash : Option (Nat × CommitPoint)) (db : Database) : TickEnd × Database :=
  match normalizedTickLimit input.limit with
  | .error error => (.failed error, db)
  | .ok limit =>
    tickLoop platform input.observedAt
      (tickRows ((tickOrder db input.observedAt).take limit) ids crash) [] db

/-- `getState` reconciles the state of an active automatic plan before it reads it. -/
def getState (platform : Platform) (planId : Id) (now : Timestamp) (db : Database) :
    Except RegistryError (Option PersistedScheduleState × Database) := do
  let plan ← loadPlan db planId
  if plan.schedule.mode = .manual ∨ plan.status ≠ .active then pure (stateRow db plan.id, db)
  else
    let (reconciled, db) := reconcileActivePlan platform db plan now
    pure (some reconciled.row, db)

end MarkorbitKnowledge.Scheduler
