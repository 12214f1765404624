import MarkorbitKnowledge.Recovery.Tracking

/-!
# The loops of a pass

`Recoverable` is the invariant of the store: every case is tracked, and every run under the key of a
retry belongs to a case.  A loop keeps it case by case, with what it needs of the cases still to come.
`Served` is what a call leaves of the runs and cases of an earlier store.
-/

namespace MarkorbitKnowledge.Recovery

open Contracts Conversion Fallible Tables Transitions
open Execution (RegistryError)

structure Recoverable (s : RecoveryStore) : Prop where
  sound : Sound s.conversion
  keysOnce : KeysOnce s.conversion
  caseKeys : KeysUnique s.cases
  roots : ∀ value ∈ s.cases, ∀ other ∈ s.cases, value.rootRunId = other.rootRunId →
    value.id = other.id
  tracked : ∀ value ∈ s.cases, Tracked s.conversion value
  owned : ∀ id run, s.conversion.run? id = some run → isRetryKey run.idempotencyKey = true →
    ∃ value ∈ s.cases, ∃ family ordinal, RetryOf value family ordinal run

/-- One of the runs of the case is completed. -/
def Completed (db : ConversionDatabase) (value : ConversionRecoveryCase) : Prop :=
  ∃ id run, db.run? id = some run ∧ RunOf value run ∧ run.status = .completed

/-- The documents have the same runs. -/
structure SameCase (value next : ConversionRecoveryCase) : Prop where
  id : next.id = value.id
  workspace : next.workspaceId = value.workspaceId
  root : next.rootRunId = value.rootRunId

namespace SameCase

variable {value next last : ConversionRecoveryCase}

theorem refl (value : ConversionRecoveryCase) : SameCase value value := ⟨rfl, rfl, rfl⟩

theorem trans (h : SameCase value next) (h' : SameCase next last) : SameCase value last :=
  ⟨h'.id.trans h.id, h'.workspace.trans h.workspace, h'.root.trans h.root⟩

theorem runOf (h : SameCase value next) {run : ConversionRun} :
    RunOf next run ↔ RunOf value run := by
  simp only [RunOf, h.id, h.workspace, h.root]

end SameCase

/-- What is left of an earlier store: its runs, its cases, and, of a case with a completed run, no
    further run. -/
structure Served (s s' : RecoveryStore) : Prop where
  kept : RunsKept s.conversion s'.conversion
  cases : ∀ value ∈ s.cases, ∃ next ∈ s'.cases, SameCase value next
  ended : ∀ value ∈ s.cases, Completed s.conversion value →
    NoNewRun s.conversion s'.conversion value

theorem noNewRun_refl (db : ConversionDatabase) (value : ConversionRecoveryCase) :
    NoNewRun db db value :=
  fun _ run hrun => Or.inl ⟨run, hrun⟩

theorem RunsKept.trans {db db' db'' : ConversionDatabase} (h : RunsKept db db')
    (h' : RunsKept db' db'') : RunsKept db db'' := by
  intro id run hrun
  obtain ⟨run', hrun', hkept⟩ := h id run hrun
  obtain ⟨run'', hrun'', hkept'⟩ := h' id run' hrun'
  exact ⟨run'', hrun'', hkept.trans hkept'⟩

theorem Completed.kept {db db' : ConversionDatabase} {value next : ConversionRecoveryCase}
    (h : Completed db value) (hkept : RunsKept db db') (hsame : SameCase value next) :
    Completed db' next := by
  obtain ⟨id, run, hrun, hof, hcompleted⟩ := h
  obtain ⟨run', hrun', hrunKept⟩ := hkept id run hrun
  have hterminal : TerminalStatus run.status := Or.inl hcompleted
  obtain ⟨hworkspace, hid⟩ := hof
  refine ⟨id, run', hrun', hsame.runOf.mpr ⟨hrunKept.workspace.trans hworkspace, ?_⟩,
    (hrunKept.terminal hterminal).trans hcompleted⟩
  rw [hrunKept.id, hrunKept.key]
  exact hid

namespace Served

variable {s s' s'' : RecoveryStore}

theorem refl (s : RecoveryStore) : Served s s :=
  ⟨runsKept_refl _, fun value hvalue => ⟨value, hvalue, .refl value⟩, fun _ _ _ =>
    noNewRun_refl _ _⟩

theorem trans (h : Served s s') (h' : Served s' s'') : Served s s'' where
  kept := h.kept.trans h'.kept
  cases value hvalue := by
    obtain ⟨next, hnext, hsame⟩ := h.cases value hvalue
    obtain ⟨last, hlast, hsame'⟩ := h'.cases next hnext
    exact ⟨last, hlast, hsame.trans hsame'⟩
  ended value hvalue hcompleted := by
    obtain ⟨next, hnext, hsame⟩ := h.cases value hvalue
    intro id run'' hrun''
    rcases h'.ended next hnext (hcompleted.kept h.kept hsame) id run'' hrun'' with ⟨run', hrun'⟩ | hnot
    · rcases h.ended value hvalue hcompleted id run' hrun' with hrun | hnot
      · exact Or.inl hrun
      · obtain ⟨run, hfound, hrunKept⟩ := h'.kept id run' hrun'
        obtain rfl := Option.some.inj (hrun''.symm.trans hfound)
        exact Or.inr fun hof => hnot (RunOf.of_kept hrunKept hof)
    · exact Or.inr fun hof => hnot (hsame.runOf.mpr hof)

/-- A call that changes the documents of cases only. -/
theorem of_cases (hconversion : s'.conversion = s.conversion)
    (hcases : ∀ value ∈ s.cases, ∃ next ∈ s'.cases, SameCase value next) : Served s s' where
  kept := hconversion ▸ runsKept_refl _
  cases := hcases
  ended value _ _ := hconversion ▸ noNewRun_refl _ value

end Served

/-! ### Changing one case -/

section Changes

variable {s s' : RecoveryStore} {value next : ConversionRecoveryCase}

theorem persistCase_eq_ok :
    persistCase s value = .ok s' ↔
      (∃ stored ∈ s.cases, stored.id = value.id ∧ stored.workspaceId = value.workspaceId) ∧
        { s with cases := update s.cases value } = s' := by
  simp [persistCase, require_eq_ok]

theorem mem_update_cases (hvalue : value ∈ s.cases) (hid : next.id = value.id)
    {stored : ConversionRecoveryCase} :
    stored ∈ update s.cases next ↔ (stored ∈ s.cases ∧ stored.id ≠ value.id) ∨ stored = next := by
  rw [mem_update]
  simp only [key_case, hid]
  refine or_congr_right (and_iff_left ⟨value, hvalue, rfl⟩)

/-- The document of a tracked case is replaced by a tracked one. -/
theorem Recoverable.update (h : Recoverable s) (hvalue : value ∈ s.cases)
    (hsame : SameCase value next) (htracked : Tracked s.conversion next) :
    Recoverable { s with cases := Tables.update s.cases next } := by
  have hmem := @mem_update_cases s value next hvalue hsame.id
  have hback : ∀ stored ∈ Tables.update s.cases next, ∃ old ∈ s.cases, SameCase old stored := by
    intro stored hstored
    rcases hmem.mp hstored with ⟨hold, -⟩ | rfl
    · exact ⟨stored, hold, .refl stored⟩
    · exact ⟨value, hvalue, hsame⟩
  refine
    { sound := h.sound
      keysOnce := h.keysOnce
      caseKeys := h.caseKeys.update next
      roots := ?_
      tracked := ?_
      owned := ?_ }
  · intro stored hstored other hother hroot
    obtain ⟨old, hold, hsame₁⟩ := hback stored hstored
    obtain ⟨old', hold', hsame₂⟩ := hback other hother
    rw [hsame₁.id, hsame₂.id]
    exact h.roots old hold old' hold' (by rw [← hsame₁.root, ← hsame₂.root, hroot])
  · intro stored hstored
    rcases hmem.mp hstored with ⟨hold, -⟩ | rfl
    · exact h.tracked stored hold
    · exact htracked
  · intro id run hrun hkey
    obtain ⟨owner, howner, family, ordinal, hretry⟩ := h.owned id run hrun hkey
    by_cases hid : owner.id = value.id
    · obtain rfl := h.caseKeys.eq_of_key howner hvalue hid
      refine ⟨next, hmem.mpr (Or.inr rfl), family, ordinal, ?_⟩
      exact ⟨hretry.1.trans hsame.workspace.symm, by rw [hretry.2, hsame.id]⟩
    · exact ⟨owner, hmem.mpr (Or.inl ⟨howner, hid⟩), family, ordinal, hretry⟩

theorem served_update (hvalue : value ∈ s.cases) (hsame : SameCase value next)
    (hkeys : KeysUnique s.cases) :
    Served s { s with cases := Tables.update s.cases next } := by
  refine .of_cases rfl fun stored hstored => ?_
  have hmem := @mem_update_cases s value next hvalue hsame.id
  by_cases hid : stored.id = value.id
  · obtain rfl := hkeys.eq_of_key hstored hvalue hid
    exact ⟨next, hmem.mpr (Or.inr rfl), hsame⟩
  · exact ⟨stored, hmem.mpr (Or.inl ⟨hstored, hid⟩), .refl stored⟩

/-- What persisting a tracked document of a stored case leaves: the other cases as they were. -/
structure Persisted (s s' : RecoveryStore) (value : ConversionRecoveryCase) : Prop where
  recoverable : Recoverable s'
  served : Served s s'
  conversion : s'.conversion = s.conversion
  others : ∀ other ∈ s.cases, other.id ≠ value.id → other ∈ s'.cases

theorem persistCase_persisted (h : Recoverable s) (hvalue : value ∈ s.cases)
    (hpersist : persistCase s next = .ok s') (hsame : SameCase value next)
    (htracked : Tracked s.conversion next) : Persisted s s' value := by
  obtain ⟨-, rfl⟩ := persistCase_eq_ok.mp hpersist
  exact
    { recoverable := h.update hvalue hsame htracked
      served := served_update hvalue hsame h.caseKeys
      conversion := rfl
      others := fun other hother hid => (mem_update_cases hvalue hsame.id).mpr (Or.inl ⟨hother, hid⟩) }

end Changes

/-! ### Dispatching -/

section Dispatch

variable {platform : ConversionPlatform} {db db' : ConversionDatabase}

theorem keysOnce_perform (hs : Sound db) (hkeys : KeysOnce db) (call : ConversionCall) :
    KeysOnce (perform platform db call).2 := by
  have hkept : RunsKept db (perform platform db call).2 :=
    runsKept_advances (perform_advances hs call)
  have hfresh : ∀ {input runId run id old}, Dispatched db (perform platform db call).2 input runId run →
      db.run? id = some old → old.workspaceId = run.workspaceId →
      old.idempotencyKey ≠ run.idempotencyKey := by
    intro input runId run id old hdispatched hold
    obtain ⟨row, hrow, rfl⟩ := run?_eq_some.mp hold
    exact hdispatched.freshKey row (mem_of_find? hrow)
  have hback : ∀ {id run' old}, (perform platform db call).2.run? id = some run' →
      db.run? id = some old → RunKept old run' := by
    intro id run' old hrun' hold
    obtain ⟨later, hlater, hrunKept⟩ := hkept id old hold
    exact Option.some.inj (hlater.symm.trans hrun') ▸ hrunKept
  intro id id' run run' hrun hrun' hworkspace hkey
  rcases run_added call hrun with ⟨old, hold⟩ | ⟨_, input, _, runId, _, hcall, hdispatched⟩
  · have hrunKept := hback hrun hold
    rcases run_added call hrun' with ⟨old', hold'⟩ | ⟨_, _, _, _, _, -, hdispatched'⟩
    · have hrunKept' := hback hrun' hold'
      exact hkeys id id' old old' hold hold'
        (hrunKept.workspace.symm.trans (hworkspace.trans hrunKept'.workspace))
        (hrunKept.key.symm.trans (hkey.trans hrunKept'.key))
    · exact absurd (hrunKept.key.symm.trans hkey)
        (hfresh hdispatched' hold (hrunKept.workspace.symm.trans hworkspace))
  · rcases run_added call hrun' with ⟨old', hold'⟩ | ⟨_, _, _, runId', _, hcall', hdispatched'⟩
    · have hrunKept' := hback hrun' hold'
      exact absurd (hrunKept'.key.symm.trans hkey.symm)
        (hfresh hdispatched hold' (hrunKept'.workspace.symm.trans hworkspace.symm))
    · rw [hcall] at hcall'
      injection hcall' with _ _ _ hrunId _
      rw [← id_of_run? hrun, ← id_of_run? hrun', hdispatched.id, hdispatched'.id, hrunId]

def RetryFamily.other : RetryFamily → RetryFamily
  | .failure => .operator
  | .operator => .failure

/-- The run of the next ordinal of a family: dispatched, but not adopted. -/
def nextRetry (db : ConversionDatabase) (value : ConversionRecoveryCase) (family : RetryFamily) :
    Option ConversionRun :=
  (db.runs.map (·.run)).find? fun run =>
    decide (run.workspaceId = value.workspaceId) &&
      decide (run.idempotencyKey = retryKey family value.id (value.count family + 1))

/-- A retry of the family would be a new run, while one of the other family that the case has not
    adopted may still complete or has completed. -/
def Blocked (db : ConversionDatabase) (value : ConversionRecoveryCase) (family : RetryFamily) : Prop :=
  nextRetry db value family = none ∧
    (nextRetry db value family.other).any (fun run => decide (¬ Lost run.status)) = true

instance (db : ConversionDatabase) (value : ConversionRecoveryCase) (family : RetryFamily) :
    Decidable (Blocked db value family) :=
  inferInstanceAs (Decidable (_ ∧ _))

variable {value : ConversionRecoveryCase} {family : RetryFamily}

theorem nextRetry_eq_none (hs : Sound db) :
    nextRetry db value family = none ↔
      ∀ id run, db.run? id = some run → ¬ RetryOf value family (value.count family + 1) run := by
  simp only [nextRetry, List.find?_eq_none, List.forall_mem_map, Bool.and_eq_true, decide_eq_true_eq]
  constructor
  · intro h id run hrun
    obtain ⟨row, hrow, rfl⟩ := run?_eq_some.mp hrun
    exact h row (mem_of_find? hrow)
  · intro h row hrow
    exact h row.run.id row.run (hs.stored.run? hrow)

theorem nextRetry_eq_some (hs : Sound db) (hkeys : KeysOnce db) {run : ConversionRun} :
    nextRetry db value family = some run ↔
      db.run? run.id = some run ∧ RetryOf value family (value.count family + 1) run := by
  have hsome : ∀ {run}, nextRetry db value family = some run →
      db.run? run.id = some run ∧ RetryOf value family (value.count family + 1) run := by
    intro run hfind
    obtain ⟨row, hrow, rfl⟩ := List.mem_map.mp (List.mem_of_find?_eq_some hfind)
    have hkeyed := List.find?_some hfind
    simp only [Bool.and_eq_true, decide_eq_true_eq] at hkeyed
    exact ⟨hs.stored.run? hrow, hkeyed⟩
  constructor
  · exact hsome
  · rintro ⟨hrun, hretry⟩
    cases hfind : nextRetry db value family with
    | none => exact absurd hretry ((nextRetry_eq_none hs).mp hfind _ run hrun)
    | some found =>
      obtain ⟨hfound, hretry'⟩ := hsome hfind
      have hid := hkeys _ _ _ _ hrun hfound (hretry.1.trans hretry'.1.symm)
        (hretry.2.trans hretry'.2.symm)
      rw [hid, hfound] at hrun
      rw [Option.some.inj hrun]

theorem RetryFamily.eq_other {family other : RetryFamily} (h : other ≠ family) :
    other = family.other := by
  cases family <;> cases other <;> first | rfl | exact absurd rfl h

theorem RetryFamily.other_ne (family : RetryFamily) : family.other ≠ family := by
  cases family <;> simp [RetryFamily.other]

theorem blocked_iff (hs : Sound db) (hkeys : KeysOnce db) :
    Blocked db value family ↔
      (∀ id run, db.run? id = some run → ¬ RetryOf value family (value.count family + 1) run) ∧
        Contested db value family := by
  refine and_congr (nextRetry_eq_none hs) ?_
  simp only [Option.any_eq_true, decide_eq_true_eq]
  constructor
  · rintro ⟨run, hnext, hlive⟩
    obtain ⟨hrun, hretry⟩ := (nextRetry_eq_some hs hkeys).mp hnext
    exact ⟨run.id, run, family.other, family.other_ne, hrun, hretry, hlive⟩
  · rintro ⟨id, run, other, hother, hrun, hretry, hlive⟩
    obtain rfl := RetryFamily.eq_other hother
    exact ⟨run, (nextRetry_eq_some hs hkeys).mpr ⟨(id_of_run? hrun).symm ▸ hrun, hretry⟩, hlive⟩

/-- Runs that go on, and runs of no interest to the case, block it no more than before. -/
theorem Blocked.of_kept (hs : Sound db) (hkeys : KeysOnce db) (hs' : Sound db')
    (hkeys' : KeysOnce db') (hkept : RunsKept db db') (hadded : NoNewRun db db' value)
    (h : Blocked db' value family) : Blocked db value family := by
  obtain ⟨hnone, id, run', other, hother, hrun', hretry, hlive⟩ := (blocked_iff hs' hkeys').mp h
  refine (blocked_iff hs hkeys).mpr ⟨?_, ?_⟩
  · intro id run hrun hretry
    obtain ⟨run', hrun', hrunKept⟩ := hkept id run hrun
    exact hnone id run' hrun' (RetryOf.kept hrunKept hretry)
  · rcases hadded id run' hrun' with ⟨run, hrun⟩ | hnot
    · obtain ⟨later, hlater, hrunKept⟩ := hkept id run hrun
      obtain rfl := Option.some.inj (hrun'.symm.trans hlater)
      exact ⟨id, run, other, hother, hrun, RetryOf.of_kept hrunKept hretry,
        fun hlost => hlive (hrunKept.lost hlost)⟩
    · exact absurd hretry.runOf hnot

end Dispatch

section Retry

variable {platform : ConversionPlatform} {catalogue : ConversionCatalogue} {s s' : RecoveryStore}
  {value : ConversionRecoveryCase} {by_ : RetryBy} {values : DispatchValues}

/-- What `dispatchRun` has read and done. -/
theorem dispatchRun_spec {result : ManualConversionDispatchResult}
    (h : dispatchRun platform catalogue value by_ values s = .ok (result, s')) :
    (∃ latest, s.conversion.run? value.latestRunId = some latest ∧ Lost latest.status) ∧
      s'.cases = s.cases ∧ ∃ input, input.workspaceId = value.workspaceId ∧
        input.idempotencyKey = retryKey by_.family value.id (value.count by_.family + 1) ∧
        Conversion.dispatchManual platform catalogue input values.now values.runId values.eventId
          s.conversion = .ok (result, s'.conversion) := by
  simp only [dispatchRun, bind_eq_ok, require_eq_ok, pure_eq_ok, Prod.mk.injEq] at h
  obtain ⟨latest, hlatest, _, hlost, actor, -, ⟨_, conversion⟩, hdispatch, rfl, rfl⟩ := h
  exact ⟨⟨latest, (load_eq_ok.mp hlatest).1, hlost⟩, rfl, _, rfl, rfl, hdispatch⟩

/-- The first commit of a retry of a stored case. -/
structure RetryDispatched (s s' : RecoveryStore) (value : ConversionRecoveryCase) (by_ : RetryBy)
    (run : ConversionRun) : Prop where
  recoverable : Recoverable s'
  served : Served s s'
  cases : s'.cases = s.cases
  found : s'.conversion.run? run.id = some run
  retry : RetryOf value by_.family (value.count by_.family + 1) run
  latest : ∃ latest, s'.conversion.run? value.latestRunId = some latest ∧ Lost latest.status
  others : ∀ other ∈ s.cases, other.id ≠ value.id →
    NoNewRun s.conversion s'.conversion other

/-- A dispatched run is of no case but its own. -/
theorem noNewRun_dispatched {db db' : ConversionDatabase} {input : ManualConversionDispatchInput}
    {runId : Id} {run : ConversionRun} (hdispatched : Dispatched db db' input runId run)
    {other : ConversionRecoveryCase} (hother : Tracked db other)
    (hkey : ∀ family ordinal, run.idempotencyKey ≠ retryKey family other.id ordinal) :
    NoNewRun db db' other := by
  intro id run' hrun'
  rw [run?_dispatched hdispatched] at hrun'
  split at hrun'
  · refine Or.inr ?_
    obtain rfl := Option.some.inj hrun'
    rintro ⟨-, hroot | ⟨family, ordinal, hretry⟩⟩
    · obtain ⟨root, hstored, -⟩ := hother.root
      obtain ⟨row, hrow, rfl⟩ := run?_eq_some.mp hstored
      exact hdispatched.fresh row (mem_of_find? hrow) ((id_of_run? hstored).trans hroot.symm)
    · exact hkey family ordinal hretry
  · exact Or.inl ⟨run', hrun'⟩

theorem dispatchRun_retried (h : Recoverable s) (hvalue : value ∈ s.cases)
    (hbudget : by_.family = .failure → value.retryCount < value.maxRetries)
    (hfree : ¬ Blocked s.conversion value by_.family) {result : ManualConversionDispatchResult}
    (hd : dispatchRun platform catalogue value by_ values s = .ok (result, s')) :
    RetryDispatched s s' value by_ result.record.run := by
  obtain ⟨⟨latest, hlatest, hlost⟩, hcases, input, hworkspace, hkey, hmanual⟩ := dispatchRun_spec hd
  have htracked := h.tracked value hvalue
  have htrim : trim input.idempotencyKey = retryKey by_.family value.id (value.count by_.family + 1) := by
    rw [hkey, trim_retryKey]
  rcases dispatchManual_cases hmanual with ⟨hsame, hreplayed⟩ | hdispatched
  · -- the run was dispatched before
    obtain rfl : s' = s := by
      cases s; cases s'; simp_all
    obtain ⟨row, hrow, hrun⟩ := hreplayed.stored
    exact
      { recoverable := h
        served := .refl _
        cases := rfl
        found := hrun ▸ h.sound.stored.run? hrow
        retry := ⟨hreplayed.workspace.trans hworkspace, hreplayed.key.trans htrim⟩
        latest := ⟨latest, hlatest, hlost⟩
        others := fun other _ _ => noNewRun_refl _ other }
  · have hretry : RetryOf value by_.family (value.count by_.family + 1) result.record.run :=
      ⟨hdispatched.workspace.trans hworkspace, hdispatched.key.trans htrim⟩
    have hcall : (perform platform s.conversion
        (.dispatchManual catalogue input values.now values.runId values.eventId)).2 =
          s'.conversion := by
      rw [perform, commit_of_ok]
      simp only [body, bind_eq_ok, pure_eq_ok]
      exact ⟨_, hmanual, rfl⟩
    have hadvances : Advances s.conversion s'.conversion := hcall ▸ perform_advances h.sound _
    have hkeys : KeysOnce s'.conversion := hcall ▸ keysOnce_perform h.sound h.keysOnce _
    have hkept := runsKept_advances hadvances
    have hnone := Tracked.dispatched_fresh hdispatched hretry
    have huncontested : ¬ Contested s.conversion value by_.family :=
      fun hcontested => hfree ((blocked_iff h.sound h.keysOnce).mpr ⟨hnone, hcontested⟩)
    have hothers : ∀ other ∈ s.cases, other.id ≠ value.id →
        NoNewRun s.conversion s'.conversion other := by
      intro other hother hid
      refine noNewRun_dispatched hdispatched (h.tracked other hother) fun family ordinal heq => hid ?_
      exact (retryKey_inj (h.tracked other hother).plain htracked.plain
        (heq.symm.trans hretry.2)).2.1
    have hmine : ∀ other ∈ s.cases, other.id = value.id → other = value :=
      fun other hother hid => h.caseKeys.eq_of_key hother hvalue hid
    refine
      { recoverable :=
          { sound := h.sound.advances hadvances
            keysOnce := hkeys
            caseKeys := hcases ▸ h.caseKeys
            roots := hcases ▸ h.roots
            tracked := ?_
            owned := ?_ }
        served :=
          { kept := hkept
            cases := fun other hother => ⟨other, hcases ▸ hother, .refl other⟩
            ended := ?_ }
        cases := hcases
        found := by rw [run?_dispatched hdispatched, if_pos rfl]
        retry := hretry
        latest := ?_
        others := hothers }
    · intro other hother
      rw [hcases] at hother
      by_cases hid : other.id = value.id
      · obtain rfl := hmine other hother hid
        exact htracked.dispatched hdispatched hkept hretry hlatest hlost hbudget huncontested
      · exact (h.tracked other hother).kept hkept (hothers other hother hid)
    · intro id run' hrun' hretryKey
      rw [hcases]
      rw [run?_dispatched hdispatched] at hrun'
      split at hrun'
      · obtain rfl := Option.some.inj hrun'
        exact ⟨value, hvalue, _, _, hretry⟩
      · exact h.owned id run' hrun' hretryKey
    · rintro other hother ⟨id, run, hrun, hof, hcompleted⟩
      by_cases hid : other.id = value.id
      · obtain rfl := hmine other hother hid
        rcases htracked.allLost hlatest hlost hnone huncontested hrun hof with hfailed | hcancelled
        · rw [hcompleted] at hfailed
          cases hfailed
        · rw [hcompleted] at hcancelled
          cases hcancelled
      · exact hothers other hother hid
    · obtain ⟨latest', hlatest', hrunKept⟩ := hkept _ latest hlatest
      exact ⟨latest', hlatest', hrunKept.lost hlost⟩

/-- What a change of one case leaves: the other cases as they were. -/
structure Touched (s s' : RecoveryStore) (value : ConversionRecoveryCase) : Prop where
  recoverable : Recoverable s'
  served : Served s s'
  others : ∀ other ∈ s.cases, other.id ≠ value.id →
    other ∈ s'.cases ∧ NoNewRun s.conversion s'.conversion other

theorem Persisted.touched (h : Persisted s s' value) : Touched s s' value where
  recoverable := h.recoverable
  served := h.served
  others other hother hid :=
    ⟨h.others other hother hid, h.conversion ▸ noNewRun_refl s.conversion other⟩

theorem RetryDispatched.touched {run : ConversionRun} (h : RetryDispatched s s' value by_ run) :
    Touched s s' value where
  recoverable := h.recoverable
  served := h.served
  others other hother hid := ⟨h.cases ▸ hother, h.others other hother hid⟩

theorem Touched.refl (h : Recoverable s) (value : ConversionRecoveryCase) : Touched s s value where
  recoverable := h
  served := .refl s
  others other hother _ := ⟨hother, noNewRun_refl _ other⟩

theorem Touched.trans {s'' : RecoveryStore} (h : Touched s s' value) (h' : Touched s' s'' value) :
    Touched s s'' value where
  recoverable := h'.recoverable
  served := h.served.trans h'.served
  others other hother hid := by
    obtain ⟨hother', hnone⟩ := h.others other hother hid
    obtain ⟨hother'', hnone'⟩ := h'.others other hother' hid
    refine ⟨hother'', fun id run'' hrun'' => ?_⟩
    rcases hnone' id run'' hrun'' with ⟨run', hrun'⟩ | hnot
    · rcases hnone id run' hrun' with hrun | hnot
      · exact Or.inl hrun
      · obtain ⟨later, hlater, hrunKept⟩ := h'.served.kept id run' hrun'
        obtain rfl := Option.some.inj (hrun''.symm.trans hlater)
        exact Or.inr fun hof => hnot (RunOf.of_kept hrunKept hof)
    · exact Or.inr hnot

theorem sameCase_adopting (value : ConversionRecoveryCase) (by_ : RetryBy) (runId : Id)
    (now : Timestamp) : SameCase value (adoptingCase value by_ runId now) :=
  ⟨rfl, rfl, rfl⟩

variable (platform catalogue)

/-- A retry leaves a recoverable store, whether it adopts its run or not. -/
theorem dispatchRetry_touched (h : Recoverable s) (hvalue : value ∈ s.cases)
    (hbudget : by_.family = .failure → value.retryCount < value.maxRetries)
    (hfree : ¬ Blocked s.conversion value by_.family) {now : Timestamp}
    {outcome : Except RegistryError RetryResult}
    (hretry : dispatchRetry platform catalogue value by_ now values s = (outcome, s')) :
    Touched s s' value ∧ (∀ error, outcome = .error error → value ∈ s'.cases) := by
  unfold dispatchRetry at hretry
  split at hretry
  · obtain ⟨rfl, rfl⟩ := Prod.mk.inj hretry
    exact ⟨.refl h value, fun _ _ => hvalue⟩
  · rename_i dispatch mid hd
    have hdispatched := dispatchRun_retried h hvalue hbudget hfree hd
    have hmid : value ∈ mid.cases := hdispatched.cases ▸ hvalue
    dsimp only at hretry
    split at hretry
    · obtain ⟨rfl, rfl⟩ := Prod.mk.inj hretry
      exact ⟨hdispatched.touched, fun _ _ => hmid⟩
    · rename_i hpersist
      obtain ⟨rfl, rfl⟩ := Prod.mk.inj hretry
      obtain ⟨latest, hlatest, hlost⟩ := hdispatched.latest
      have htracked := (hdispatched.recoverable.tracked value hmid).adopted_next
        hdispatched.recoverable.keysOnce now hdispatched.found hdispatched.retry hlatest hlost
      have hpersisted := persistCase_persisted hdispatched.recoverable hmid
        hpersist (sameCase_adopting value by_ _ now) htracked
      exact ⟨hdispatched.touched.trans hpersisted.touched, fun error herror => by cases herror⟩

theorem dispatchOnly_touched (values : DispatchValues) (h : Recoverable s) (hvalue : value ∈ s.cases)
    (hbudget : by_.family = .failure → value.retryCount < value.maxRetries)
    (hfree : ¬ Blocked s.conversion value by_.family) :
    Touched s (dispatchOnly platform catalogue value by_ values s) value := by
  unfold dispatchOnly
  split
  · rename_i hd
    exact (dispatchRun_retried h hvalue hbudget hfree hd).touched
  · exact .refl h value

/-! ### The third loop -/

theorem retryStep_touched (now : Timestamp) (values : DispatchValues) (h : Recoverable s)
    (hvalue : value ∈ s.cases) (hwaiting : value.state = .waiting)
    (hfree : ¬ Blocked s.conversion value .failure) (counts : ConversionFailureReconciliationResult) :
    Touched s (retryStep platform catalogue now (s, counts) (value, values)).1 value := by
  unfold retryStep
  have hbudget : RetryBy.system.family = .failure → value.retryCount < value.maxRetries :=
    fun _ => (h.tracked value hvalue).budget hwaiting
  cases hretry : dispatchRetry platform catalogue value .system now values s with
  | mk outcome s' =>
    obtain ⟨htouched, hstored⟩ := dispatchRetry_touched platform catalogue h hvalue hbudget hfree hretry
    cases outcome with
    | ok dispatched => exact htouched
    | error error =>
      have hvalue' := hstored error rfl
      dsimp only
      split
      · rename_i hdead
        have htracked := (htouched.recoverable.tracked value hvalue').dead .dispatchFailed now
          (some (dispatchErrorCode error))
        exact htouched.trans
          (persistCase_persisted htouched.recoverable hvalue' hdead ⟨rfl, rfl, rfl⟩ htracked).touched
      · exact htouched

/-- The cases a loop of retries has still to deal with. -/
structure Due (s : RecoveryStore) (due : List ConversionRecoveryCase) : Prop where
  stored : ∀ value ∈ due, value ∈ s.cases
  distinct : (due.map key).Nodup
  waiting : ∀ value ∈ due, value.state = .waiting
  free : ∀ value ∈ due, ¬ Blocked s.conversion value .failure

theorem Due.of_touched (h : Recoverable s) {due : List ConversionRecoveryCase}
    (hdue : Due s (value :: due)) (htouched : Touched s s' value) : Due s' due := by
  have hne : ∀ other ∈ due, other.id ≠ value.id := by
    intro other hother hid
    have hdistinct := hdue.distinct
    rw [List.map_cons, List.nodup_cons] at hdistinct
    exact hdistinct.1 (List.mem_map.mpr ⟨other, hother, hid⟩)
  have hothers := fun other hother =>
    htouched.others other (hdue.stored other (List.mem_cons_of_mem value hother)) (hne other hother)
  refine
    { stored := fun other hother => (hothers other hother).1
      distinct := hdue.distinct.of_cons
      waiting := fun other hother => hdue.waiting other (List.mem_cons_of_mem value hother)
      free := fun other hother hblocked => ?_ }
  have hr := htouched.recoverable
  exact hdue.free other (List.mem_cons_of_mem value hother)
    (hblocked.of_kept h.sound h.keysOnce hr.sound hr.keysOnce htouched.served.kept
      (hothers other hother).2)

/-- The third loop, up to a case it has not come to yet. -/
theorem retryPass_due (now : Timestamp) (due : List (ConversionRecoveryCase × DispatchValues))
    (rest : List ConversionRecoveryCase) {p : PassState} (h : Recoverable p.1)
    (hdue : Due p.1 (due.map (·.1) ++ rest)) :
    Recoverable (retryPass platform catalogue now due p).1 ∧
      Served p.1 (retryPass platform catalogue now due p).1 ∧
      Due (retryPass platform catalogue now due p).1 rest := by
  induction due generalizing p with
  | nil => exact ⟨h, .refl _, hdue⟩
  | cons first due ih =>
    obtain ⟨value, values⟩ := first
    obtain ⟨s, counts⟩ := p
    have htouched := retryStep_touched platform catalogue now values h
      (hdue.stored value (by simp)) (hdue.waiting value (by simp)) (hdue.free value (by simp)) counts
    obtain ⟨hrecoverable, hserved, hrest⟩ := ih htouched.recoverable (hdue.of_touched h htouched)
    exact ⟨hrecoverable, htouched.served.trans hserved, hrest⟩

end Retry

end MarkorbitKnowledge.Recovery
