import MarkorbitKnowledge.Recovery.Passes

/-!
# Safety of conversion failure recovery

The first two loops of a pass change documents of cases only; with the third loop, an operator retry
and the calls on the conversion store this gives the step lemma of `Recoverable`.  It needs that no
retry is dispatched while one of the other family, dispatched but not adopted, may still complete:
the two families share neither an ordinal nor a key, so nothing else stops the second run.
-/

namespace MarkorbitKnowledge.Recovery

open Contracts Conversion Fallible Tables Transitions
open Execution (RegistryError)

/-! ### Selections -/

section Selections

variable {α : Type} {order : α → (Nat ×ₗ Int ×ₗ Timestamp) ×ₗ String} {limit : Nat} {rows : List α}

theorem mem_of_orderedBy {row : α} (h : row ∈ orderedBy order limit rows) : row ∈ rows :=
  (List.perm_insertionSort _ rows).mem_iff.mp (List.mem_of_mem_take h)

theorem nodup_orderedBy {κ : Type} [Keyed α κ] (h : KeysUnique rows) :
    ((orderedBy order limit rows).map key).Nodup := by
  have hsorted := (List.perm_insertionSort (fun left right => order left ≤ order right) rows).map key
  exact (hsorted.nodup_iff.mpr h).sublist ((List.take_sublist limit _).map key)

theorem upTo_sublist (count : Option Nat) : (upTo count rows).Sublist rows := by
  cases count with
  | none => exact List.Sublist.refl rows
  | some count => exact List.take_sublist count rows

end Selections

variable {s s' : RecoveryStore} {value next : ConversionRecoveryCase}

/-! ### The first loop -/

theorem refreshCase_persisted (h : Recoverable s) (hvalue : value ∈ s.cases) {now : Timestamp}
    (hr : refreshCase s value now = .ok (next, s')) : Persisted s s' value := by
  have hsame : Persisted s s value :=
    { recoverable := h, served := .refl s, conversion := rfl, others := fun _ hother _ => hother }
  have hopen : ∀ {latest}, loadRun s value.latestRunId = .ok latest →
      refreshedCase value latest now = .ok next →
      (if next = value then pure (next, s)
        else persistCase s next >>= fun s => pure (next, s)) = .ok (next, s') →
      Persisted s s' value := by
    intro latest hlatest hnext hwritten
    split at hwritten
    · obtain ⟨-, rfl⟩ := Prod.mk.inj (pure_eq_ok.mp hwritten)
      exact hsame
    · simp only [bind_eq_ok, pure_eq_ok, Prod.mk.injEq, true_and] at hwritten
      obtain ⟨_, hpersist, rfl⟩ := hwritten
      obtain ⟨hruns, -⟩ := Tracked.refreshedCase_spec hnext
      exact persistCase_persisted h hvalue hpersist ⟨hruns.id, hruns.workspace, hruns.root⟩
        ((h.tracked value hvalue).refreshed (load_eq_ok.mp hlatest).1 hnext)
  unfold refreshCase at hr
  cases hstate : value.state <;> simp only [hstate, bind_eq_ok] at hr
  case waiting | running =>
    obtain ⟨latest, hlatest, found, hnext, hwritten⟩ := hr
    have hfound : found = next := by
      split at hwritten
      · exact (Prod.mk.inj (pure_eq_ok.mp hwritten)).1
      · simp only [bind_eq_ok, pure_eq_ok, Prod.mk.injEq] at hwritten
        obtain ⟨_, -, hfound, -⟩ := hwritten
        exact hfound
    subst hfound
    exact hopen hlatest hnext hwritten
  case resolved | deadLettered =>
    obtain ⟨-, rfl⟩ := Prod.mk.inj (pure_eq_ok.mp hr)
    exact hsame

/-- What the first two loops of a pass leave. -/
structure Documented (s s' : RecoveryStore) : Prop where
  recoverable : Recoverable s'
  served : Served s s'
  conversion : s'.conversion = s.conversion

theorem Documented.refl (h : Recoverable s) : Documented s s := ⟨h, .refl s, rfl⟩

theorem Documented.trans {s'' : RecoveryStore} (h : Documented s s') (h' : Documented s' s'') :
    Documented s s'' :=
  ⟨h'.recoverable, h.served.trans h'.served, h'.conversion.trans h.conversion⟩

theorem refreshLoop_documented {now : Timestamp} (cases : List ConversionRecoveryCase) {p : PassState}
    (h : Recoverable p.1) (hstored : ∀ value ∈ cases, value ∈ p.1.cases)
    (hdistinct : (cases.map key).Nodup) :
    Documented p.1 (cases.foldl (refreshStep now) p).1 := by
  induction cases generalizing p with
  | nil => exact .refl h
  | cons value rest ih =>
    obtain ⟨hnotMem, hrest⟩ := List.nodup_cons.mp hdistinct
    rw [List.foldl_cons]
    cases hr : refreshCase p.1 value now with
    | error error =>
      have hstep : (refreshStep now p value).1 = p.1 := by simp [refreshStep, hr]
      have hlater := ih (p := refreshStep now p value) (hstep ▸ h)
        (fun other hother => hstep ▸ hstored other (List.mem_cons_of_mem value hother)) hrest
      rwa [hstep] at hlater
    | ok refreshed =>
      obtain ⟨next, s'⟩ := refreshed
      have hstep : (refreshStep now p value).1 = s' := by simp [refreshStep, hr]
      have hpersisted := refreshCase_persisted h (hstored value List.mem_cons_self) hr
      have hlater := ih (p := refreshStep now p value) (hstep ▸ hpersisted.recoverable)
        (fun other hother => by
          rw [hstep]
          refine hpersisted.others other (hstored other (List.mem_cons_of_mem value hother)) ?_
          exact fun hid => hnotMem (List.mem_map.mpr ⟨other, hother, hid⟩)) hrest
      rw [hstep] at hlater
      exact Documented.trans ⟨hpersisted.recoverable, hpersisted.served, hpersisted.conversion⟩ hlater

theorem refreshPass_documented {workspaceId : Id} {limit : Nat} {now : Timestamp} {count : Option Nat}
    {p : PassState} (h : Recoverable p.1) :
    Documented p.1 (refreshPass workspaceId limit now count p).1 := by
  have hsub : (upTo count (openCases p.1 workspaceId limit)).Sublist _ := upTo_sublist count
  refine refreshLoop_documented _ h ?_ ?_
  · intro value hvalue
    exact List.mem_of_mem_filter (mem_of_orderedBy (hsub.subset hvalue))
  · exact (nodup_orderedBy (h.caseKeys.filter _)).sublist (hsub.map key)

/-! ### The second loop -/

/-- A failed run that can be the root of a case. -/
def Rootable (db : ConversionDatabase) (runId : Id) : Prop :=
  ∃ run, db.run? runId = some run ∧ run.status = .failed ∧ isRetryKey run.idempotencyKey = false

theorem candidates_rootable (h : Recoverable s) {workspaceId : Id} {limit : Nat} :
    ∀ runId ∈ failedConversionRecoveryCandidateIds s workspaceId limit,
      Rootable s.conversion runId := by
  intro runId hrunId
  obtain ⟨run, hrun, rfl⟩ := List.mem_map.mp hrunId
  obtain ⟨hmem, hfilter⟩ := List.mem_filter.mp (mem_of_orderedBy hrun)
  obtain ⟨row, hrow, rfl⟩ := List.mem_map.mp hmem
  simp only [Bool.and_eq_true, decide_eq_true_eq, Bool.not_eq_true', List.any_eq_false] at hfilter
  obtain ⟨⟨-, hfailed⟩, hnone⟩ := hfilter
  have hstored := h.sound.stored.run? hrow
  refine ⟨row.run, hstored, hfailed, ?_⟩
  by_contra hkey
  rw [Bool.not_eq_false] at hkey
  -- the run of a retry is left out by the key of its case
  obtain ⟨value, hvalue, family, ordinal, hworkspace, hretry⟩ := h.owned _ _ hstored hkey
  have hlike : likeRetryKey family value.id row.run.idempotencyKey = true := by
    rw [hretry]
    exact likeRetryKey_retryKey family value.id ordinal
  refine hnone value hvalue ?_
  cases family <;> simp [hworkspace, hlike]

theorem createCase_eq_ok {run : ConversionRun} {caseId maxRetries : Nat} {now : Timestamp}
    (hc : createCase s run caseId now maxRetries = .ok (value, s')) :
    ∃ retryAt, value = openedCase run caseId now maxRetries retryAt ∧
      (∀ stored ∈ s.cases, stored.id ≠ value.id) ∧
      (∀ stored ∈ s.cases, stored.rootRunId ≠ value.rootRunId) ∧
      s' = { s with cases := s.cases ++ [value] } := by
  unfold createCase at hc
  dsimp only at hc
  split at hc <;> simp only [bind_eq_ok, require_eq_ok, pure_eq_ok, Prod.mk.injEq] at hc
  · obtain ⟨retryAt, -, _, hid, _, hroot, rfl, rfl⟩ := hc
    exact ⟨retryAt, rfl, hid, hroot, rfl⟩
  · obtain ⟨retryAt, -, _, hid, _, hroot, rfl, rfl⟩ := hc
    exact ⟨retryAt, rfl, hid, hroot, rfl⟩

theorem createCase_documented (h : Recoverable s) {run : ConversionRun} {caseId maxRetries : Nat}
    {now : Timestamp} (hrun : s.conversion.run? run.id = some run) (hfailed : run.status = .failed)
    (hkey : isRetryKey run.idempotencyKey = false)
    (hc : createCase s run caseId now maxRetries = .ok (value, s')) : Documented s s' := by
  obtain ⟨retryAt, rfl, hid, hroot, rfl⟩ := createCase_eq_ok hc
  have hsub : ∀ old ∈ s.cases, old ∈ s.cases ++ [openedCase run caseId now maxRetries retryAt] :=
    fun old hold => List.mem_append_left _ hold
  have hopened : Tracked s.conversion (openedCase run caseId now maxRetries retryAt) := by
    refine Tracked.opened hrun (Or.inl hfailed) hkey fun id stored family ordinal hstored heq => ?_
    have hretryKey : isRetryKey stored.idempotencyKey = true :=
      heq ▸ isRetryKey_retryKey _ ⟨caseId, rfl⟩ _
    obtain ⟨owner, howner, _, _, hretry⟩ := h.owned id stored hstored hretryKey
    have hsame := (retryKey_inj (h.tracked owner howner).plain ⟨caseId, rfl⟩
      (hretry.2.symm.trans heq)).2.1
    exact hid owner howner hsame
  have hnew : ∀ other ∈ s.cases ++ [openedCase run caseId now maxRetries retryAt],
      other ∈ s.cases ∨ other = openedCase run caseId now maxRetries retryAt := by
    simp
  refine ⟨?_, .of_cases rfl fun old hold => ⟨old, hsub old hold, .refl old⟩, rfl⟩
  refine
    { sound := h.sound
      keysOnce := h.keysOnce
      caseKeys := h.caseKeys.append_singleton hid
      roots := ?_
      tracked := ?_
      owned := ?_ }
  · intro one hone other hother heq
    rcases hnew one hone with hone | rfl
    · rcases hnew other hother with hother | rfl
      · exact h.roots one hone other hother heq
      · exact absurd heq (hroot one hone)
    · rcases hnew other hother with hother | rfl
      · exact absurd heq.symm (hroot other hother)
      · rfl
  · intro other hother
    rcases hnew other hother with hother | rfl
    · exact h.tracked other hother
    · exact hopened
  · intro id stored hstored hretryKey
    obtain ⟨owner, howner, hretry⟩ := h.owned id stored hstored hretryKey
    exact ⟨owner, hsub owner howner, hretry⟩

theorem discoverStep_documented {now : Timestamp} {maxRetries : Nat} {p : PassState}
    {candidate : Id × Nat} (h : Recoverable p.1) (hroot : Rootable p.1.conversion candidate.1) :
    Documented p.1 (discoverStep now maxRetries p candidate).1 := by
  unfold discoverStep
  dsimp only
  split
  · rename_i hcreated
    simp only [bind_eq_ok] at hcreated
    obtain ⟨run, hload, hcreate⟩ := hcreated
    obtain ⟨stored, hstored, hfailed, hkey⟩ := hroot
    obtain rfl := Option.some.inj (hstored.symm.trans (load_eq_ok.mp hload).1)
    have hid := id_of_run? hstored
    exact createCase_documented h (hid.symm ▸ hstored) hfailed hkey hcreate
  · exact .refl h

theorem discoverLoop_documented {now : Timestamp} {maxRetries : Nat} (candidates : List (Id × Nat))
    {p : PassState} (h : Recoverable p.1)
    (hroots : ∀ candidate ∈ candidates, Rootable p.1.conversion candidate.1) :
    Documented p.1 (candidates.foldl (discoverStep now maxRetries) p).1 := by
  induction candidates generalizing p with
  | nil => exact .refl h
  | cons candidate rest ih =>
    have hstep : Documented p.1 (discoverStep now maxRetries p candidate).1 :=
      discoverStep_documented h (hroots candidate List.mem_cons_self)
    refine hstep.trans (ih hstep.recoverable fun other hother => ?_)
    rw [hstep.conversion]
    exact hroots other (List.mem_cons_of_mem candidate hother)

theorem discoverPass_documented {workspaceId : Id} {limit maxRetries : Nat} {now : Timestamp}
    {caseIds : Nat → Nat} {count : Option Nat} {p : PassState} (h : Recoverable p.1) :
    Documented p.1 (discoverPass workspaceId limit maxRetries now caseIds count p).1 := by
  refine discoverLoop_documented _ h fun candidate hcandidate => ?_
  obtain ⟨i, hi, rfl⟩ := List.mem_mapIdx.mp ((upTo_sublist count).subset hcandidate)
  exact candidates_rootable h _ (List.getElem_mem hi)

/-! ### Calls -/

/-- The store in which the third loop of a pass starts. -/
def foundBy (workspaceId : Id) (limit maxRetries : Nat) (now : Timestamp) (caseIds : Nat → Nat)
    (s : RecoveryStore) : PassState :=
  discoverPass workspaceId limit maxRetries now caseIds none
    (refreshPass workspaceId limit now none (s, .empty))

/-- The due cases a pass comes to before it ends. -/
def reached {α : Type} : Option PassCrash → List α → List α
  | none, due => due
  | some (.refreshing _), _ => []
  | some (.discovering _), _ => []
  | some (.retrying count), due => due.take count
  | some (.adopting count), due => due.take (count + 1)

/-- The call comes to no blocked case that it may retry, and dispatches no other run under the key of a
    retry. -/
def unconflicted (s : RecoveryStore) : RecoveryCall → Bool
  | .conversion (.dispatchManual _ input _ _ _) => !isRetryKey (trim input.idempotencyKey)
  | .conversion _ => true
  | .reconcile workspaceId options values crash =>
    match normalizedLimit options.limit, normalizedMaxRetries options.maxRetries with
    | .ok limit, .ok maxRetries =>
      (reached crash (dueCases
        (foundBy workspaceId limit maxRetries options.now values.caseIds s).1 workspaceId options.now
        limit)).all fun value => decide (¬ Blocked s.conversion value .failure)
    | _, _ => true
  | .retryNow recoveryCaseId input _ _ _ _ =>
    match retryableCase s recoveryCaseId input with
    | .ok (value, _) => decide (¬ Blocked s.conversion value .operator)
    | .error _ => true

section Calls

variable {platform : ConversionPlatform}

theorem foundBy_documented (h : Recoverable s) {workspaceId : Id} {limit maxRetries : Nat}
    {now : Timestamp} {caseIds : Nat → Nat} :
    Documented s (foundBy workspaceId limit maxRetries now caseIds s).1 :=
  (refreshPass_documented (p := (s, .empty)) h).trans
    (discoverPass_documented (refreshPass_documented (p := (s, .empty)) h).recoverable)

theorem dueDispatches_map (workspaceId : Id) (limit : Nat) (now : Timestamp)
    (dispatches : Nat → DispatchValues) (s : RecoveryStore) :
    (dueDispatches workspaceId limit now dispatches s).map (·.1) =
      dueCases s workspaceId now limit := by
  refine List.ext_getElem (by simp [dueDispatches]) fun i _ _ => ?_
  simp [dueDispatches]

theorem due_of_free (h : Recoverable s) {workspaceId : Id} {now : Timestamp} {limit : Nat}
    {due : List ConversionRecoveryCase} (hsub : due.Sublist (dueCases s workspaceId now limit))
    (hfree : ∀ value ∈ due, ¬ Blocked s.conversion value .failure) : Due s due := by
  have hmem : ∀ value ∈ due, value ∈ s.cases ∧ value.state = .waiting := by
    intro value hvalue
    obtain ⟨hstored, hfilter⟩ := List.mem_filter.mp (mem_of_orderedBy (hsub.subset hvalue))
    simp only [Bool.and_eq_true, decide_eq_true_eq] at hfilter
    exact ⟨hstored, hfilter.1.2⟩
  exact
    { stored := fun value hvalue => (hmem value hvalue).1
      distinct := (nodup_orderedBy (h.caseKeys.filter _)).sublist (hsub.map key)
      waiting := fun value hvalue => (hmem value hvalue).2
      free := hfree }

/-- A call leaves a recoverable store and serves the cases of the earlier one. -/
structure Kept (s s' : RecoveryStore) : Prop where
  recoverable : Recoverable s'
  served : Served s s'

theorem Documented.kept (h : Documented s s') : Kept s s' := ⟨h.recoverable, h.served⟩

theorem Kept.trans {s'' : RecoveryStore} (h : Kept s s') (h' : Kept s' s'') : Kept s s'' :=
  ⟨h'.recoverable, h.served.trans h'.served⟩

theorem conversion_kept (h : Recoverable s) (call : ConversionCall)
    (hcall : unconflicted s (.conversion call) = true) :
    Kept s (recoveryStep platform s (.conversion call)) := by
  have hadvances : Advances s.conversion (perform platform s.conversion call).2 :=
    perform_advances h.sound call
  have hkept := runsKept_advances hadvances
  have hplain : ∀ {catalogue input now runId eventId run'},
      call = .dispatchManual catalogue input now runId eventId →
      Dispatched s.conversion (perform platform s.conversion call).2 input runId run' →
      isRetryKey run'.idempotencyKey = false := by
    intro catalogue input now runId eventId run' heq hdispatched
    rw [heq] at hcall
    rw [hdispatched.key]
    simpa [unconflicted] using hcall
  have hothers : ∀ other ∈ s.cases,
      NoNewRun s.conversion (perform platform s.conversion call).2 other := by
    intro other hother id run' hrun'
    rcases run_added call hrun' with hold | ⟨_, input, _, runId, _, heq, hdispatched⟩
    · exact Or.inl hold
    · refine noNewRun_dispatched hdispatched (h.tracked other hother) (fun family ordinal hkey => ?_)
        id run' hrun'
      have hretryKey := isRetryKey_retryKey family (h.tracked other hother).plain ordinal
      rw [← hkey, hplain heq hdispatched] at hretryKey
      cases hretryKey
  refine ⟨?_, hkept, fun other hother => ⟨other, hother, .refl other⟩, fun other hother _ =>
    hothers other hother⟩
  exact
    { sound := h.sound.advances hadvances
      keysOnce := keysOnce_perform h.sound h.keysOnce call
      caseKeys := h.caseKeys
      roots := h.roots
      tracked := fun other hother => (h.tracked other hother).kept hkept (hothers other hother)
      owned := by
        intro id run' hrun' hretryKey
        rcases run_added call hrun' with ⟨run, hrun⟩ | ⟨_, _, _, _, _, heq, hdispatched⟩
        · obtain ⟨later, hlater, hrunKept⟩ := hkept id run hrun
          obtain rfl := Option.some.inj (hlater.symm.trans hrun')
          obtain ⟨owner, howner, family, ordinal, hretry⟩ :=
            h.owned id run hrun (hrunKept.key ▸ hretryKey)
          exact ⟨owner, howner, family, ordinal, hretry.kept hrunKept⟩
        · rw [hplain heq hdispatched] at hretryKey
          cases hretryKey }

theorem reconcile_kept (platform : ConversionPlatform) (h : Recoverable s) {workspaceId : Id} {limit maxRetries : Nat}
    {now : Timestamp} (values : PassValues) (crash : Option PassCrash)
    (hfree : ∀ value ∈ reached crash (dueCases
      (foundBy workspaceId limit maxRetries now values.caseIds s).1 workspaceId now limit),
        ¬ Blocked s.conversion value .failure) :
    Kept s (match crash with
      | none =>
        (retryPass platform values.catalogue now
          (dueDispatches workspaceId limit now values.dispatches
            (foundBy workspaceId limit maxRetries now values.caseIds s).1)
          (foundBy workspaceId limit maxRetries now values.caseIds s)).1
      | some crash => crashedPass platform workspaceId limit maxRetries now values s crash) := by
  have hfound : Documented s (foundBy workspaceId limit maxRetries now values.caseIds s).1 :=
    foundBy_documented h
  have hmap := dueDispatches_map workspaceId limit now values.dispatches
    (foundBy workspaceId limit maxRetries now values.caseIds s).1
  rw [← hfound.conversion] at hfree
  cases crash with
  | none =>
    have hdue := due_of_free hfound.recoverable (List.Sublist.refl _) hfree
    have hloop := retryPass_due platform values.catalogue now
      (dueDispatches workspaceId limit now values.dispatches _) [] hfound.recoverable
      (by rw [hmap, List.append_nil]; exact hdue)
    exact hfound.kept.trans ⟨hloop.1, hloop.2.1⟩
  | some crash =>
    cases crash with
    | refreshing count => exact (refreshPass_documented (p := (s, .empty)) h).kept
    | discovering count =>
      have hrefreshed : Documented s (refreshPass workspaceId limit now none (s, .empty)).1 :=
        refreshPass_documented (p := (s, .empty)) h
      exact (hrefreshed.trans (discoverPass_documented hrefreshed.recoverable)).kept
    | retrying count =>
      have hdue := due_of_free hfound.recoverable (List.take_sublist count _) hfree
      have hloop := retryPass_due platform values.catalogue now
        ((dueDispatches workspaceId limit now values.dispatches _).take count) [] hfound.recoverable
        (by rw [List.map_take, hmap, List.append_nil]; exact hdue)
      exact hfound.kept.trans ⟨hloop.1, hloop.2.1⟩
    | adopting count =>
      have hdue := due_of_free hfound.recoverable (List.take_sublist (count + 1) _) hfree
      rw [List.take_add_one] at hdue
      have hloop := retryPass_due platform values.catalogue now
        ((dueDispatches workspaceId limit now values.dispatches _).take count)
        ((dueCases _ workspaceId now limit)[count]?).toList hfound.recoverable
        (by rw [List.map_take, hmap]; exact hdue)
      have hnext := congrArg (·[count]?) hmap
      simp only [List.getElem?_map] at hnext
      refine hfound.kept.trans ?_
      dsimp only [crashedPass]
      obtain ⟨hrecoverable, hserved, hlast⟩ := hloop
      split
      · exact ⟨hrecoverable, hserved⟩
      · rename_i value dispatch hsome
        change (dueDispatches workspaceId limit now values.dispatches
          (foundBy workspaceId limit maxRetries now values.caseIds s).1)[count]? = _ at hsome
        rw [hsome] at hnext
        rw [← hnext] at hlast
        have hmem : value ∈ (Option.map (·.1) (some (value, dispatch))).toList := by simp
        have hbudget : RetryBy.system.family = .failure → value.retryCount < value.maxRetries :=
          fun _ => (hrecoverable.tracked value (hlast.stored value hmem)).budget
            (hlast.waiting value hmem)
        have htouched := dispatchOnly_touched platform values.catalogue dispatch hrecoverable
          (hlast.stored value hmem) hbudget (hlast.free value hmem)
        exact ⟨htouched.recoverable, hserved.trans htouched.served⟩

theorem retryableCase_eq_ok {recoveryCaseId : String} {input : OperatorRetryInput} {actor : String}
    (h : retryableCase s recoveryCaseId input = .ok (value, actor)) :
    getCase s recoveryCaseId input.workspaceId = some value := by
  simp only [retryableCase, bind_eq_ok, orThrow_eq_ok, require_eq_ok, pure_eq_ok,
    Prod.mk.injEq] at h
  obtain ⟨_, -, _, hcase, _, -, rfl, -⟩ := h
  exact hcase

/-- The step lemma: a call that dispatches no contested retry keeps the store recoverable. -/
theorem recoveryStep_kept (h : Recoverable s) (call : RecoveryCall)
    (hcall : unconflicted s call = true) : Kept s (recoveryStep platform s call) := by
  have hsame : Kept s s := ⟨h, .refl s⟩
  cases call with
  | conversion call => exact conversion_kept h call hcall
  | reconcile workspaceId options values crash =>
    simp only [unconflicted] at hcall
    cases hlimit : normalizedLimit options.limit with
    | error error =>
      cases crash with
      | none => simpa [recoveryStep, reconcileConversionFailures, hlimit] using hsame
      | some crash => simpa [recoveryStep, hlimit] using hsame
    | ok limit =>
      cases hmax : normalizedMaxRetries options.maxRetries with
      | error error =>
        cases crash with
        | none => simpa [recoveryStep, reconcileConversionFailures, hlimit, hmax] using hsame
        | some crash => simpa [recoveryStep, hlimit, hmax] using hsame
      | ok maxRetries =>
        simp only [hlimit, hmax, List.all_eq_true, decide_eq_true_eq] at hcall
        have hkept := reconcile_kept platform h values crash hcall
        cases crash with
        | none =>
          simp only [recoveryStep, reconcileConversionFailures, hlimit, hmax]
          exact hkept
        | some crash =>
          simp only [recoveryStep, hlimit, hmax]
          exact hkept
  | retryNow recoveryCaseId input catalogue now values crash =>
    cases hcase : retryableCase s recoveryCaseId input with
    | error error =>
      cases crash <;>
        simpa [recoveryStep, retryConversionRecoveryCaseNow, hcase] using hsame
    | ok found =>
      obtain ⟨value, actor⟩ := found
      have hget := retryableCase_eq_ok hcase
      have hvalue : value ∈ s.cases := List.mem_of_find?_eq_some hget
      have hfree : ¬ Blocked s.conversion value .operator := by
        simpa [unconflicted, hcase] using hcall
      have hbudget : (RetryBy.operator actor).family = .failure →
          value.retryCount < value.maxRetries := fun hfamily => by cases hfamily
      cases crash with
      | false =>
        simp only [recoveryStep, retryConversionRecoveryCaseNow, hcase]
        have htouched := (dispatchRetry_touched platform catalogue h hvalue hbudget hfree
          (rfl : dispatchRetry platform catalogue value _ now values s = _)).1
        exact ⟨htouched.recoverable, htouched.served⟩
      | true =>
        simp only [recoveryStep, hcase]
        have htouched := dispatchOnly_touched platform catalogue values h hvalue hbudget hfree
        exact ⟨htouched.recoverable, htouched.served⟩

theorem recoverable_init : Recoverable (recovery platform).init where
  sound := sound_empty
  keysOnce _ _ _ _ hrun := by cases hrun
  caseKeys := List.nodup_nil
  roots _ hvalue := by cases hvalue
  tracked _ hvalue := by cases hvalue
  owned _ _ hrun := by cases hrun

theorem recoverable_run {calls : List RecoveryCall}
    (h : (recovery platform).Throughout (fun s call => unconflicted s call = true)
      (recovery platform).init calls) : Recoverable ((recovery platform).run calls) :=
  Machine.runFrom_invariant_of (P := Recoverable)
    (fun _ call hs hcall => (recoveryStep_kept hs call hcall).recoverable) recoverable_init h

/-! ### The results -/

/-- A run is named by the document of a case. -/
def Member (value : ConversionRecoveryCase) (runId : Id) : Prop :=
  runId = value.rootRunId ∨ runId = value.latestRunId ∨ runId ∈ value.replacementRunIds

theorem Tracked.latest_runOf {db : ConversionDatabase} (h : Tracked db value) :
    ∃ run, db.run? value.latestRunId = some run ∧ RunOf value run := by
  obtain ⟨run, hrun, hworkspace, hroot | ⟨family, ordinal, -, hretry⟩⟩ := h.latest
  · exact ⟨run, hrun, hworkspace, Or.inl ((id_of_run? hrun).trans hroot)⟩
  · exact ⟨run, hrun, hretry.runOf⟩

theorem Tracked.runOf_of_member {db : ConversionDatabase} (h : Tracked db value) {runId : Id}
    (hmember : Member value runId) : ∃ run, db.run? runId = some run ∧ RunOf value run := by
  rcases hmember with rfl | rfl | hmem
  · obtain ⟨run, hrun, hworkspace, -, -⟩ := h.root
    exact ⟨run, hrun, hworkspace, Or.inl (id_of_run? hrun)⟩
  · exact h.latest_runOf
  · obtain ⟨run, family, ordinal, hrun, hretry⟩ := h.adopted runId hmem
    exact ⟨run, hrun, hretry.runOf⟩

/-- A run is of one case only. -/
theorem Recoverable.case_unique (h : Recoverable s) {other : ConversionRecoveryCase}
    (hvalue : value ∈ s.cases) (hother : other ∈ s.cases) {id : Id} {run : ConversionRun}
    (hrun : s.conversion.run? id = some run) (hof : RunOf value run) (hof' : RunOf other run) :
    value = other := by
  refine h.caseKeys.eq_of_key hvalue hother ?_
  have htracked := h.tracked value hvalue
  have htracked' := h.tracked other hother
  -- the root of a case is under no key of a retry
  have hroot : ∀ {one two : ConversionRecoveryCase}, Tracked s.conversion one → PlainId two.id →
      run.id = one.rootRunId → ∀ family ordinal, run.idempotencyKey ≠ retryKey family two.id ordinal := by
    intro one two hone htwo hid family ordinal hkey
    obtain ⟨root, hstored, -, -, hplain⟩ := hone.root
    rw [← hid, id_of_run? hrun, hrun] at hstored
    obtain rfl := Option.some.inj hstored
    have hretryKey := isRetryKey_retryKey family htwo ordinal
    rw [← hkey, hplain] at hretryKey
    cases hretryKey
  rcases hof.2 with hid | ⟨family, ordinal, hkey⟩
  · rcases hof'.2 with hid' | ⟨family', ordinal', hkey'⟩
    · exact h.roots value hvalue other hother (hid.symm.trans hid')
    · exact absurd hkey' (hroot htracked htracked'.plain hid family' ordinal')
  · rcases hof'.2 with hid' | ⟨family', ordinal', hkey'⟩
    · exact absurd hkey (hroot htracked' htracked.plain hid' family ordinal)
    · exact (retryKey_inj htracked.plain htracked'.plain (hkey.symm.trans hkey')).2.1

/-- The ordinals of the retries of a family tell their runs apart. -/
theorem Recoverable.retries_le (h : Recoverable s) (hvalue : value ∈ s.cases) {ids : List Id}
    (hnodup : ids.Nodup)
    (hids : ∀ id ∈ ids, ∃ run ordinal, s.conversion.run? id = some run ∧
      RetryOf value .failure ordinal run) : ids.length ≤ value.maxRetries := by
  choose! run ordinal hrun hretry using hids
  have hinj : ∀ id ∈ ids, ∀ id' ∈ ids, ordinal id = ordinal id' → id = id' := by
    intro id hid id' hid' heq
    refine h.keysOnce id id' _ _ (hrun id hid) (hrun id' hid')
      ((hretry id hid).1.trans (hretry id' hid').1.symm) ?_
    rw [(hretry id hid).2, (hretry id' hid').2, heq]
  have hsub : ids.map ordinal ⊆ List.range' 1 value.maxRetries := by
    intro n hn
    obtain ⟨id, hid, rfl⟩ := List.mem_map.mp hn
    obtain ⟨hlow, -, hmax⟩ :=
      (h.tracked value hvalue).ordinals id _ _ _ (hrun id hid) (hretry id hid)
    have hhigh := hmax rfl
    rw [List.mem_range'_1]
    omega
  have hlength := (List.subperm_of_subset (hnodup.map_on hinj) hsub).length_le
  simpa using hlength

/-- Of a store of recovery cases: no failed run is of two cases, no case has two runs that are not
    terminal, the automatic retries stay in the budget, and a resolved case has a completed run. -/
structure CasesSafe (s : RecoveryStore) : Prop where
  oneCase : ∀ value ∈ s.cases, ∀ other ∈ s.cases, ∀ id run, s.conversion.run? id = some run →
    run.status = .failed → Member value id → Member other id → value = other
  oneLive : ∀ value ∈ s.cases, ∀ id id' run run', s.conversion.run? id = some run →
    s.conversion.run? id' = some run' → RunOf value run → RunOf value run' →
    ¬ TerminalStatus run.status → ¬ TerminalStatus run'.status → id = id'
  budget : ∀ value ∈ s.cases, ∀ ids : List Id, ids.Nodup →
    (∀ id ∈ ids, ∃ run ordinal, s.conversion.run? id = some run ∧
      RetryOf value .failure ordinal run) → ids.length ≤ value.maxRetries
  resolved : ∀ value ∈ s.cases, value.state = .resolved → Completed s.conversion value

theorem Recoverable.casesSafe (h : Recoverable s) : CasesSafe s where
  oneCase value hvalue other hother id run hrun _ hmember hmember' := by
    obtain ⟨found, hfound, hof⟩ := (h.tracked value hvalue).runOf_of_member hmember
    obtain ⟨found', hfound', hof'⟩ := (h.tracked other hother).runOf_of_member hmember'
    obtain rfl := Option.some.inj (hrun.symm.trans hfound)
    obtain rfl := Option.some.inj (hrun.symm.trans hfound')
    exact h.case_unique hvalue hother hrun hof hof'
  oneLive value hvalue id id' run run' hrun hrun' hof hof' hlive hlive' :=
    (h.tracked value hvalue).oneLive id id' run run' hrun hrun' hof hof'
      (fun hlost => hlive hlost.terminal) fun hlost => hlive' hlost.terminal
  budget value hvalue ids hnodup hids := h.retries_le hvalue hnodup hids
  resolved value hvalue hstate := by
    obtain ⟨run, hrun, hcompleted⟩ := (h.tracked value hvalue).resolved hstate
    obtain ⟨found, hfound, hof⟩ := (h.tracked value hvalue).latest_runOf
    obtain rfl := Option.some.inj (hrun.symm.trans hfound)
    exact ⟨_, run, hrun, hof, hcompleted⟩

/-- In every run whose calls dispatch no contested retry, the cases are safe after every call, and no
    call dispatches a further run of a case that has a completed one. -/
theorem recovery_safe (platform : ConversionPlatform) (calls : List RecoveryCall)
    (h : (recovery platform).Throughout (fun s call => unconflicted s call = true)
      (recovery platform).init calls) :
    CasesSafe ((recovery platform).run calls) ∧
      ∀ before call after, calls = before ++ call :: after →
        CasesSafe ((recovery platform).run before) ∧
          ∀ value ∈ ((recovery platform).run before).cases,
            Completed ((recovery platform).run before).conversion value →
            NoNewRun ((recovery platform).run before).conversion
              ((recovery platform).run (before ++ [call])).conversion value := by
  refine ⟨(recoverable_run h).casesSafe, ?_⟩
  rintro before call after rfl
  obtain ⟨hbefore, hcall⟩ := h.split
  have hrecoverable := recoverable_run hbefore
  refine ⟨hrecoverable.casesSafe, ?_⟩
  rw [Machine.run_concat]
  exact (recoveryStep_kept hrecoverable call hcall).served.ended

end Calls

/-! ### Two retries of one case -/

def sampleFailed : ConversionCall :=
  .submitReport
    { sampleReport (.failed { code := "CONVERTER_TIMEOUT", message := "no answer" }) with
      id := 41, idempotencyKey := "failed", expectedCurrentStatus := .running }
    { worker := .ok 1, now := 0, eventId := 4, storedAt := 0 }

/-- A pass at an instant, with the number of the run it dispatches first. -/
def samplePass (now : Timestamp) (runId : Id) (crash : Option PassCrash) : RecoveryCall :=
  .reconcile 1 { limit := none, maxRetries := none, now }
    { catalogue := sampleCatalogue, caseIds := fun i => 60 + i
      dispatches := fun i => { now, runId := runId + i, eventId := runId + i } } crash

def sampleRetry (now : Timestamp) (runId : Id) : RecoveryCall :=
  .retryNow (idText "crc" 60) { workspaceId := 1, actorId := "operator" } sampleCatalogue now
    { now, runId, eventId := runId } false

/-- The dispatched run fails, and a pass opens its case. -/
def sampleFailure : List RecoveryCall :=
  [.conversion sampleDispatch, .conversion sampleClaim, .conversion sampleStart,
    .conversion sampleFailed, samplePass 0 70 none]

/-- A pass ends between the dispatch of an automatic retry and its adoption; the operator's retry is
    under a key of its own, so the case has two runs that are not terminal. -/
theorem retried_twice :
    let s := (recovery sampleDigests).run
      (sampleFailure ++ [samplePass 60000 70 (some (.adopting 0)), sampleRetry 60001 80])
    ∃ value ∈ s.cases, ∃ run ∈ s.conversion.runs.map (·.run), ∃ run' ∈ s.conversion.runs.map (·.run),
      RetryOf value .failure 1 run ∧ RetryOf value .operator 1 run' ∧ run.status = .pending ∧
        run'.status = .pending ∧ run.id ≠ run'.id := by
  decide +kernel

def sampleRecovery : List RecoveryCall :=
  sampleFailure ++ [samplePass 60000 70 none,
    .conversion (.cancel 70 { workspaceId := 1, actor := none, message := none } 60001 90),
    samplePass 60002 80 none, sampleRetry 60003 91]

theorem sampleRecovery_safe : CasesSafe ((recovery sampleDigests).run sampleRecovery) :=
  (recovery_safe sampleDigests sampleRecovery (by decide +kernel)).1

end MarkorbitKnowledge.Recovery
