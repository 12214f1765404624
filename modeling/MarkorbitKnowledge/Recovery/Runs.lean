import MarkorbitKnowledge.Conversion.Agreement
import MarkorbitKnowledge.Conversion.Frame
import MarkorbitKnowledge.Lib.Delimited
import MarkorbitKnowledge.Recovery.Cases
import Mathlib.Data.List.Infix

/-!
# The runs of a recovery case

The key of a retry tells its family, its case and its ordinal, so a run belongs to at most one case.
A run keeps what identifies it, and its status once it is terminal, whatever call is made on the
conversion store.
-/

namespace MarkorbitKnowledge.Recovery

open Contracts Conversion Fallible Tables Transitions
open Execution (RegistryError)

/-! ### Keys -/

/-- A case id as `recoveryCaseId` writes it. -/
def PlainId (caseId : String) : Prop := ∃ n : Nat, caseId = idText "crc" n

theorem PlainId.colon {caseId : String} (h : PlainId caseId) : ':' ∉ caseId.toList := by
  obtain ⟨n, rfl⟩ := h
  have hleading : ("crc" : String).toList = ['c', 'r', 'c'] := rfl
  have hcolon : ':' ∉ CROCKFORD := by decide
  rw [toList_idText, hleading]
  simp only [List.cons_append, List.nil_append, List.mem_cons, not_or]
  exact ⟨by decide, by decide, by decide, by decide, fun hmem => hcolon (mem_encodeBase32 _ hmem)⟩

theorem colon_family (family : RetryFamily) : ':' ∉ family.text.toList := by
  cases family <;> decide

theorem toList_retryKey (family : RetryFamily) (caseId : String) (ordinal : Nat) :
    (retryKey family caseId ordinal).toList =
      family.text.toList ++ ':' :: (caseId.toList ++ ':' :: Nat.toDigits 10 ordinal) := by
  simp [retryKey]

theorem retryKey_inj {family family' : RetryFamily} {caseId caseId' : String} {n n' : Nat}
    (hid : PlainId caseId) (hid' : PlainId caseId')
    (h : retryKey family caseId n = retryKey family' caseId' n') :
    family = family' ∧ caseId = caseId' ∧ n = n' := by
  have hlist := congrArg String.toList h
  rw [toList_retryKey, toList_retryKey] at hlist
  obtain ⟨htext, hrest⟩ := Delimited.append_sep_inj (colon_family family) (colon_family family') hlist
  obtain ⟨hcase, hdigits⟩ := Delimited.append_sep_inj hid.colon hid'.colon hrest
  refine ⟨?_, String.toList_inj.mp hcase, toDigits_injective hdigits⟩
  cases family <;> cases family' <;> first | rfl | exact absurd htext (by decide)

theorem trim_retryKey (family : RetryFamily) (caseId : String) (ordinal : Nat) :
    trim (retryKey family caseId ordinal) = retryKey family caseId ordinal := by
  refine trim_eq_self ?_ ?_
  · intro c hc
    have hfirst : c = 'f' ∨ c = 'o' := by
      rw [toList_retryKey] at hc
      cases family
      · exact Or.inl (Option.some.inj hc).symm
      · exact Or.inr (Option.some.inj hc).symm
    rcases hfirst with rfl | rfl <;> decide
  · intro c hc
    have hdigits : (Nat.toDigits 10 ordinal).getLast? = some c := by
      have hne : Nat.toDigits 10 ordinal ≠ [] := Nat.toDigits_ne_nil
      have hsplit : (retryKey family caseId ordinal).toList =
          (family.text.toList ++ ':' :: (caseId.toList ++ [':'])) ++ Nat.toDigits 10 ordinal := by
        rw [toList_retryKey]
        simp
      rw [hsplit, List.getLast?_append_of_ne_nil _ hne] at hc
      exact hc
    have hmem := List.mem_of_getLast? hdigits
    have hdigit := Nat.isDigit_of_mem_toDigits (by decide) (by decide) hmem
    exact isJsSpace_of_isAlnum (by simp [isAlnum, isLowerAlnum, hdigit])

theorem likePrefix_append (pattern rest : List Char) : likePrefix pattern (pattern ++ rest) = true := by
  induction pattern with
  | nil => rfl
  | cons c pattern ih => simp [likePrefix, ih]

/-- The pattern of a case matches the keys of its retries. -/
theorem likeRetryKey_retryKey (family : RetryFamily) (caseId : String) (ordinal : Nat) :
    likeRetryKey family caseId (retryKey family caseId ordinal) = true := by
  have hsplit : (retryKey family caseId ordinal).toList =
      (family.text ++ ":" ++ caseId ++ ":").toList ++ Nat.toDigits 10 ordinal := by
    rw [toList_retryKey]
    simp
  rw [likeRetryKey, hsplit]
  exact likePrefix_append _ _

/-- A key of a retry: a family, the id of a case and an ordinal. -/
def isRetryKey (idempotencyKey : String) : Bool :=
  match idempotencyKey.toList.splitOn ':' with
  | [family, caseId, ordinal] =>
    [RetryFamily.failure, .operator].any (fun known => known.text.toList == family) &&
      decide ("crc_".toList <+: caseId) && caseId.length == 30 && ordinal.all Char.isDigit
  | _ => false

theorem isRetryKey_retryKey (family : RetryFamily) {caseId : String} (hid : PlainId caseId)
    (ordinal : Nat) : isRetryKey (retryKey family caseId ordinal) = true := by
  have hdigits : ∀ c ∈ Nat.toDigits 10 ordinal, c.isDigit = true :=
    fun _ hc => Nat.isDigit_of_mem_toDigits (by decide) (by decide) hc
  have hcolon : ':' ∉ Nat.toDigits 10 ordinal := fun hmem => absurd (hdigits ':' hmem) (by decide)
  have hparts : (retryKey family caseId ordinal).toList.splitOn ':' =
      [family.text.toList, caseId.toList, Nat.toDigits 10 ordinal] := by
    rw [toList_retryKey, List.splitOn_append_cons_self, List.splitOn_append_cons_self,
      List.splitOn_eq_singleton (colon_family family), List.splitOn_eq_singleton hid.colon,
      List.splitOn_eq_singleton hcolon]
    rfl
  obtain ⟨n, rfl⟩ := hid
  have hleading : "crc_".toList <+: (idText "crc" n).toList := by
    have hstem : "crc_".toList = "crc".toList ++ ['_'] := by decide
    rw [toList_idText, hstem]
    exact ⟨encodeBase32 n 26, by simp⟩
  have hlength : (idText "crc" n).toList.length = 30 := by
    simp [toList_idText, length_encodeBase32]
  have hknown : [RetryFamily.failure, .operator].any
      (fun known => known.text.toList == family.text.toList) = true := by
    cases family <;> decide
  have hall : (Nat.toDigits 10 ordinal).all Char.isDigit = true := List.all_eq_true.mpr hdigits
  rw [isRetryKey, hparts]
  dsimp only
  rw [hknown, decide_eq_true hleading, hlength, hall]
  rfl

/-! ### Statuses -/

/-- The status of a run that a retry may replace. -/
def Lost (status : ConversionRunStatus) : Prop := status = .failed ∨ status = .cancelled

instance (status : ConversionRunStatus) : Decidable (Lost status) := inferInstanceAs (Decidable (_ ∨ _))

theorem Lost.terminal {status : ConversionRunStatus} (h : Lost status) : TerminalStatus status := by
  rcases h with h | h
  · exact Or.inr (Or.inl h)
  · exact Or.inr (Or.inr h)

/-- What a later document of a run keeps of an earlier one. -/
structure RunKept (run run' : ConversionRun) : Prop where
  id : run'.id = run.id
  workspace : run'.workspaceId = run.workspaceId
  key : run'.idempotencyKey = run.idempotencyKey
  terminal : TerminalStatus run.status → run'.status = run.status

namespace RunKept

variable {run run' run'' : ConversionRun}

theorem refl (run : ConversionRun) : RunKept run run := ⟨rfl, rfl, rfl, fun _ => rfl⟩

theorem trans (h : RunKept run run') (h' : RunKept run' run'') : RunKept run run'' where
  id := h'.id.trans h.id
  workspace := h'.workspace.trans h.workspace
  key := h'.key.trans h.key
  terminal hterminal := by
    have hkept := h.terminal hterminal
    exact (h'.terminal (hkept.symm ▸ hterminal)).trans hkept

theorem lost (h : RunKept run run') (hlost : Lost run.status) : Lost run'.status :=
  (h.terminal hlost.terminal).symm ▸ hlost

theorem of_moved {attempt : ConversionAttempt} {lease : ConversionLease} {t : Transition}
    (h : Moved run attempt lease t) : RunKept run t.run := by
  have hopen : ¬ TerminalStatus run.status := by
    cases h <;> simp_all [TerminalStatus]
  cases h <;> exact ⟨rfl, rfl, rfl, fun hterminal => absurd hterminal hopen⟩

end RunKept

theorem runKept_step {h h' : RunHistory} (hstep : RunStep h h') :
    ∀ run ∈ h.run, ∃ run' ∈ h'.run, RunKept run run' := by
  intro run hrun
  cases hstep with
  | dispatched hnone => simp [hnone] at hrun
  | @cancelled stored now _ hstored hstatus =>
    obtain rfl := Option.some.inj (hrun.symm.trans hstored)
    refine ⟨_, rfl, rfl, rfl, rfl, fun hterminal => ?_⟩
    simp [TerminalStatus, hstatus] at hterminal
  | claimed => exact ⟨run, hrun, .refl run⟩
  | renewed => exact ⟨run, hrun, .refl run⟩
  | closed => exact ⟨run, hrun, .refl run⟩
  | @moved stored _ _ t _ hstored _ _ _ hmoved =>
    obtain rfl := Option.some.inj (hrun.symm.trans hstored)
    exact ⟨t.run, rfl, .of_moved hmoved⟩

/-! ### Calls on the conversion store -/

section Calls

variable {platform : ConversionPlatform} {db db' : ConversionDatabase}

/-- Every run is still stored, as it was or in a later state. -/
def RunsKept (db db' : ConversionDatabase) : Prop :=
  ∀ id run, db.run? id = some run → ∃ run', db'.run? id = some run' ∧ RunKept run run'

theorem runsKept_refl (db : ConversionDatabase) : RunsKept db db :=
  fun _ run hrun => ⟨run, hrun, .refl run⟩

theorem runsKept_advances (h : Advances db db') : RunsKept db db' := by
  intro id run hrun
  rcases h with ⟨-, hsame⟩ | ⟨moved, hsteps⟩
  · have hrun' : db'.run? id = db.run? id := congrArg RunHistory.run (hsame id)
    exact ⟨run, hrun'.trans hrun, .refl run⟩
  · by_cases hid : id = moved
    · subst hid
      exact runKept_step hsteps.step run hrun
    · have hrun' : db'.run? id = db.run? id := congrArg RunHistory.run (hsteps.others id hid)
      exact ⟨run, hrun'.trans hrun, .refl run⟩

theorem run?_eq_none_iff {id : Id} : db.run? id = none ↔ id ∉ db.runs.map key := by
  simp [ConversionDatabase.run?, find?_eq_none]

/-- Where the keys of the runs are the same, no run is new. -/
theorem run?_of_keys (h : db'.runs.map key = db.runs.map key) {id : Id} {run' : ConversionRun}
    (hrun' : db'.run? id = some run') : ∃ run, db.run? id = some run := by
  refine Option.ne_none_iff_exists'.mp fun hnone => ?_
  rw [run?_eq_none_iff, ← h, ← run?_eq_none_iff, hrun'] at hnone
  cases hnone

theorem run?_dispatched {input : ManualConversionDispatchInput} {runId : Id} {run : ConversionRun}
    (h : Dispatched db db' input runId run) (id : Id) :
    db'.run? id = if id = run.id then some run else db.run? id := by
  obtain ⟨digest, hruns⟩ := h.runs
  have hnone : db.run? run.id = none := by
    simpa [ConversionDatabase.run?, find?_eq_none] using h.fresh
  rw [ConversionDatabase.run?, hruns, find?_append_singleton]
  by_cases hid : id = run.id
  · subst hid
    rw [ConversionDatabase.run?, Option.map_eq_none_iff] at hnone
    simp [hnone]
  · simp [ConversionDatabase.run?, Ne.symm hid, hid]

/-- A run that a call has added was dispatched by it. -/
theorem run_added (call : ConversionCall) {id : Id} {run' : ConversionRun}
    (hrun' : (perform platform db call).2.run? id = some run') :
    (∃ run, db.run? id = some run) ∨
      ∃ catalogue input now runId eventId,
        call = .dispatchManual catalogue input now runId eventId ∧
          Dispatched db (perform platform db call).2 input runId run' := by
  cases hbody : body platform call db with
  | error error =>
    rw [perform, commit_of_error hbody] at hrun'
    exact Or.inl ⟨run', hrun'⟩
  | ok r =>
    obtain ⟨outcome, db'⟩ := r
    rw [perform, commit_of_ok hbody] at hrun' ⊢
    cases body_frame hbody with
    | frame hframe => exact Or.inl (run?_of_keys hframe.runs hrun')
    | accepted hadded => exact Or.inl (run?_of_keys hadded.runs hrun')
    | @dispatched catalogue input now runId eventId result hdispatched =>
      have hfound := run?_dispatched hdispatched id
      rw [hrun'] at hfound
      by_cases hid : id = result.record.run.id
      · rw [if_pos hid] at hfound
        obtain rfl := Option.some.inj hfound
        exact Or.inr ⟨catalogue, input, now, runId, eventId, rfl, hdispatched⟩
      · rw [if_neg hid] at hfound
        exact Or.inl ⟨run', hfound.symm⟩

end Calls

end MarkorbitKnowledge.Recovery
