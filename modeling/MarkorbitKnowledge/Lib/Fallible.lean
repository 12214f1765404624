import Mathlib.Logic.Basic

/-!
# Fallible operations with explicit state

An operation of a repository either fails with an error or yields a result, and its body is
written in `Except ε` with the state passed by hand.  `require` is a guard that throws, `orThrow` a
lookup that throws, and `commit` runs a body as one transaction: an error leaves the state as it
was.  The `_eq_ok` lemmas turn "the body succeeded" into the facts its guards checked; they are the
only way the proofs over such bodies look inside them.
-/

namespace Fallible

variable {ε α β σ : Type}

/-- `if (!c) throw e`. -/
def require (c : Prop) [Decidable c] (e : ε) : Except ε Unit :=
  if c then .ok () else .error e

/-- The value of a lookup, or the error thrown when it finds nothing. -/
def orThrow (o : Option α) (e : ε) : Except ε α :=
  match o with
  | some a => .ok a
  | none => .error e

/-- Run a body as one transaction: `COMMIT` its state, or `ROLLBACK` to the state before. -/
def commit (body : σ → Except ε (α × σ)) (s : σ) : Except ε α × σ :=
  match body s with
  | .ok (a, s') => (.ok a, s')
  | .error e => (.error e, s)

/-! ### Inverting a successful body -/

@[simp] theorem bind_eq_ok {x : Except ε α} {f : α → Except ε β} {b : β} :
    x >>= f = .ok b ↔ ∃ a, x = .ok a ∧ f a = .ok b := by
  cases x <;> simp [bind, Except.bind]

theorem ok_bind (a : α) (f : α → Except ε β) : (Except.ok a >>= f) = f a := rfl

theorem bind_eq_error {x : Except ε α} {f : α → Except ε β} {e : ε} :
    x >>= f = .error e ↔ x = .error e ∨ ∃ a, x = .ok a ∧ f a = .error e := by
  cases x <;> simp [bind, Except.bind]

theorem error_bind (e : ε) (f : α → Except ε β) : (Except.error e >>= f) = .error e := rfl

@[simp] theorem map_eq_ok {x : Except ε α} {f : α → β} {b : β} :
    f <$> x = .ok b ↔ ∃ a, x = .ok a ∧ f a = b := by
  cases x <;> simp [Functor.map, Except.map]

@[simp] theorem pure_eq_ok {a b : α} : (pure a : Except ε α) = .ok b ↔ a = b := by
  simp [pure, Except.pure]

@[simp] theorem throw_ne_ok {e : ε} {a : α} : (throw e : Except ε α) = .ok a ↔ False := by
  simp [throw, throwThe, MonadExceptOf.throw]

theorem isOk_iff {x : Except ε α} : x.isOk = true ↔ ∃ a, x = .ok a := by
  cases x <;> simp [Except.isOk, Except.toBool]

@[simp] theorem require_eq_ok {c : Prop} [Decidable c] {e : ε} {u : Unit} :
    require c e = .ok u ↔ c := by
  by_cases h : c <;> simp [require, h]

theorem require_of_not {c : Prop} [Decidable c] {e : ε} (h : ¬ c) : require c e = .error e := if_neg h

@[simp] theorem orThrow_eq_ok {o : Option α} {e : ε} {a : α} :
    orThrow o e = .ok a ↔ o = some a := by
  cases o <;> simp [orThrow]

@[simp] theorem mapM_eq_ok_some {f : α → Except ε β} {o : Option α} {b : β} :
    o.mapM f = .ok (some b) ↔ ∃ a, o = some a ∧ f a = .ok b := by
  cases o with
  | none => simp
  | some a => simp

@[simp] theorem mapM_eq_ok_none {f : α → Except ε β} {o : Option α} :
    o.mapM f = .ok none ↔ o = none := by
  cases o with
  | none => simp
  | some a => simp

/-- `xs.map(…)` whose body throws unless `c` holds and otherwise yields `g x`. -/
theorem mapM_guarded {f : α → Except ε β} {c : α → Prop} {g : α → β}
    (hf : ∀ x y, f x = .ok y ↔ c x ∧ g x = y) {xs : List α} {ys : List β} :
    xs.mapM f = .ok ys ↔ (∀ x ∈ xs, c x) ∧ xs.map g = ys := by
  induction xs generalizing ys with
  | nil => simp
  | cons x xs ih =>
    simp only [List.mapM_cons, bind_eq_ok, hf, ih, pure_eq_ok, List.forall_mem_cons, List.map_cons]
    constructor
    · rintro ⟨_, ⟨hc, rfl⟩, _, ⟨hcs, rfl⟩, rfl⟩
      exact ⟨⟨hc, hcs⟩, rfl⟩
    · rintro ⟨⟨hc, hcs⟩, rfl⟩
      exact ⟨_, ⟨hc, rfl⟩, _, ⟨hcs, rfl⟩, rfl⟩

/-- The same for `xs.map((x, index) => …)`, where the index only appears in what is thrown. -/
theorem mapM_indexed {f : α → Nat → Except ε β} {c : α → Prop} {g : α → β}
    (hf : ∀ x i y, f x i = .ok y ↔ c x ∧ g x = y) {xs : List α} {ys : List β} :
    xs.zipIdx.mapM (fun entry => f entry.1 entry.2) = .ok ys ↔ (∀ x ∈ xs, c x) ∧ xs.map g = ys := by
  have hvalues : xs.zipIdx.map Prod.fst = xs := List.zipIdx_map_fst 0 xs
  have hmap : xs.zipIdx.map (fun entry => g entry.1) = xs.map g := by
    have hcomp := List.map_map (g := g) (f := Prod.fst) (l := xs.zipIdx)
    rw [hvalues] at hcomp
    exact hcomp.symm
  rw [mapM_guarded fun entry y => hf entry.1 entry.2 y, hmap]
  refine and_congr_left fun _ => ?_
  constructor
  · intro h x hx
    rw [← hvalues] at hx
    obtain ⟨entry, hentry, rfl⟩ := List.mem_map.mp hx
    exact h entry hentry
  · intro h entry hentry
    exact h entry.1 (hvalues ▸ List.mem_map_of_mem hentry)

/-! ### What a body throws -/

/-- Every error of a body satisfies `P`. -/
def Raises (P : ε → Prop) (x : Except ε α) : Prop := ∀ e, x = .error e → P e

namespace Raises

variable {P : ε → Prop}

theorem ok (a : α) : Raises P (.ok a : Except ε α) := by
  intro e h
  cases h

theorem pure (a : α) : Raises P (Pure.pure a : Except ε α) := ok a

theorem require {c : Prop} [Decidable c] {e : ε} (he : P e) : Raises P (Fallible.require c e) := by
  intro e' h
  unfold Fallible.require at h
  split at h
  · cases h
  · exact Except.error.inj h ▸ he

theorem orThrow {o : Option α} {e : ε} (he : P e) : Raises P (Fallible.orThrow o e) := by
  intro e' h
  cases o with
  | none => exact Except.error.inj h ▸ he
  | some a => cases h

theorem bind {x : Except ε α} {f : α → Except ε β} (hx : Raises P x)
    (hf : ∀ a, x = .ok a → Raises P (f a)) : Raises P (x >>= f) := by
  intro e h
  cases hresult : x with
  | error e' =>
    rw [hresult] at h
    have he : e' = e := Except.error.inj h
    exact hx e (he ▸ hresult)
  | ok a =>
    rw [hresult, ok_bind] at h
    exact hf a hresult e h

/-- A `map` throws what it throws at one of the elements. -/
theorem mapM {f : α → Except ε β} {xs : List α} (hf : ∀ x, Raises P (f x)) :
    Raises P (xs.mapM f) := by
  induction xs with
  | nil => exact Raises.pure []
  | cons x xs ih =>
    rw [List.mapM_cons]
    exact bind (hf x) fun y _ => bind ih fun ys _ => Raises.pure (y :: ys)

/-- A loop throws what its iterations throw, where these keep an invariant. -/
theorem foldlM {f : σ → α → Except ε σ} {I : σ → Prop} {xs : List α}
    (hstep : ∀ s x, I s → Raises P (f s x) ∧ ∀ s', f s x = .ok s' → I s') {s : σ} (hs : I s) :
    Raises P (xs.foldlM f s) := by
  induction xs generalizing s with
  | nil => exact Raises.pure s
  | cons x xs ih =>
    rw [List.foldlM_cons]
    exact bind (hstep s x hs).1 fun s' h => ih ((hstep s x hs).2 s' h)

end Raises

/-! ### Transactions and loops -/

theorem commit_of_ok {body : σ → Except ε (α × σ)} {s s' : σ} {a : α} (h : body s = .ok (a, s')) :
    commit body s = (.ok a, s') := by
  simp [commit, h]

theorem commit_of_error {body : σ → Except ε (α × σ)} {s : σ} {e : ε} (h : body s = .error e) :
    commit body s = (.error e, s) := by
  simp [commit, h]

theorem commit_fst_ok {body : σ → Except ε (α × σ)} {s : σ} {a : α}
    (h : (commit body s).1 = .ok a) : ∃ s', body s = .ok (a, s') := by
  unfold commit at h
  split at h
  · rename_i hbody
    exact ⟨_, by rw [hbody, ← Except.ok.inj h]⟩
  · cases h

theorem commit_fst_error {body : σ → Except ε (α × σ)} {s : σ} {e : ε}
    (h : (commit body s).1 = .error e) : (commit body s).2 = s := by
  unfold commit at h ⊢
  split
  · rename_i hbody
    rw [hbody] at h
    cases h
  · rfl

/-- A relation that holds of every successful body, and of doing nothing, holds across `commit`. -/
theorem commit_rel {R : σ → σ → Prop} {body : σ → Except ε (α × σ)} {s : σ} (hrefl : R s s)
    (h : ∀ a s', body s = .ok (a, s') → R s s') : R s (commit body s).2 := by
  cases hb : body s with
  | ok r => obtain ⟨a, s'⟩ := r; rw [commit_of_ok hb]; exact h a s' hb
  | error e => rw [commit_of_error hb]; exact hrefl

/-- The invariant rule of a loop `for (const x of xs) …`: what each iteration keeps, the loop
    keeps. -/
theorem foldlM_preserves {f : σ → α → Except ε σ} {P : σ → Prop} {xs : List α}
    (hstep : ∀ s x s', x ∈ xs → P s → f s x = .ok s' → P s') {s s' : σ} (hs : P s)
    (h : xs.foldlM f s = .ok s') : P s' := by
  induction xs generalizing s with
  | nil =>
    rw [List.foldlM_nil, pure_eq_ok] at h
    exact h ▸ hs
  | cons x xs ih =>
    rw [List.foldlM_cons, bind_eq_ok] at h
    obtain ⟨t, hx, ht⟩ := h
    exact ih (fun a y b hy => hstep a y b (List.mem_cons_of_mem _ hy))
      (hstep s x t List.mem_cons_self hs hx) ht

/-- The same rule with the iterations still to come in the invariant. -/
theorem foldlM_preserves_rest {f : σ → α → Except ε σ} {P : List α → σ → Prop} {xs : List α}
    (hstep : ∀ s x rest s', P (x :: rest) s → f s x = .ok s' → P rest s') {s s' : σ}
    (hs : P xs s) (h : xs.foldlM f s = .ok s') : P [] s' := by
  induction xs generalizing s with
  | nil =>
    rw [List.foldlM_nil, pure_eq_ok] at h
    exact h ▸ hs
  | cons x xs ih =>
    rw [List.foldlM_cons, bind_eq_ok] at h
    obtain ⟨t, hx, ht⟩ := h
    exact ih (hstep s x xs t hs hx) ht

end Fallible
