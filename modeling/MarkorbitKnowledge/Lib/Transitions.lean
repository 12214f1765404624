import Mathlib.Logic.Relation

/-!
# Transition systems

A machine is an executable step function on labelled steps; a step that is not possible leaves the
state as it is, so a run is a fold over its labels and a concrete run can be evaluated.  The module
gives the rule every safety result goes through, `run_invariant`, its variant for runs whose steps
all meet a condition, `runFrom_invariant_of`, and, for an abstract level described by a relation,
`Steps`.
-/

namespace Transitions

variable {σ ℓ : Type}

/-- `t` is reached from `s` by steps of the relation `R`. -/
abbrev Steps (R : σ → σ → Prop) (s t : σ) : Prop := Relation.ReflTransGen R s t

/-- A property kept by each step of `R` is kept by every sequence of them. -/
theorem Steps.invariant {R : σ → σ → Prop} {P : σ → Prop} (hstep : ∀ s t, R s t → P s → P t)
    {s t : σ} (h : Steps R s t) (hs : P s) : P t := by
  induction h with
  | refl => exact hs
  | tail _ hlast ih => exact hstep _ _ hlast ih

/-- A state machine: its first state and what a labelled step does. -/
structure Machine (σ ℓ : Type) where
  init : σ
  step : σ → ℓ → σ

namespace Machine

variable (M : Machine σ ℓ)

/-- The state after the steps `ls` from `s`. -/
def runFrom (s : σ) (ls : List ℓ) : σ := ls.foldl M.step s

/-- The state after the steps `ls` from the first state. -/
def run (ls : List ℓ) : σ := M.runFrom M.init ls

/-- Every step of the run `ls` from `s` meets the condition `C`. -/
def Throughout (C : σ → ℓ → Prop) : σ → List ℓ → Prop
  | _, [] => True
  | s, l :: ls => C s l ∧ Throughout C (M.step s l) ls

instance decidableThroughout {C : σ → ℓ → Prop} [∀ s l, Decidable (C s l)] :
    ∀ s ls, Decidable (M.Throughout C s ls)
  | _, [] => isTrue trivial
  | s, l :: ls =>
    @instDecidableAnd (C s l) (M.Throughout C (M.step s l) ls) inferInstance
      (decidableThroughout (M.step s l) ls)

@[simp] theorem runFrom_nil (s : σ) : M.runFrom s [] = s := rfl

@[simp] theorem runFrom_cons (s : σ) (l : ℓ) (ls : List ℓ) :
    M.runFrom s (l :: ls) = M.runFrom (M.step s l) ls := rfl

theorem runFrom_append (s : σ) (ls ks : List ℓ) :
    M.runFrom s (ls ++ ks) = M.runFrom (M.runFrom s ls) ks :=
  List.foldl_append

theorem run_concat (ls : List ℓ) (l : ℓ) : M.run (ls ++ [l]) = M.step (M.run ls) l :=
  M.runFrom_append M.init ls [l]

variable {M}

/-- Two conditions that every step meets, every step meets together. -/
theorem Throughout.and {C D : σ → ℓ → Prop} {ls : List ℓ} :
    ∀ {s : σ}, M.Throughout C s ls → M.Throughout D s ls →
      M.Throughout (fun s l => C s l ∧ D s l) s ls := by
  induction ls with
  | nil => exact fun _ _ => trivial
  | cons l ls ih => exact fun hc hd => ⟨⟨hc.1, hd.1⟩, ih hc.2 hd.2⟩

/-- Where every step of a run meets a condition, those before a step meet it, and the step itself. -/
theorem Throughout.split {C : σ → ℓ → Prop} {ls : List ℓ} {l : ℓ} {ks : List ℓ} :
    ∀ {s : σ}, M.Throughout C s (ls ++ l :: ks) → M.Throughout C s ls ∧ C (M.runFrom s ls) l := by
  induction ls with
  | nil => exact fun h => ⟨trivial, h.1⟩
  | cons first ls ih =>
    intro s h
    obtain ⟨hls, hl⟩ := ih h.2
    exact ⟨⟨h.1, hls⟩, hl⟩

theorem Throughout.append {C : σ → ℓ → Prop} {ls ks : List ℓ} :
    ∀ {s : σ}, M.Throughout C s ls → M.Throughout C (M.runFrom s ls) ks →
      M.Throughout C s (ls ++ ks) := by
  induction ls with
  | nil => exact fun _ h => h
  | cons l ls ih => exact fun h hks => ⟨h.1, ih h.2 hks⟩

/-- Steps that meet `C` and keep `P` carry `P` through every run whose steps all meet `C`. -/
theorem runFrom_invariant_of {C : σ → ℓ → Prop} {P : σ → Prop}
    (hstep : ∀ s l, P s → C s l → P (M.step s l)) {ls : List ℓ} :
    ∀ {s : σ}, P s → M.Throughout C s ls → P (M.runFrom s ls) := by
  induction ls with
  | nil => exact fun hs _ => hs
  | cons l ls ih => exact fun hs hc => ih (hstep _ l hs hc.1) hc.2

theorem runFrom_invariant {P : σ → Prop} (hstep : ∀ s l, P s → P (M.step s l)) {s : σ}
    (hs : P s) (ls : List ℓ) : P (M.runFrom s ls) := by
  induction ls generalizing s with
  | nil => exact hs
  | cons l ls ih => exact ih (hstep s l hs)

/-- The invariant rule: true at the start and kept by every step, so true after every run. -/
theorem run_invariant {P : σ → Prop} (hinit : P M.init) (hstep : ∀ s l, P s → P (M.step s l))
    (ls : List ℓ) : P (M.run ls) :=
  runFrom_invariant hstep hinit ls

end Machine

end Transitions
