import Mathlib.Algebra.Order.Group.Basic
import Mathlib.Data.List.Basic

/-!
# Rolling rate limits

A limiter keeps a log of what it granted, each grant with the limit its holder is subject to, and
admits a new grant only while the grants of the last `width` are fewer than every limit among them
and the new one.  The check looks back from the clock at the time of the grant; `Admitted.window` is
what it means for a window anywhere: no closed window of that width holds more grants than the
limit of any grant in it.  The argument is over the last grant in the window, which saw the others.
-/

namespace RollingWindow

variable {τ : Type}

/-- One entry of the log: when the grant was made, and the limit its holder is subject to. -/
structure Grant (τ : Type) where
  time : τ
  limit : Nat

section

variable [LE τ] [DecidableLE τ]

/-- The grants from `start` on. -/
def recent (start : τ) (log : List (Grant τ)) : List (Grant τ) :=
  log.filter fun g => decide (start ≤ g.time)

/-- The grants in the closed window from `first` to `last`. -/
def within (first last : τ) (log : List (Grant τ)) : List (Grant τ) :=
  log.filter fun g => decide (first ≤ g.time) && decide (g.time ≤ last)

end

variable [AddCommGroup τ] [LinearOrder τ] [IsOrderedAddMonoid τ]

/-- The logs of a limiter that looks back over `width`: a grant is never earlier than those before
    it, and joins fewer recent grants than any limit among them and its own. -/
inductive Admitted (width : τ) : List (Grant τ) → Prop
  | nil : Admitted width []
  | grant {log : List (Grant τ)} {g : Grant τ} (hlog : Admitted width log)
      (hclock : ∀ h ∈ log, h.time ≤ g.time)
      (hlimit : ∀ h ∈ g :: recent (g.time - width) log,
        (recent (g.time - width) log).length < h.limit) :
      Admitted width (log ++ [g])

namespace Admitted

variable {width : τ} {log : List (Grant τ)}

/-- The grants of a window that a new grant falls into were all recent when it was made. -/
theorem within_sublist_recent (log : List (Grant τ)) {first last : τ}
    (hwidth : last ≤ first + width) {t : τ} (ht : t ≤ last) :
    (within first last log).Sublist (recent (t - width) log) := by
  refine List.monotone_filter_right log fun g hg => ?_
  rw [Bool.and_eq_true, decide_eq_true_eq, decide_eq_true_eq] at hg
  have hstart : t - width ≤ first := sub_le_iff_le_add.mpr (ht.trans hwidth)
  exact decide_eq_true (hstart.trans hg.1)

/-- A closed window of the width of the limiter holds at most as many grants as the limit of any of
    them. -/
theorem window (h : Admitted width log) {first last : τ} (hwidth : last ≤ first + width) :
    ∀ g ∈ within first last log, (within first last log).length ≤ g.limit := by
  induction h with
  | nil => intro g hg; cases hg
  | @grant log g _ hclock hlimit ih =>
    by_cases hin : first ≤ g.time ∧ g.time ≤ last
    · have hsub := within_sublist_recent log hwidth hin.2
      have hsplit : within first last (log ++ [g]) = within first last log ++ [g] := by
        simp [within, hin]
      rw [hsplit]
      intro h hh
      have hmem : h ∈ g :: recent (g.time - width) log := by
        rw [List.mem_append, List.mem_singleton] at hh
        rcases hh with hh | rfl
        · exact List.mem_cons_of_mem _ (hsub.subset hh)
        · exact List.mem_cons_self
      have hcount := hsub.length_le
      have hbound := hlimit h hmem
      rw [List.length_append, List.length_singleton]
      omega
    · have hsplit : within first last (log ++ [g]) = within first last log := by
        simp [within, hin]
      rw [hsplit]
      exact ih

end Admitted

end RollingWindow
