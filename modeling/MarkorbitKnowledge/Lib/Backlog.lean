import MarkorbitKnowledge.Lib.Window
import Mathlib.Data.Finset.Max
import Mathlib.Order.WellFounded

/-!
# Bounded passes over a backlog

Each pass looks at the first `limit` items of a backlog, in a fixed order, and takes out the free ones.
Some items are bound and never free; another item is free once all items it needs have left.  What is
not free stays where it is and is looked at again, so enough of such items at the front stop every later
pass.  `cleared_iff` says when that does not happen: every item that ever becomes free leaves exactly
when each item that could become free has fewer than `limit` obstacles before it.
-/

namespace Backlog

variable {α κ : Type} [DecidableEq α] [LinearOrder κ]
variable (bound : α → Bool) (needs : α → List α) (limit : Nat)

/-- Nothing keeps the item. -/
def free (queue : List α) (x : α) : Bool :=
  !bound x && (needs x).all fun y => decide (y ∉ queue)

/-- One pass: the free ones of the first `limit` items leave. -/
def pass (queue : List α) : List α :=
  queue.filter fun x => !(decide (x ∈ queue.take limit) && free bound needs queue x)

/-- The backlog after a number of passes. -/
def after (queue : List α) : Nat → List α
  | 0 => queue
  | n + 1 => pass bound needs limit (after queue n)

/-- Nothing that the item needs is bound, nor is the item. -/
def Clearable (queue : List α) (x : α) : Prop :=
  bound x = false ∧ ∀ y ∈ needs x, y ∈ queue → bound y = false

/-- `z` does not leave before `x`: it is bound, or needs an item that is bound or not before `x`. -/
def Obstacle (key : α → κ) (queue : List α) (x z : α) : Prop :=
  bound z = true ∨ ∃ y ∈ needs z, y ∈ queue ∧ (bound y = true ∨ ¬key y < key x)

instance (key : α → κ) (queue : List α) (x z : α) : Decidable (Obstacle bound needs key queue x z) :=
  inferInstanceAs (Decidable (_ ∨ _))

instance (queue : List α) (x : α) : Decidable (Clearable bound needs queue x) :=
  inferInstanceAs (Decidable (_ ∧ _))

/-- The number of obstacles before an item. -/
def obstacles (key : α → κ) (queue : List α) (x : α) : Nat :=
  queue.countP fun z => decide (key z < key x ∧ Obstacle bound needs key queue x z)

variable {bound needs limit} {key : α → κ} {queue : List α} {x y z : α} {m n : Nat}

/-! ### Passes -/

theorem free_iff : free bound needs queue x = true ↔ bound x = false ∧ ∀ y ∈ needs x, y ∉ queue := by
  simp [free]

theorem mem_pass : x ∈ pass bound needs limit queue ↔
    x ∈ queue ∧ ¬(x ∈ queue.take limit ∧ free bound needs queue x = true) := by
  simp [pass, imp_iff_not_or]

theorem pass_sublist (queue : List α) : (pass bound needs limit queue).Sublist queue :=
  List.filter_sublist

theorem after_sublist (queue : List α) (h : m ≤ n) :
    (after bound needs limit queue n).Sublist (after bound needs limit queue m) := by
  induction n, h using Nat.le_induction with
  | base => exact List.Sublist.refl _
  | succ n _ ih => exact (pass_sublist _).trans ih

theorem free_mono {queue' : List α} (hsub : queue' ⊆ queue) (h : free bound needs queue x = true) :
    free bound needs queue' x = true := by
  rw [free_iff] at h ⊢
  exact ⟨h.1, fun y hy hmem => h.2 y hy (hsub hmem)⟩

/-- A pass that takes nothing out is the last one that matters. -/
theorem after_of_settled (h : pass bound needs limit queue = queue) (n : Nat) :
    after bound needs limit queue n = queue := by
  induction n with
  | zero => rfl
  | succ n ih => rw [after, ih, h]

/-- An item that has left was taken out by a pass that looked at it while it was free. -/
theorem exists_leaves (hmem : x ∈ queue) (hgone : x ∉ after bound needs limit queue n) :
    ∃ t < n, x ∈ after bound needs limit queue t ∧ x ∉ after bound needs limit queue (t + 1) ∧
      x ∈ (after bound needs limit queue t).take limit ∧
      free bound needs (after bound needs limit queue t) x = true := by
  induction n with
  | zero => exact absurd hmem hgone
  | succ n ih =>
    by_cases hstill : x ∈ after bound needs limit queue n
    · have hpass := hgone
      rw [after, mem_pass] at hpass
      obtain ⟨htake, hfree⟩ := not_not.mp (not_and.mp hpass hstill)
      exact ⟨n, Nat.lt_succ_self n, hstill, hgone, htake, hfree⟩
    · obtain ⟨t, hlt, hleaves⟩ := ih hstill
      exact ⟨t, hlt.trans (Nat.lt_succ_self n), hleaves⟩

/-- A bound item stays. -/
theorem mem_after_of_bound (hmem : x ∈ queue) (hbound : bound x = true) (n : Nat) :
    x ∈ after bound needs limit queue n := by
  by_contra hgone
  obtain ⟨_, _, _, _, _, hfree⟩ := exists_leaves hmem hgone
  rw [free_iff, hbound] at hfree
  cases hfree.1

/-- An item stays as long as one that it needs. -/
theorem mem_after_of_needs (hmem : x ∈ queue) (hneeds : y ∈ needs x)
    (hy : y ∈ after bound needs limit queue n) : x ∈ after bound needs limit queue n := by
  by_contra hgone
  obtain ⟨t, hlt, _, _, _, hfree⟩ := exists_leaves hmem hgone
  exact (free_iff.mp hfree).2 y hneeds ((after_sublist queue hlt.le).subset hy)

/-- An item that is free at some time is clearable: all that it needs has left, and nothing bound
    leaves. -/
theorem clearable_of_free (h : free bound needs (after bound needs limit queue n) x = true) :
    Clearable bound needs queue x := by
  obtain ⟨hbound, hgone⟩ := free_iff.mp h
  refine ⟨hbound, fun y hy hqueue => ?_⟩
  obtain ⟨_, _, _, _, _, hyfree⟩ := exists_leaves hqueue (hgone y hy)
  exact (free_iff.mp hyfree).1

/-- Some later pass takes nothing out. -/
theorem exists_settled (queue : List α) (n : Nat) :
    ∃ m ≥ n, after bound needs limit queue (m + 1) = after bound needs limit queue m := by
  by_contra hnone
  have hshrinks : ∀ k, (after bound needs limit queue (n + k)).length + k ≤
      (after bound needs limit queue n).length := by
    intro k
    induction k with
    | zero => exact le_rfl
    | succ k ih =>
      have hsub : (after bound needs limit queue (n + k + 1)).Sublist
          (after bound needs limit queue (n + k)) := pass_sublist _
      have hne : after bound needs limit queue (n + k + 1) ≠ after bound needs limit queue (n + k) :=
        fun heq => hnone ⟨n + k, Nat.le_add_right n k, heq⟩
      have hlt : (after bound needs limit queue (n + k + 1)).length <
          (after bound needs limit queue (n + k)).length :=
        lt_of_le_of_ne hsub.length_le fun heq => hne (hsub.eq_of_length heq)
      have hassoc : n + (k + 1) = n + k + 1 := rfl
      rw [hassoc]
      omega
  have := hshrinks ((after bound needs limit queue n).length + 1)
  omega

/-- Items that all leave have all left at some time. -/
theorem exists_all_gone {items : List α}
    (h : ∀ x ∈ items, ∃ m, x ∉ after bound needs limit queue m) :
    ∃ n, ∀ x ∈ items, x ∉ after bound needs limit queue n := by
  induction items with
  | nil => exact ⟨0, by simp⟩
  | cons first rest ih =>
    obtain ⟨m, hm⟩ := h first List.mem_cons_self
    obtain ⟨n, hn⟩ := ih fun x hx => h x (List.mem_cons_of_mem _ hx)
    refine ⟨max m n, fun x hx hmem => ?_⟩
    rcases List.mem_cons.mp hx with rfl | hx
    · exact hm ((after_sublist queue (le_max_left m n)).subset hmem)
    · exact hn x hx ((after_sublist queue (le_max_right m n)).subset hmem)

/-! ### Obstacles -/

/-- Until the first item that is not before `x` leaves, the obstacles before `x` are all there. -/
theorem obstacles_lt_of_leaves (hsorted : queue.Pairwise fun a b => key a < key b)
    (hmem : x ∈ queue) (hgone : x ∉ after bound needs limit queue m) :
    obstacles bound needs key queue x < limit := by
  have hleaves : ∃ s, ∃ w ∈ after bound needs limit queue s,
      ¬key w < key x ∧ w ∉ after bound needs limit queue (s + 1) ∧
        w ∈ (after bound needs limit queue s).take limit := by
    obtain ⟨t, -, hbefore, hafter, htake, -⟩ := exists_leaves hmem hgone
    exact ⟨t, x, hbefore, lt_irrefl _, hafter, htake⟩
  classical
  obtain ⟨w, -, hlate, -, htake⟩ := Nat.find_spec hleaves
  set s := Nat.find hleaves with hs
  have hstay : ∀ y ∈ queue, ¬key y < key x → y ∈ after bound needs limit queue s := by
    intro y hy hnot
    by_contra hout
    obtain ⟨t, hlt, hbefore, hafter, htake', -⟩ := exists_leaves hy hout
    exact Nat.find_min hleaves hlt ⟨y, hbefore, hnot, hafter, htake'⟩
  have hpairwise := hsorted.sublist (@after_sublist _ _ bound needs limit 0 s queue (Nat.zero_le s))
  have hfew := (Window.mem_take hpairwise).mp htake
  refine lt_of_le_of_lt ?_ hfew.2
  have hnodup : queue.Nodup := hsorted.imp fun h => fun heq => absurd (heq ▸ h) (lt_irrefl _)
  rw [obstacles, Window.before, List.countP_eq_length_filter, List.countP_eq_length_filter]
  refine (List.subperm_of_subset (hnodup.filter _) fun z hz => ?_).length_le
  obtain ⟨hzmem, hz⟩ := List.mem_filter.mp hz
  obtain ⟨hlt, hobstacle⟩ := of_decide_eq_true hz
  refine List.mem_filter.mpr ⟨?_, decide_eq_true (lt_of_lt_of_le hlt (not_lt.mp hlate))⟩
  rcases hobstacle with hbound | ⟨y, hneeds, hy, hbound | hnot⟩
  · exact mem_after_of_bound hzmem hbound s
  · exact mem_after_of_needs hzmem hneeds (mem_after_of_bound hy hbound s)
  · exact mem_after_of_needs hzmem hneeds (hstay y hy hnot)

/-- The places of a list without repetitions order it. -/
theorem pairwise_idxOf {β : Type} [BEq β] [LawfulBEq β] {items : List β} (hnodup : items.Nodup) :
    items.Pairwise fun a b => items.idxOf a < items.idxOf b := by
  rw [List.pairwise_iff_getElem]
  intro i j hi hj hlt
  rw [hnodup.idxOf_getElem i hi, hnodup.idxOf_getElem j hj]
  exact hlt

variable (hflat : ∀ x, ∀ y ∈ needs x, needs y = [])
include hflat

/-- An item that nothing bound keeps leaves, if everything that becomes free does. -/
theorem leaves_of_clearable
    (hclears : ∀ n, ∀ y ∈ after bound needs limit queue n,
      free bound needs (after bound needs limit queue n) y = true →
        ∃ m, y ∉ after bound needs limit queue m)
    (hx : Clearable bound needs queue x) : ∃ m, x ∉ after bound needs limit queue m := by
  have hneeds : ∀ y ∈ needs x, ∃ m, y ∉ after bound needs limit queue m := by
    intro y hy
    by_cases hmem : y ∈ queue
    · have hfree : free bound needs queue y = true := by
        rw [free_iff, hflat x y hy]
        exact ⟨hx.2 y hy hmem, by simp⟩
      exact hclears 0 y hmem hfree
    · exact ⟨0, hmem⟩
  obtain ⟨n, hn⟩ := exists_all_gone hneeds
  by_cases hmem : x ∈ after bound needs limit queue n
  · exact hclears n x hmem (free_iff.mpr ⟨hx.1, hn⟩)
  · exact ⟨n, hmem⟩

/-- Where a pass takes nothing out of a backlog with a free item, the first free item has at least
    `limit` obstacles before it. -/
theorem limit_le_obstacles (hsorted : queue.Pairwise fun a b => key a < key b)
    (hsettled : after bound needs limit queue (m + 1) = after bound needs limit queue m)
    (hfree : ∃ x ∈ after bound needs limit queue m,
      free bound needs (after bound needs limit queue m) x = true) :
    ∃ x ∈ queue, Clearable bound needs queue x ∧ limit ≤ obstacles bound needs key queue x := by
  set settled := after bound needs limit queue m with hdef
  have hsub : settled.Sublist queue := @after_sublist _ _ bound needs limit 0 m queue (Nat.zero_le m)
  obtain ⟨x, hx, hfirst⟩ := Finset.exists_min_image
    ((settled.filter fun x => free bound needs settled x).toFinset) key (by
      obtain ⟨x, hx, hxfree⟩ := hfree
      exact ⟨x, by simp [hx, hxfree]⟩)
  simp only [List.mem_toFinset, List.mem_filter] at hx hfirst
  obtain ⟨hmem, hxfree⟩ := hx
  refine ⟨x, hsub.subset hmem, clearable_of_free hxfree, ?_⟩
  have hpassed : x ∉ settled.take limit := by
    intro htake
    have hleft : x ∉ pass bound needs limit settled := fun h => (mem_pass.mp h).2 ⟨htake, hxfree⟩
    have hpass : pass bound needs limit settled = settled := hsettled
    exact hleft (hpass.symm ▸ hmem)
  have hmany : limit ≤ Window.before key settled x := by
    by_contra hlt
    exact hpassed ((Window.mem_take (hsorted.sublist hsub)).mpr ⟨hmem, not_le.mp hlt⟩)
  refine hmany.trans (le_trans ?_ hsub.countP_le)
  rw [Window.before]
  refine List.countP_mono_left fun z hz hlt => decide_eq_true ?_
  have hbefore : key z < key x := of_decide_eq_true hlt
  refine ⟨hbefore, ?_⟩
  have hkept : ¬free bound needs settled z = true := fun hzfree =>
    absurd (hfirst z ⟨hz, hzfree⟩) (not_le.mpr hbefore)
  by_cases hbound : bound z = true
  · exact Or.inl hbound
  · rw [free_iff, not_and] at hkept
    obtain ⟨y, hy⟩ := not_forall.mp (hkept (Bool.not_eq_true _ ▸ hbound))
    obtain ⟨hneeds, hyin⟩ := Classical.not_imp.mp hy
    rw [not_not] at hyin
    refine Or.inr ⟨y, hneeds, hsub.subset hyin, ?_⟩
    by_cases hybound : bound y = true
    · exact Or.inl hybound
    · have hyfree : free bound needs settled y = true := by
        rw [free_iff, hflat z y hneeds]
        exact ⟨Bool.not_eq_true _ ▸ hybound, by simp⟩
      exact Or.inr fun hylt => absurd (hfirst y ⟨hyin, hyfree⟩) (not_le.mpr hylt)

/-- Everything that becomes free leaves exactly when each item that can become free has fewer than
    `limit` obstacles before it. -/
theorem cleared_iff (hsorted : queue.Pairwise fun a b => key a < key b) :
    (∀ n, ∀ x ∈ after bound needs limit queue n,
        free bound needs (after bound needs limit queue n) x = true →
          ∃ m, x ∉ after bound needs limit queue m) ↔
      ∀ x ∈ queue, Clearable bound needs queue x → obstacles bound needs key queue x < limit := by
  constructor
  · intro hclears x hx hclearable
    obtain ⟨m, hm⟩ := leaves_of_clearable hflat hclears hclearable
    exact obstacles_lt_of_leaves hsorted hx hm
  · intro hfew n x hx hxfree
    by_contra hstays
    rw [not_exists] at hstays
    obtain ⟨m, hle, hsettled⟩ := @exists_settled _ _ bound needs limit queue n
    have hmem : x ∈ after bound needs limit queue m := not_not.mp (hstays m)
    have hfree := free_mono (after_sublist queue hle).subset hxfree
    obtain ⟨y, hy, hclearable, hmany⟩ := limit_le_obstacles hflat hsorted hsettled ⟨x, hmem, hfree⟩
    exact absurd (hfew y hy hclearable) (not_lt.mpr hmany)

end Backlog
