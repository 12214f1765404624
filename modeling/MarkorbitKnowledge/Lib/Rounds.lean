import Mathlib.Data.List.Sort
import Mathlib.Data.List.Perm.Subperm

/-!
# Serving a bounded number of items a round

Each round sorts the items by a key of that round and serves the first `limit` of them.  An item that
is not served has at least `limit` items before it (`length_ahead_of_not_mem_serve`).  If nothing that
was served or lay behind comes to lie before it by the next round, each round that passes it over takes
`limit` items off those before it (`length_ahead_next`), which bounds how often it can be passed over.
-/

namespace Rounds

variable {α κ : Type} [LinearOrder κ]

/-- The items in the order of their keys. -/
def order (items : List α) (key : α → κ) : List α :=
  items.insertionSort fun a b => key a ≤ key b

/-- The items one round serves. -/
def serve (items : List α) (key : α → κ) (limit : Nat) : List α := (order items key).take limit

/-- The items that are served before `p`. -/
def ahead (items : List α) (key : α → κ) (p : α) : List α :=
  items.filter fun q => decide (key q < key p)

variable {items : List α} {key key' : α → κ} {p q : α} {limit : Nat}

theorem mem_ahead : q ∈ ahead items key p ↔ q ∈ items ∧ key q < key p := by
  simp [ahead]

theorem mem_of_mem_serve (h : q ∈ serve items key limit) : q ∈ items :=
  (List.mem_insertionSort _).mp (List.mem_of_mem_take h)

theorem nodup_serve (hnodup : items.Nodup) (key : α → κ) (limit : Nat) :
    (serve items key limit).Nodup :=
  ((List.perm_insertionSort _ _).nodup_iff.mpr hnodup).sublist (List.take_sublist _ _)

/-- What is served before an item that is not served lies before it. -/
theorem serve_subset_ahead (hkey : Set.InjOn key {q | q ∈ items}) (hp : p ∈ items)
    (hpassed : p ∉ serve items key limit) : serve items key limit ⊆ ahead items key p := by
  intro q hq
  have hmem : p ∈ order items key := (List.mem_insertionSort _).mpr hp
  rw [← List.take_append_drop limit (order items key), List.mem_append] at hmem
  have hdrop : p ∈ (order items key).drop limit := hmem.resolve_left hpassed
  have hsorted := List.pairwise_insertionSort (fun a b : α => key a ≤ key b) items
  change (order items key).Pairwise _ at hsorted
  rw [← List.take_append_drop limit (order items key), List.pairwise_append] at hsorted
  have hle : key q ≤ key p := hsorted.2.2 q hq p hdrop
  have hitem : q ∈ items := mem_of_mem_serve hq
  refine mem_ahead.mpr ⟨hitem, lt_of_le_of_ne hle fun heq => hpassed ?_⟩
  rwa [← hkey hitem hp heq]

theorem length_serve_of_not_mem (hp : p ∈ items) (hpassed : p ∉ serve items key limit) :
    (serve items key limit).length = limit := by
  rw [serve, List.length_take, min_eq_left]
  by_contra hshort
  refine hpassed ?_
  rw [serve, List.take_of_length_le (Nat.le_of_not_le hshort)]
  exact (List.mem_insertionSort _).mpr hp

/-- An item with fewer than `limit` items before it is served. -/
theorem length_ahead_of_not_mem_serve (hnodup : items.Nodup)
    (hkey : Set.InjOn key {q | q ∈ items}) (hp : p ∈ items)
    (hpassed : p ∉ serve items key limit) : limit ≤ (ahead items key p).length := by
  rw [← length_serve_of_not_mem hp hpassed]
  exact (List.subperm_of_subset (nodup_serve hnodup key limit)
    (serve_subset_ahead hkey hp hpassed)).length_le

/-- A round that passes `p` over takes `limit` items off those before it, if those that lie before it
    in the next round did so in this one and were not served. -/
theorem length_ahead_next (hnodup : items.Nodup) (hkey : Set.InjOn key {q | q ∈ items})
    (hp : p ∈ items) (hpassed : p ∉ serve items key limit)
    (hnext : ∀ q ∈ items, key' q < key' p → q ∉ serve items key limit ∧ key q < key p) :
    (ahead items key' p).length + limit ≤ (ahead items key p).length := by
  have hdisjoint : (ahead items key' p ++ serve items key limit).Nodup := by
    refine List.nodup_append.mpr ⟨hnodup.filter _, nodup_serve hnodup key limit, ?_⟩
    rintro q hq _ hserved rfl
    obtain ⟨hitem, hlt⟩ := mem_ahead.mp hq
    exact (hnext q hitem hlt).1 hserved
  have hsubset : ahead items key' p ++ serve items key limit ⊆ ahead items key p := by
    intro q hq
    rcases List.mem_append.mp hq with hq | hq
    · obtain ⟨hitem, hlt⟩ := mem_ahead.mp hq
      exact mem_ahead.mpr ⟨hitem, (hnext q hitem hlt).2⟩
    · exact serve_subset_ahead hkey hp hpassed hq
  have hlength := (List.subperm_of_subset hdisjoint hsubset).length_le
  rwa [List.length_append, length_serve_of_not_mem hp hpassed] at hlength

/-- Fewer items lie before an item than there are. -/
theorem length_ahead_lt (key : α → κ) (hp : p ∈ items) :
    (ahead items key p).length < items.length := by
  refine lt_of_le_of_ne (List.length_filter_le _ _) fun heq => ?_
  have hall := List.length_filter_eq_length_iff.mp heq p hp
  simp at hall

end Rounds
