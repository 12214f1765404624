import Mathlib.Data.List.Nodup

/-!
# Bounded work lists

A crawler takes the first item of its queue that it has not visited, visits it, and may append to the
queue what it found there; it stops when the queue is empty or a number of items has been visited.
It visits no item twice and no more items than allowed (`nodup_visited`, `length_visited_le`), whatever
it finds, and what each visit keeps holds at the end (`drain_invariant`).
-/

namespace Worklist

variable {α β : Type} [DecidableEq α]

/-- A crawl under way: the visited items in order, the items to visit, and what has been found. -/
structure Crawl (α β : Type) where
  visited : List α
  queue : List α
  found : β

/-- The crawl after a visit to an item; `visit` is given the visited items with the new one, the
    items that are left and what has been found. -/
def Crawl.visit (visit : List α → α → List α × β → List α × β) (c : Crawl α β) (item : α)
    (rest : List α) : Crawl α β :=
  let next := visit (c.visited ++ [item]) item (rest, c.found)
  ⟨c.visited ++ [item], next.1, next.2⟩

/-- At most so many visits; items that have been visited are skipped. -/
def drain (visit : List α → α → List α × β → List α × β) : Nat → Crawl α β → Crawl α β
  | 0, c => c
  | limit + 1, c =>
    match c.queue.dropWhile (· ∈ c.visited) with
    | [] => { c with queue := [] }
    | item :: rest => drain visit limit (c.visit visit item rest)

variable {visit : List α → α → List α × β → List α × β} {c : Crawl α β} {limit : Nat}

/-- What a visit to an item that has not been visited keeps, and what skipping keeps, holds at the
    end. -/
theorem drain_invariant {P : Crawl α β → Prop}
    (hskip : ∀ c queue, P c → P { c with queue := queue })
    (hvisit : ∀ c item rest, item ∉ c.visited → P c → P (c.visit visit item rest)) (hc : P c) :
    P (drain visit limit c) := by
  induction limit generalizing c with
  | zero => exact hc
  | succ limit ih =>
    rw [drain]
    cases h : c.queue.dropWhile (· ∈ c.visited) with
    | nil => exact hskip c [] hc
    | cons item rest =>
      have hnew : item ∉ c.visited := by
        have hhead := List.head?_dropWhile_not (fun x => decide (x ∈ c.visited)) c.queue
        rw [h] at hhead
        simpa using hhead
      exact ih (hvisit c item rest hnew hc)

theorem nodup_visited (hc : c.visited.Nodup) : (drain visit limit c).visited.Nodup := by
  refine drain_invariant (P := fun c => c.visited.Nodup) (fun _ _ h => h) ?_ hc
  intro c item rest hnew h
  change (c.visited ++ [item]).Nodup
  rw [List.nodup_append_comm]
  exact List.nodup_cons.mpr ⟨hnew, h⟩

theorem length_visited_le :
    (drain visit limit c).visited.length ≤ c.visited.length + limit := by
  induction limit generalizing c with
  | zero => exact Nat.le_refl _
  | succ limit ih =>
    rw [drain]
    cases h : c.queue.dropWhile (· ∈ c.visited) with
    | nil => exact Nat.le_add_right _ _
    | cons item rest =>
      refine Nat.le_trans ih ?_
      simp only [Crawl.visit, List.length_append, List.length_singleton]
      omega

end Worklist
