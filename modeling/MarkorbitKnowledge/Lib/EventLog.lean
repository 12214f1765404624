import Mathlib.Data.List.Chain
import Mathlib.Data.List.Range

/-!
# Event logs that replay to a status

A log tells how a status came about: each event carries its number, the status it left and the
status it led to.  `Replays` builds such a log event by event, the way a program appends to it;
`Consistent` is what a reader of the finished log can check.  `Replays.consistent` connects the two.
The status is an `Option`: an empty log replays to none.
-/

namespace EventLog

/-- How the events of a log are read. -/
structure View (ε σ : Type) where
  sequence : ε → Nat
  previous : ε → Option σ
  resulting : ε → σ

variable {ε σ : Type}

/-- The log `es` ends in the status, every event continuing where the one before it ended by a step
    it may take. -/
inductive Replays (V : View ε σ) (may : Option σ → σ → Prop) : List ε → Option σ → Prop
  | nil : Replays V may [] none
  | snoc {es : List ε} {status : Option σ} {e : ε} (h : Replays V may es status)
      (hsequence : V.sequence e = es.length + 1) (hprevious : V.previous e = status)
      (hallowed : may status (V.resulting e)) :
      Replays V may (es ++ [e]) (some (V.resulting e))

/-- What a reader can check of the events of an object whose status is `status`; a status in
    `terminal` is one that nothing may follow. -/
structure Consistent (V : View ε σ) (may : Option σ → σ → Prop) (terminal : σ → Prop)
    (es : List ε) (status : σ) : Prop where
  sequence : es.map V.sequence = List.range' 1 es.length
  first : ∀ e ∈ es.head?, V.previous e = none
  linked : es.IsChain fun e e' => V.previous e' = some (V.resulting e)
  allowed : ∀ e ∈ es, may (V.previous e) (V.resulting e)
  last : es.getLast?.map V.resulting = some status
  final : ∀ before e after, es = before ++ e :: after → terminal (V.resulting e) → after = []

namespace Replays

variable {V : View ε σ} {may : Option σ → σ → Prop} {es : List ε} {status : Option σ}

theorem last (h : Replays V may es status) : es.getLast?.map V.resulting = status := by
  cases h with
  | nil => rfl
  | snoc _ _ _ _ => simp

theorem sequence (h : Replays V may es status) :
    es.map V.sequence = List.range' 1 es.length := by
  induction h with
  | nil => rfl
  | snoc _ hsequence _ _ ih =>
    rw [List.map_append, ih, List.map_singleton, hsequence, List.length_append,
      List.length_singleton, ← List.range'_append_1]
    simp [Nat.add_comm]

/-- Every number of the log is at most its length, and the last one is its length. -/
theorem sequence_le (h : Replays V may es status) : ∀ e ∈ es, V.sequence e ≤ es.length := by
  intro e he
  have hmem : V.sequence e ∈ es.map V.sequence := List.mem_map_of_mem he
  rw [h.sequence, List.mem_range'_1] at hmem
  omega

/-- The largest number of the log is its length. -/
theorem maxSequence (h : Replays V may es status) :
    (es.map V.sequence).foldr max 0 = es.length := by
  have hfold : ∀ (ns : List Nat) (bound : Nat), (∀ n ∈ ns, n ≤ bound) →
      ns.foldr max 0 ≤ bound := by
    intro ns bound hbound
    induction ns with
    | nil => exact Nat.zero_le bound
    | cons n ns ih =>
      have hrest := ih fun m hm => hbound m (List.mem_cons_of_mem n hm)
      exact Nat.max_le.mpr ⟨hbound n List.mem_cons_self, hrest⟩
  have hle : ∀ (ns : List Nat) (n : Nat), n ∈ ns → n ≤ ns.foldr max 0 := by
    intro ns n hn
    induction ns with
    | nil => cases hn
    | cons m ns ih =>
      rcases List.mem_cons.mp hn with rfl | hn
      · exact Nat.le_max_left _ _
      · exact Nat.le_trans (ih hn) (Nat.le_max_right _ _)
  refine Nat.le_antisymm (hfold _ _ ?_) ?_
  · intro n hn
    obtain ⟨e, he, rfl⟩ := List.mem_map.mp hn
    exact h.sequence_le e he
  · cases h with
    | nil => exact Nat.zero_le _
    | @snoc es _ e _ hsequence _ _ =>
      have hmem : V.sequence e ∈ (es ++ [e]).map V.sequence := List.mem_map_of_mem (by simp)
      have := hle _ _ hmem
      rw [hsequence] at this
      simpa using this

theorem first (h : Replays V may es status) : ∀ e ∈ es.head?, V.previous e = none := by
  induction h with
  | nil => simp
  | @snoc es status e h _ hprevious _ ih =>
    cases es with
    | nil =>
      have hnone : none = status := h.last
      simpa [← hnone] using hprevious
    | cons first rest => simpa using ih

theorem linked (h : Replays V may es status) :
    es.IsChain fun e e' => V.previous e' = some (V.resulting e) := by
  induction h with
  | nil => exact List.IsChain.nil
  | @snoc es status e h _ hprevious _ ih =>
    refine List.isChain_append.mpr ⟨ih, List.IsChain.singleton e, ?_⟩
    intro x hx y hy
    obtain rfl : e = y := by simpa using hy
    have hlast := h.last
    rw [Option.mem_def.mp hx, Option.map_some] at hlast
    rw [hprevious, hlast]

theorem allowed (h : Replays V may es status) :
    ∀ e ∈ es, may (V.previous e) (V.resulting e) := by
  induction h with
  | nil => simp
  | snoc _ _ hprevious hallowed ih =>
    intro e' he'
    rcases List.mem_append.mp he' with he' | he'
    · exact ih e' he'
    · obtain rfl := List.mem_singleton.mp he'
      rw [hprevious]
      exact hallowed

/-- Where no step leads on from a terminal status, an event with a terminal result is the last. -/
theorem final {terminal : σ → Prop}
    (hterminal : ∀ status next, terminal status → ¬ may (some status) next)
    (h : Replays V may es status) (before : List ε) (e : ε) (after : List ε)
    (hsplit : es = before ++ e :: after) (he : terminal (V.resulting e)) : after = [] := by
  cases after with
  | nil => rfl
  | cons next rest =>
    have hchain := h.linked
    rw [hsplit, List.isChain_append] at hchain
    have hprevious := (List.isChain_cons_cons.mp hchain.2.1).1
    have hallowed := h.allowed next (by simp [hsplit])
    rw [hprevious] at hallowed
    exact absurd hallowed (hterminal _ _ he)

theorem consistent {terminal : σ → Prop}
    (hterminal : ∀ status next, terminal status → ¬ may (some status) next) {status : σ}
    (h : Replays V may es (some status)) : Consistent V may terminal es status where
  sequence := h.sequence
  first := h.first
  linked := h.linked
  allowed := h.allowed
  last := h.last
  final := h.final hterminal

end Replays

end EventLog
