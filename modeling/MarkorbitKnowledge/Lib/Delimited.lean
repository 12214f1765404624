import Mathlib.Data.List.Infix

/-!
# Documents in two parts

A document of two parts is a list whose first part ends where a line of its own says so: `nl` ends a
line, and the line `fence` closes the first part.  `cut` finds the first such line, as a search for
`delimiter nl fence` and two slices do.  The results say when a cut gives back the parts a document
was put together from, namely when no line of the first part but its first is the fence, and what
the second part is when it does not.
-/

namespace Delimited

variable {α : Type*} [DecidableEq α]

/-- A fence on a line of its own, with the line ends on both sides. -/
def delimiter (nl : α) (fence : List α) : List α := nl :: (fence ++ [nl])

/-- What stands before the first occurrence of `sep`, and what stands after it. -/
def cut (sep : List α) : List α → Option (List α × List α)
  | [] => if sep = [] then some ([], []) else none
  | x :: xs =>
    if sep <+: x :: xs then some ([], (x :: xs).drop sep.length)
    else (cut sep xs).map fun parts => (x :: parts.1, parts.2)

theorem eq_append_of_cut {sep xs before after : List α}
    (h : cut sep xs = some (before, after)) : xs = before ++ sep ++ after := by
  induction xs generalizing before with
  | nil =>
    rw [cut] at h
    split at h
    · rename_i hsep
      simp only [Option.some.injEq, Prod.mk.injEq] at h
      rw [← h.1, ← h.2, hsep]
      rfl
    · cases h
  | cons x xs ih =>
    rw [cut] at h
    split at h
    · rename_i hsep
      simp only [Option.some.injEq, Prod.mk.injEq] at h
      rw [← h.1, ← h.2, List.nil_append]
      exact (List.prefix_append_drop hsep)
    · simp only [Option.map_eq_some_iff, Prod.mk.injEq] at h
      obtain ⟨⟨before', after'⟩, hcut, rfl, rfl⟩ := h
      simp [ih hcut]

/-! ### Lines -/

variable {nl : α} {fence : List α}

/-- A text begins with a whole line if and only if that is its first line. -/
theorem prefix_line_iff (hfence : nl ∉ fence) (xs rest : List α) :
    fence ++ [nl] <+: xs ++ nl :: rest ↔ (xs.splitOn nl).head? = some fence := by
  induction xs generalizing fence with
  | nil =>
    cases fence with
    | nil => simp
    | cons c cs =>
      have hc : c ≠ nl := fun h => hfence (h ▸ List.mem_cons_self)
      simp [hc]
  | cons x xs ih =>
    rw [List.splitOn_cons_eq_if_modifyHead]
    by_cases hx : x = nl
    · cases fence with
      | nil => simp [hx]
      | cons c cs =>
        have hc : c ≠ nl := fun h => hfence (h ▸ List.mem_cons_self)
        simp [hx, hc]
    · cases fence with
      | nil => simp [hx, Ne.symm hx]
      | cons c cs =>
        have hcs : nl ∉ cs := fun h => hfence (List.mem_cons_of_mem _ h)
        rw [List.cons_append, List.cons_append, List.cons_prefix_cons, ih hcs]
        cases hlines : xs.splitOn nl with
        | nil => exact absurd hlines (List.splitOn_ne_nil _ _)
        | cons line lines => simp [hx, eq_comm (a := c)]

/-- The lines after the first one, when one more element stands before a text. -/
theorem tail_splitOn_cons (x : α) (xs : List α) :
    ((x :: xs).splitOn nl).tail = if x = nl then xs.splitOn nl else (xs.splitOn nl).tail := by
  rw [List.splitOn_cons_eq_if_modifyHead]
  by_cases hx : x = nl
  · simp [hx]
  · cases hlines : xs.splitOn nl <;> simp [hx]

theorem prefix_delimiter_iff (hfence : nl ∉ fence) (x : α) (xs after : List α) :
    delimiter nl fence <+: x :: (xs ++ delimiter nl fence ++ after) ↔
      x = nl ∧ (xs.splitOn nl).head? = some fence := by
  rw [delimiter, List.cons_prefix_cons, List.append_assoc, List.cons_append,
    prefix_line_iff hfence, eq_comm]

/-! ### Cutting a document that was put together -/

/-- A document is cut where it was put together, or at a fence among the lines of its first part;
    then the second part takes in the fence it was put together with. -/
theorem cut_append (hfence : nl ∉ fence) (before after : List α) :
    cut (delimiter nl fence) (before ++ delimiter nl fence ++ after) = some (before, after) ∧
        fence ∉ (before.splitOn nl).tail ∨
      fence ∈ (before.splitOn nl).tail ∧
        ∃ first more, cut (delimiter nl fence) (before ++ delimiter nl fence ++ after) =
          some (first, more ++ (fence ++ [nl]) ++ after) := by
  induction before with
  | nil =>
    left
    constructor
    · simp [delimiter, cut]
    · simp
  | cons x xs ih =>
    rw [List.cons_append, List.cons_append, cut, tail_splitOn_cons]
    by_cases hpre : delimiter nl fence <+: x :: (xs ++ delimiter nl fence ++ after)
    · rw [if_pos hpre]
      obtain ⟨hx, hhead⟩ := (prefix_delimiter_iff hfence x xs after).mp hpre
      right
      rw [if_pos hx]
      refine ⟨List.mem_of_mem_head? hhead, [], (xs ++ [nl]).drop (fence.length + 1), ?_⟩
      -- The first line of `xs` is the fence, so the fence is no longer than `xs`.
      have hlength := ((prefix_line_iff hfence xs []).mpr hhead).length_le
      have hdrop : ((xs ++ [nl]) ++ (fence ++ [nl] ++ after)).drop (fence ++ [nl]).length =
          (xs ++ [nl]).drop (fence ++ [nl]).length ++ (fence ++ [nl] ++ after) :=
        List.drop_append_of_le_length hlength
      simp only [List.length_append, List.length_singleton] at hdrop
      simp only [delimiter, List.length_cons, List.length_append, List.length_nil,
        List.drop_succ_cons, List.append_assoc, List.cons_append, List.nil_append] at hdrop ⊢
      rw [hdrop]
    · rw [if_neg hpre]
      have hmem : fence ∈ (if x = nl then xs.splitOn nl else (xs.splitOn nl).tail) ↔
          fence ∈ (xs.splitOn nl).tail := by
        by_cases hx : x = nl
        · have hhead : (xs.splitOn nl).head? ≠ some fence :=
            fun h => hpre ((prefix_delimiter_iff hfence x xs after).mpr ⟨hx, h⟩)
          rw [if_pos hx]
          cases hlines : xs.splitOn nl with
          | nil => simp
          | cons line lines =>
            rw [hlines, List.head?_cons, ne_eq, Option.some.injEq] at hhead
            simp [Ne.symm hhead]
        · rw [if_neg hx]
      rw [hmem]
      rcases ih with ⟨hcut, hout⟩ | ⟨hin, first, more, hcut⟩
      · left
        exact ⟨by rw [hcut]; rfl, hout⟩
      · right
        exact ⟨hin, x :: first, more, by rw [hcut]; rfl⟩

/-- A document is cut where it was put together if and only if no line of its first part but the
    first is the fence. -/
theorem cut_append_iff (hfence : nl ∉ fence) (before after : List α) :
    cut (delimiter nl fence) (before ++ delimiter nl fence ++ after) = some (before, after) ↔
      fence ∉ (before.splitOn nl).tail := by
  rcases cut_append hfence before after with ⟨hcut, hout⟩ | ⟨hin, first, more, hcut⟩
  · exact ⟨fun _ => hout, fun _ => hcut⟩
  · constructor
    · intro h
      rw [h, Option.some.injEq, Prod.mk.injEq] at hcut
      have := congrArg List.length hcut.2
      simp only [List.length_append, List.length_singleton] at this
      omega
    · intro h
      exact absurd hin h

/-! ### One separator -/

omit [DecidableEq α] in
/-- Texts without the separator are told apart by where it stands first. -/
theorem append_sep_inj {sep : α} {s t u v : List α} (hs : sep ∉ s) (ht : sep ∉ t)
    (h : s ++ sep :: u = t ++ sep :: v) : s = t ∧ u = v := by
  induction s generalizing t with
  | nil =>
    cases t with
    | nil => exact ⟨rfl, (List.cons.inj h).2⟩
    | cons c t =>
      obtain rfl : sep = c := (List.cons.inj h).1
      exact absurd List.mem_cons_self ht
  | cons c s ih =>
    cases t with
    | nil =>
      obtain rfl : c = sep := (List.cons.inj h).1
      exact absurd List.mem_cons_self hs
    | cons d t =>
      obtain ⟨rfl, hrest⟩ := List.cons.inj h
      obtain ⟨rfl, hv⟩ := ih (fun hm => hs (List.mem_cons_of_mem c hm))
        (fun hm => ht (List.mem_cons_of_mem c hm)) hrest
      exact ⟨rfl, hv⟩

end Delimited
