import MarkorbitKnowledge.Lib.Transitions
import Mathlib.Logic.Function.Basic

/-!
# Interleaved programs over one store

Several connections share a store.  Each runs a program, a sequence of statements of which every one
is atomic and chooses the next from the store it meets, and the statements of different connections
come in any order.  The store has parts, and a program is *within* some of them when it reads and
writes nothing else.  Where programs that share a part do not overlap, a program ends as if it had
run alone (`Done`), and what every program keeps of its parts holds of each part that no program in
progress is within (`run_settled`).
-/

namespace Interleaving

/-- What a connection executes: it ends with a result or an error, or executes a statement, which
    rewrites the store and chooses what follows from the store it has met. -/
inductive Program (σ ε α : Type) where
  | finished (result : Except ε α)
  | statement (write : σ → σ) (next : σ → Program σ ε α)

namespace Program

variable {σ ε α β : Type}

/-- The program goes on with a result, and stops at an error. -/
def andThen : Program σ ε α → (α → Program σ ε β) → Program σ ε β
  | finished (.ok a), k => k a
  | finished (.error e), _ => finished (.error e)
  | statement write next, k => statement write fun s => andThen (next s) k

instance : Monad (Program σ ε) where
  pure a := finished (.ok a)
  bind := andThen

/-- A `throw` outside any transaction. -/
def fail (e : ε) : Program σ ε α := finished (.error e)

/-- A statement that only reads. -/
def select (read : σ → α) : Program σ ε α := statement id fun s => finished (.ok (read s))

/-- A statement that only writes. -/
def execute (write : σ → σ) : Program σ ε Unit := statement write fun _ => finished (.ok ())

/-- The program run alone. -/
def run : Program σ ε α → σ → Except ε α × σ
  | finished result, s => (result, s)
  | statement write next, s => run (next s) (write s)

@[simp] theorem run_pure (a : α) (s : σ) : run (pure a : Program σ ε α) s = (.ok a, s) := rfl

@[simp] theorem run_fail (e : ε) (s : σ) : run (fail e : Program σ ε α) s = (.error e, s) := rfl

@[simp] theorem run_finished (r : Except ε α) (s : σ) : run (finished r) s = (r, s) := rfl

@[simp] theorem run_select (read : σ → α) (s : σ) :
    run (select read : Program σ ε α) s = (.ok (read s), s) := rfl

@[simp] theorem run_execute (write : σ → σ) (s : σ) :
    run (execute write : Program σ ε Unit) s = (.ok (), write s) := rfl

theorem run_bind (p : Program σ ε α) (k : α → Program σ ε β) (s : σ) :
    run (p >>= k) s = match run p s with
      | (.ok a, t) => run (k a) t
      | (.error e, t) => (.error e, t) := by
  change run (andThen p k) s = _
  induction p generalizing s with
  | finished result => cases result <;> rfl
  | statement write next ih => exact ih s (write s)

theorem run_bind_of_ok {p : Program σ ε α} {k : α → Program σ ε β} {s t : σ} {a : α}
    (h : run p s = (.ok a, t)) : run (p >>= k) s = run (k a) t := by
  rw [run_bind, h]

theorem run_bind_of_error {p : Program σ ε α} {k : α → Program σ ε β} {s t : σ} {e : ε}
    (h : run p s = (.error e, t)) : run (p >>= k) s = (.error e, t) := by
  rw [run_bind, h]

theorem run_map (f : α → β) (p : Program σ ε α) (s : σ) :
    run (f <$> p) s = ((run p s).1.map f, (run p s).2) := by
  change run (p >>= fun a => pure (f a)) s = _
  rw [run_bind]
  cases run p s with
  | mk result t => cases result <;> rfl

/-- The program can return the value, in whatever stores its statements are executed. -/
def Returns : Program σ ε α → α → Prop
  | finished (.ok b), a => b = a
  | finished (.error _), _ => False
  | statement _ next, a => ∃ s, Returns (next s) a

@[simp] theorem returns_pure {a b : α} : Returns (pure b : Program σ ε α) a ↔ b = a := Iff.rfl

@[simp] theorem returns_fail {e : ε} {a : α} : Returns (fail e : Program σ ε α) a ↔ False := Iff.rfl

@[simp] theorem returns_select {read : σ → α} {a : α} :
    Returns (select read : Program σ ε α) a ↔ ∃ s, read s = a := Iff.rfl

theorem returns_bind {p : Program σ ε α} {k : α → Program σ ε β} {b : β} :
    Returns (p >>= k) b ↔ ∃ a, Returns p a ∧ Returns (k a) b := by
  change Returns (andThen p k) b ↔ _
  induction p with
  | finished result => cases result <;> simp [andThen, Returns]
  | statement write next ih =>
    simp only [andThen, Returns, ih]
    constructor
    · rintro ⟨s, a, ha, hb⟩
      exact ⟨a, ⟨s, ha⟩, hb⟩
    · rintro ⟨a, ⟨s, ha⟩, hb⟩
      exact ⟨s, a, ha, hb⟩

theorem returns_map {f : α → β} {p : Program σ ε α} {b : β} :
    Returns (f <$> p) b ↔ ∃ a, Returns p a ∧ f a = b :=
  returns_bind

/-! ### Programs within some parts -/

variable {κ : Type} {View : κ → Type} (view : (k : κ) → σ → View k) (parts : κ → Prop)

/-- Two stores with the same parts. -/
def Agree (s t : σ) : Prop := ∀ k, parts k → view k s = view k t

/-- Every statement of the program reads and writes only the given parts. -/
def Within : Program σ ε α → Prop
  | finished _ => True
  | statement write next =>
    (∀ s k, ¬ parts k → view k (write s) = view k s) ∧
      (∀ s t, Agree view parts s t → Agree view parts (write s) (write t) ∧ next s = next t) ∧
      ∀ s, Within (next s)

variable {view parts}

theorem Agree.trans {s t u : σ} (h : Agree view parts s t) (h' : Agree view parts t u) :
    Agree view parts s u :=
  fun k hk => (h k hk).trans (h' k hk)

theorem within_pure (a : α) : Within view parts (pure a : Program σ ε α) := trivial

theorem within_fail (e : ε) : Within view parts (fail e : Program σ ε α) := trivial

/-- A statement that ends the program. -/
theorem within_statement {write : σ → σ} {result : σ → Except ε α}
    (hframe : ∀ s k, ¬ parts k → view k (write s) = view k s)
    (hown : ∀ s t, Agree view parts s t → Agree view parts (write s) (write t) ∧ result s = result t) :
    Within view parts (statement write fun s => finished (result s)) :=
  ⟨hframe, fun s t hst => ⟨(hown s t hst).1, congrArg finished (hown s t hst).2⟩, fun _ => trivial⟩

theorem within_select {read : σ → α} (h : ∀ s t, Agree view parts s t → read s = read t) :
    Within view parts (select read : Program σ ε α) :=
  ⟨fun _ _ _ => rfl, fun s t hst => ⟨hst, congrArg (fun a => finished (.ok a)) (h s t hst)⟩,
    fun _ => trivial⟩

theorem within_execute {write : σ → σ}
    (hframe : ∀ s k, ¬ parts k → view k (write s) = view k s)
    (hown : ∀ s t, Agree view parts s t → Agree view parts (write s) (write t)) :
    Within view parts (execute write : Program σ ε Unit) :=
  ⟨hframe, fun s t hst => ⟨hown s t hst, rfl⟩, fun _ => trivial⟩

theorem within_bind {p : Program σ ε α} {k : α → Program σ ε β} (hp : Within view parts p)
    (hk : ∀ a, Returns p a → Within view parts (k a)) : Within view parts (p >>= k) := by
  change Within view parts (andThen p k)
  induction p with
  | finished result =>
    cases result with
    | ok a => exact hk a rfl
    | error e => exact trivial
  | statement write next ih =>
    obtain ⟨hframe, hown, hnext⟩ := hp
    refine ⟨hframe, fun s t hst => ?_, fun s => ih s (hnext s) fun a ha => hk a ⟨s, ha⟩⟩
    obtain ⟨hwrite, heq⟩ := hown s t hst
    exact ⟨hwrite, congrArg (fun q => andThen q k) heq⟩

theorem within_map (f : α → β) {p : Program σ ε α} (hp : Within view parts p) :
    Within view parts (f <$> p) :=
  within_bind hp fun _ _ => trivial

/-- On stores with the same parts a program ends the same way, in stores with the same parts. -/
theorem Within.run_congr {p : Program σ ε α} (h : Within view parts p) {s t : σ}
    (hst : Agree view parts s t) :
    (run p s).1 = (run p t).1 ∧ Agree view parts (run p s).2 (run p t).2 := by
  induction p generalizing s t with
  | finished result => exact ⟨rfl, hst⟩
  | statement write next ih =>
    obtain ⟨-, hown, hnext⟩ := h
    obtain ⟨hwrite, heq⟩ := hown s t hst
    simp only [run, ← heq]
    exact ih s (hnext s) hwrite

/-- A property that each statement keeps. -/
def Keeps (P : σ → Prop) : Program σ ε α → Prop
  | finished _ => True
  | statement write next => (∀ s, P s → P (write s)) ∧ ∀ s, Keeps P (next s)

theorem keeps_pure {P : σ → Prop} (a : α) : Keeps P (pure a : Program σ ε α) := trivial

theorem keeps_fail {P : σ → Prop} (e : ε) : Keeps P (fail e : Program σ ε α) := trivial

theorem keeps_statement {P : σ → Prop} {write : σ → σ} {result : σ → Except ε α}
    (h : ∀ s, P s → P (write s)) : Keeps P (statement write fun s => finished (result s)) :=
  ⟨h, fun _ => trivial⟩

theorem keeps_bind {P : σ → Prop} {p : Program σ ε α} {k : α → Program σ ε β} (hp : Keeps P p)
    (hk : ∀ a, Keeps P (k a)) : Keeps P (p >>= k) := by
  change Keeps P (andThen p k)
  induction p with
  | finished result =>
    cases result with
    | ok a => exact hk a
    | error e => exact trivial
  | statement write next ih => exact ⟨hp.1, fun s => ih s (hp.2 s)⟩

theorem keeps_map {P : σ → Prop} (f : α → β) {p : Program σ ε α} (hp : Keeps P p) :
    Keeps P (f <$> p) :=
  keeps_bind hp fun _ => trivial

theorem keeps_select {P : σ → Prop} (read : σ → α) : Keeps P (select read : Program σ ε α) :=
  ⟨fun _ h => h, fun _ => trivial⟩

theorem keeps_execute {P : σ → Prop} {write : σ → σ} (h : ∀ s, P s → P (write s)) :
    Keeps P (execute write : Program σ ε Unit) :=
  ⟨h, fun _ => trivial⟩

end Program

open Program Transitions

/-! ### Connections -/

variable {ι χ σ ε α : Type}

/-- A call in progress: the store it began in and the statements it has yet to execute. -/
structure Progress (χ σ ε α : Type) where
  call : χ
  begun : σ
  rest : Program σ ε α

/-- A call that has ended: its result, the store it began in and the one it ended in. -/
structure Completed (χ σ ε α : Type) where
  call : χ
  begun : σ
  result : Except ε α
  ended : σ

structure State (ι χ σ ε α : Type) where
  store : σ
  active : ι → Option (Progress χ σ ε α)
  completed : List (Completed χ σ ε α)

inductive Step (ι χ ε : Type) where
  | begin (connection : ι) (call : χ)
  /-- The connection executes its next statement, or returns when there is none. -/
  | advance (connection : ι)
  /-- The database refuses the next statement, and the call throws. -/
  | refuse (connection : ι) (error : ε)

variable [DecidableEq ι]

/-- The connection's call ends with a result. -/
def State.complete (s : State ι χ σ ε α) (connection : ι) (progress : Progress χ σ ε α)
    (result : Except ε α) : State ι χ σ ε α :=
  { s with
    active := Function.update s.active connection none
    completed := s.completed ++ [⟨progress.call, progress.begun, result, s.store⟩] }

variable (program : χ → Program σ ε α)

def step (s : State ι χ σ ε α) : Step ι χ ε → State ι χ σ ε α
  | .begin connection call =>
    match s.active connection with
    | none =>
      { s with active := Function.update s.active connection (some ⟨call, s.store, program call⟩) }
    | some _ => s
  | .advance connection =>
    match s.active connection with
    | none => s
    | some progress =>
      match progress.rest with
      | .finished result => s.complete connection progress result
      | .statement write next =>
        { s with
          store := write s.store
          active := Function.update s.active connection
            (some { progress with rest := next s.store }) }
  | .refuse connection error =>
    match s.active connection with
    | none => s
    | some progress => s.complete connection progress (.error error)

/-- The connections over a store in which none of them has begun. -/
def machine (init : σ) : Machine (State ι χ σ ε α) (Step ι χ ε) where
  init := ⟨init, fun _ => none, []⟩
  step := step program

variable {κ : Type} {View : κ → Type} (view : (k : κ) → σ → View k) (parts : χ → κ → Prop)

/-- No call in progress is within the part. -/
def Quiet (s : State ι χ σ ε α) (k : κ) : Prop :=
  ∀ connection progress, s.active connection = some progress → ¬ parts progress.call k

/-- A call begins where no call in progress shares a part with it, and in a store that admits it; a
    statement is refused only before the call has changed its parts. -/
def Orderly (admits : χ → σ → Prop) (s : State ι χ σ ε α) : Step ι χ ε → Prop
  | .begin _ call => (∀ k, parts call k → Quiet parts s k) ∧ admits call s.store
  | .advance _ => True
  | .refuse connection _ =>
    ∀ progress, s.active connection = some progress →
      Agree view (parts progress.call) progress.begun s.store

/-- A call that ended as its program ends when it runs alone, or that was refused and changed
    nothing. -/
def Completed.Alone (done : Completed χ σ ε α) : Prop :=
  (done.result = (run (program done.call) done.begun).1 ∧
      Agree view (parts done.call) (run (program done.call) done.begun).2 done.ended) ∨
    ((∃ e, done.result = .error e) ∧ Agree view (parts done.call) done.begun done.ended)

/-- What holds in every state: calls in progress share no part, each is on the way to where its
    program ends when it runs alone, and the parts are `Good` where no call is in progress. -/
structure Settled (admits : χ → σ → Prop) (Good : κ → σ → Prop) (s : State ι χ σ ε α) : Prop where
  quiet : ∀ k, Quiet parts s k → Good k s.store
  disjoint : ∀ i j p q, s.active i = some p → s.active j = some q → i ≠ j →
    ∀ k, parts p.call k → ¬ parts q.call k
  admitted : ∀ i p, s.active i = some p →
    admits p.call p.begun ∧ ∀ k, parts p.call k → Good k p.begun
  within : ∀ i p, s.active i = some p → Within view (parts p.call) p.rest
  onTheWay : ∀ i p, s.active i = some p →
    (run p.rest s.store).1 = (run (program p.call) p.begun).1 ∧
      Agree view (parts p.call) (run (program p.call) p.begun).2 (run p.rest s.store).2
  completed : ∀ done ∈ s.completed, done.Alone program view parts ∧
    admits done.call done.begun ∧ ∀ k, parts done.call k → Good k done.begun

variable {program view parts} {admits : χ → σ → Prop} {Good : κ → σ → Prop}
  {s : State ι χ σ ε α}

/-- A call begins. -/
theorem Settled.begin (hwithin : ∀ call, Within view (parts call) (program call))
    (h : Settled program view parts admits Good s) {i : ι} {call : χ}
    (hdisjoint : ∀ k, parts call k → Quiet parts s k) (hadmits : admits call s.store) :
    Settled program view parts admits Good (step program s (.begin i call)) := by
  cases hi : s.active i with
  | some p => simpa only [step, hi] using h
  | none =>
    simp only [step, hi]
    have hactive : ∀ {j p}, Function.update s.active i (some ⟨call, s.store, program call⟩) j =
        some p → (j = i ∧ p = ⟨call, s.store, program call⟩) ∨ (j ≠ i ∧ s.active j = some p) := by
      intro j p hj
      by_cases heq : j = i
      · subst heq
        rw [Function.update_self] at hj
        exact Or.inl ⟨rfl, (Option.some.inj hj).symm⟩
      · rw [Function.update_of_ne heq] at hj
        exact Or.inr ⟨heq, hj⟩
    constructor
    · intro k hk
      refine h.quiet k fun j p hj => ?_
      refine hk j p ?_
      have hne : j ≠ i := by
        rintro rfl
        rw [hi] at hj
        cases hj
      simpa only [Function.update_of_ne hne] using hj
    · intro a b p q ha hb hne k hp hq
      rcases hactive ha with ⟨rfl, rfl⟩ | ⟨-, ha'⟩ <;>
        rcases hactive hb with ⟨rfl, rfl⟩ | ⟨-, hb'⟩
      · exact hne rfl
      · exact hdisjoint k hp b q hb' hq
      · exact hdisjoint k hq a p ha' hp
      · exact h.disjoint a b p q ha' hb' hne k hp hq
    · intro j p hj
      rcases hactive hj with ⟨rfl, rfl⟩ | ⟨-, hj⟩
      · exact ⟨hadmits, fun k hk => h.quiet k (hdisjoint k hk)⟩
      · exact h.admitted j p hj
    · intro j p hj
      rcases hactive hj with ⟨rfl, rfl⟩ | ⟨-, hj⟩
      · exact hwithin call
      · exact h.within j p hj
    · intro j p hj
      rcases hactive hj with ⟨rfl, rfl⟩ | ⟨-, hj⟩
      · exact ⟨rfl, fun _ _ => rfl⟩
      · exact h.onTheWay j p hj
    · exact h.completed

/-- A call ends. -/
theorem Settled.complete (h : Settled program view parts admits Good s) {i : ι}
    {p : Progress χ σ ε α} {result : Except ε α} (hi : s.active i = some p)
    (halone : Completed.Alone program view parts ⟨p.call, p.begun, result, s.store⟩)
    (hgood : ∀ k, parts p.call k → Good k s.store) :
    Settled program view parts admits Good (s.complete i p result) := by
  have hactive : ∀ {j q}, Function.update s.active i none j = some q →
      j ≠ i ∧ s.active j = some q := by
    intro j q hj
    by_cases heq : j = i
    · subst heq
      rw [Function.update_self] at hj
      cases hj
    · exact ⟨heq, by rwa [Function.update_of_ne heq] at hj⟩
  constructor
  · intro k hk
    by_cases hp : parts p.call k
    · exact hgood k hp
    · refine h.quiet k fun j q hj => ?_
      by_cases heq : j = i
      · subst heq
        rw [hi] at hj
        obtain rfl := Option.some.inj hj
        exact hp
      · exact hk j q (by simpa only [State.complete, Function.update_of_ne heq] using hj)
  · intro a b q r ha hb
    exact h.disjoint a b q r (hactive ha).2 (hactive hb).2
  · exact fun j q hj => h.admitted j q (hactive hj).2
  · exact fun j q hj => h.within j q (hactive hj).2
  · exact fun j q hj => h.onTheWay j q (hactive hj).2
  · intro done hdone
    rcases List.mem_append.mp hdone with hdone | hdone
    · exact h.completed done hdone
    · obtain rfl := List.mem_singleton.mp hdone
      exact ⟨halone, h.admitted i p hi⟩

/-- A call executes a statement: the calls of the other connections do not notice. -/
theorem Settled.statement (hview : ∀ k s t, view k s = view k t → Good k s → Good k t)
    (h : Settled program view parts admits Good s) {i : ι} {p : Progress χ σ ε α}
    {write : σ → σ} {next : σ → Program σ ε α} (hi : s.active i = some p)
    (hrest : p.rest = .statement write next) :
    Settled program view parts admits Good
      { s with
        store := write s.store
        active := Function.update s.active i (some { p with rest := next s.store }) } := by
  have hactive : ∀ {j q}, Function.update s.active i (some { p with rest := next s.store }) j =
      some q → (j = i ∧ q = { p with rest := next s.store }) ∨ (j ≠ i ∧ s.active j = some q) := by
    intro j q hj
    by_cases heq : j = i
    · subst heq
      rw [Function.update_self] at hj
      exact Or.inl ⟨rfl, (Option.some.inj hj).symm⟩
    · rw [Function.update_of_ne heq] at hj
      exact Or.inr ⟨heq, hj⟩
  have hwithin := h.within i p hi
  rw [hrest] at hwithin
  obtain ⟨hframe, -, hnext⟩ := hwithin
  constructor
  · intro k hk
    have hp : ¬ parts p.call k :=
      hk i { p with rest := next s.store } (Function.update_self i _ s.active)
    refine hview k s.store _ (hframe s.store k hp).symm (h.quiet k fun j q hj => ?_)
    by_cases heq : j = i
    · subst heq
      rw [hi] at hj
      obtain rfl := Option.some.inj hj
      exact hp
    · exact hk j q (by simpa only [Function.update_of_ne heq] using hj)
  · intro a b q r ha hb hne k hq hr
    rcases hactive ha with ⟨rfl, rfl⟩ | ⟨-, ha'⟩ <;>
      rcases hactive hb with ⟨rfl, rfl⟩ | ⟨-, hb'⟩
    · exact hne rfl
    · exact h.disjoint a b p r hi hb' hne k hq hr
    · exact h.disjoint a b q p ha' hi hne k hq hr
    · exact h.disjoint a b q r ha' hb' hne k hq hr
  · intro j q hj
    rcases hactive hj with ⟨rfl, rfl⟩ | ⟨-, hj⟩
    · exact h.admitted j p hi
    · exact h.admitted j q hj
  · intro j q hj
    rcases hactive hj with ⟨rfl, rfl⟩ | ⟨-, hj⟩
    · exact hnext s.store
    · exact h.within j q hj
  · intro j q hj
    rcases hactive hj with ⟨rfl, rfl⟩ | ⟨hne, hj⟩
    · have hway := h.onTheWay j p hi
      rwa [hrest] at hway
    · -- the statement is outside the parts of the other call
      obtain ⟨hresult, hagree⟩ := h.onTheWay j q hj
      have hsame : Agree view (parts q.call) s.store (write s.store) := fun k hk =>
        (hframe s.store k fun hp => h.disjoint j i q p hj hi hne k hk hp).symm
      obtain ⟨hresult', hagree'⟩ := (h.within j q hj).run_congr hsame
      exact ⟨hresult'.symm.trans hresult, hagree.trans hagree'⟩
  · exact h.completed

/-- What an orderly step preserves. -/
theorem Settled.step (hwithin : ∀ call, Within view (parts call) (program call))
    (hview : ∀ k s t, view k s = view k t → Good k s → Good k t)
    (hcall : ∀ call s, (∀ k, parts call k → Good k s) → admits call s →
      ∀ k, parts call k → Good k (run (program call) s).2)
    (h : Settled program view parts admits Good s) {l : Step ι χ ε}
    (hl : Orderly view parts admits s l) :
    Settled program view parts admits Good (step program s l) := by
  cases l with
  | begin i call => exact h.begin hwithin hl.1 hl.2
  | advance i =>
    cases hi : s.active i with
    | none => simpa only [Interleaving.step, hi] using h
    | some p =>
      cases hrest : p.rest with
      | statement write next =>
        simp only [Interleaving.step, hi, hrest]
        exact h.statement hview hi hrest
      | finished result =>
        simp only [Interleaving.step, hi, hrest]
        obtain ⟨hresult, hagree⟩ := h.onTheWay i p hi
        rw [hrest] at hresult hagree
        obtain ⟨hadmits, hbegun⟩ := h.admitted i p hi
        refine h.complete hi (Or.inl ⟨hresult, hagree⟩) fun k hk => ?_
        exact hview k _ _ (hagree k hk) (hcall p.call p.begun hbegun hadmits k hk)
  | refuse i error =>
    cases hi : s.active i with
    | none => simpa only [Interleaving.step, hi] using h
    | some p =>
      simp only [Interleaving.step, hi]
      have hsame := hl p hi
      refine h.complete hi (Or.inr ⟨⟨error, rfl⟩, hsame⟩) fun k hk => ?_
      exact hview k _ _ (hsame k hk) ((h.admitted i p hi).2 k hk)

/-- What orderly runs reach. -/
theorem run_settled (hwithin : ∀ call, Within view (parts call) (program call))
    (hview : ∀ k s t, view k s = view k t → Good k s → Good k t)
    (hcall : ∀ call s, (∀ k, parts call k → Good k s) → admits call s →
      ∀ k, parts call k → Good k (run (program call) s).2)
    {init : σ} (hinit : ∀ k, Good k init) {ls : List (Step ι χ ε)}
    (hls : (machine program init).Throughout (Orderly view parts admits)
      (machine program init).init ls) :
    Settled program view parts admits Good ((machine program init).run ls) := by
  refine Machine.runFrom_invariant_of (fun s l h hl => h.step hwithin hview hcall hl) ?_ hls
  exact
    { quiet := fun k _ => hinit k
      disjoint := fun _ _ _ _ h => nomatch h
      admitted := fun _ _ h => nomatch h
      within := fun _ _ h => nomatch h
      onTheWay := fun _ _ h => nomatch h
      completed := fun _ h => nomatch h }

theorem rest_step {P : σ → Prop} (hkeeps : ∀ call, Keeps P (program call))
    (hrest : ∀ i p, s.active i = some p → Keeps P p.rest) (l : Step ι χ ε) :
    ∀ i p, (step program s l).active i = some p → Keeps P p.rest := by
  have hupdate : ∀ (connection : ι) (q : Option (Progress χ σ ε α)),
      (∀ p, q = some p → Keeps P p.rest) →
        ∀ i p, Function.update s.active connection q i = some p → Keeps P p.rest := by
    intro connection q hq i p hi
    by_cases heq : i = connection
    · subst heq
      rw [Function.update_self] at hi
      exact hq p hi
    · rw [Function.update_of_ne heq] at hi
      exact hrest i p hi
  cases l with
  | begin connection call =>
    cases h : s.active connection with
    | some p => simpa only [step, h] using hrest
    | none =>
      simp only [step, h]
      exact hupdate connection _ fun p hp => Option.some.inj hp ▸ hkeeps call
  | advance connection =>
    cases h : s.active connection with
    | none => simpa only [step, h] using hrest
    | some p =>
      have hp := hrest connection p h
      cases hstatement : p.rest with
      | finished result =>
        simp only [step, h, hstatement]
        exact hupdate connection none fun _ hnone => nomatch hnone
      | statement write next =>
        simp only [step, h, hstatement]
        rw [hstatement] at hp
        exact hupdate connection _ fun q hq => Option.some.inj hq ▸ hp.2 s.store
  | refuse connection error =>
    cases h : s.active connection with
    | none => simpa only [step, h] using hrest
    | some p =>
      simp only [step, h]
      exact hupdate connection none fun _ hnone => nomatch hnone

/-- What every statement of the calls in progress keeps, a step keeps. -/
theorem store_step {P : σ → Prop} (hrest : ∀ i p, s.active i = some p → Keeps P p.rest)
    (hs : P s.store) (l : Step ι χ ε) : P (step program s l).store := by
  cases l with
  | begin connection call =>
    cases h : s.active connection <;> simpa only [step, h] using hs
  | advance connection =>
    cases h : s.active connection with
    | none => simpa only [step, h] using hs
    | some p =>
      have hp := hrest connection p h
      cases hstatement : p.rest with
      | finished result => simpa only [step, h, hstatement, State.complete] using hs
      | statement write next =>
        simp only [step, h, hstatement]
        rw [hstatement] at hp
        exact hp.1 s.store hs
  | refuse connection error =>
    cases h : s.active connection <;> simpa only [step, h, State.complete] using hs

/-- A call ends in the store as it is. -/
theorem completed_step {done : Completed χ σ ε α} {l : Step ι χ ε}
    (h : done ∈ (step program s l).completed) :
    done ∈ s.completed ∨ (done.ended = s.store ∧ (step program s l).store = s.store) := by
  have hnew : ∀ connection (p : Progress χ σ ε α) result,
      done ∈ (s.complete connection p result).completed →
        done ∈ s.completed ∨ (done.ended = s.store ∧ (s.complete connection p result).store =
          s.store) := by
    intro connection p result hdone
    rcases List.mem_append.mp hdone with hdone | hdone
    · exact Or.inl hdone
    · rw [List.mem_singleton.mp hdone]
      exact Or.inr ⟨rfl, rfl⟩
  cases l with
  | begin connection call =>
    cases hi : s.active connection <;> simp only [step, hi] at h ⊢ <;> exact Or.inl h
  | advance connection =>
    cases hi : s.active connection with
    | none =>
      simp only [step, hi] at h
      exact Or.inl h
    | some p =>
      cases hrest : p.rest with
      | finished result =>
        simp only [step, hi, hrest] at h ⊢
        exact hnew connection p result h
      | statement write next =>
        simp only [step, hi, hrest] at h
        exact Or.inl h
  | refuse connection error =>
    cases hi : s.active connection with
    | none =>
      simp only [step, hi] at h
      exact Or.inl h
    | some p =>
      simp only [step, hi] at h ⊢
      exact hnew connection p (.error error) h

/-- What every statement of every program keeps, the store keeps after a call has ended. -/
theorem run_kept {τ : Type} {P : τ → σ → Prop} (hkeeps : ∀ call x, Keeps (P x) (program call))
    (init : σ) (ls : List (Step ι χ ε)) :
    (∀ i p, ((machine program init).run ls).active i = some p → ∀ x, Keeps (P x) p.rest) ∧
      ∀ done ∈ ((machine program init).run ls).completed, ∀ x, P x done.ended →
        P x ((machine program init).run ls).store := by
  refine Machine.run_invariant (P := fun s : State ι χ σ ε α =>
    (∀ i p, s.active i = some p → ∀ x, Keeps (P x) p.rest) ∧
      ∀ done ∈ s.completed, ∀ x, P x done.ended → P x s.store)
    ⟨?_, ?_⟩ (fun s l h => ?_) ls
  · intro i p h
    cases h
  · intro done h
    cases h
  obtain ⟨hrest, hdone⟩ := h
  refine ⟨fun i p hi x => ?_, fun done hmem x hx => ?_⟩
  · exact rest_step (fun call => hkeeps call x) (fun i p hi => hrest i p hi x) l i p hi
  · rcases completed_step hmem with hmem | ⟨hended, hstore⟩
    · exact store_step (fun i p hi => hrest i p hi x) (hdone done hmem x hx) l
    · change P x (step program s l).store
      rw [hstore, ← hended]
      exact hx

-- programs are within their parts by the lemmas above, not by evaluation
attribute [irreducible] Program.Within Program.Keeps

end Interleaving
