import MarkorbitKnowledge.Staging.Frontmatter
import Mathlib.Data.List.Nodup
import Mathlib.Tactic.MkIffOfInductiveProp

/-!
# The fields a frontmatter declares

What `parseLines` accepts, without its loop.  An `Entry` is a line that is neither blank nor a
comment: its indentation, its key and its text.  An unindented entry without text is the parent of
the indented entries up to the next unindented one; every other entry declares a field.
`parseLines_eq_ok` says that the loop accepts the lines whose entries are in order: even indentation,
short keys, a parent for what is indented, distinct paths, at most 64 of them, and texts that are
scalars.
-/

namespace MarkorbitKnowledge.Staging

open Contracts Fallible

/-! ### Entries -/

structure Entry where
  indent : Nat
  key : Text
  text : Text
deriving DecidableEq

/-- The entry of a line that is one. -/
def entryOf (line : Text) : Option Entry :=
  if isSkipped line then none
  else (matchField (trimText line)).map fun parts =>
    { indent := indentOf line, key := parts.1, text := trimText parts.2 }

def Entry.isParent (e : Entry) : Bool := e.indent == 0 && e.text.isEmpty

/-- The parent of what follows an entry. -/
def Entry.after (e : Entry) (parent : Option Text) : Option Text :=
  if e.indent = 0 then (if e.text = [] then some e.key else none) else parent

/-- The path of the field that an entry declares under a parent. -/
def Entry.path (e : Entry) (parent : Option Text) : Text :=
  fieldPath (if e.indent = 0 then none else parent) e.key

/-- A field as it is declared: its path and the text of its value. -/
structure Declaration where
  path : Text
  text : Text
deriving DecidableEq

/-- The fields that entries declare, from a parent on. -/
def declarations (parent : Option Text) : List Entry → List Declaration
  | [] => []
  | e :: es =>
    if e.isParent then declarations (e.after parent) es
    else { path := e.path parent, text := e.text } :: declarations (e.after parent) es

/-- The parent after all entries. -/
def lastParent (parent : Option Text) (es : List Entry) : Option Text :=
  es.foldl (fun parent e => e.after parent) parent

/-- Every indented entry has a parent. -/
def Nested (parent : Option Text) : List Entry → Prop
  | [] => True
  | e :: es => (e.indent = 0 ∨ parent ≠ none) ∧ Nested (e.after parent) es

/-- A line the loop passes over, or whose entry is within the limits. -/
structure WellFormed (line : Text) : Prop where
  isEntry : isSkipped line = false → entryOf line ≠ none
  limits : ∀ e, entryOf line = some e →
    (e.indent % 2 = 0 ∧ e.indent ≤ MAX_DEPTH * 2) ∧ textLength e.key ≤ MAX_KEY_LENGTH

/-- The field that is recorded for a declaration, if its text is a scalar. -/
def Declaration.read (d : Declaration) : Option ParsedField :=
  (scalar d.text).map fun value => { path := d.path, value := value.1, valueType := value.2 }

/-! ### One line -/

/-- What an entry does to the state, where its line is well formed. -/
@[mk_iff]
structure Declares (state : LineState) (e : Entry) (state' : LineState) : Prop where
  nested : e.indent = 0 ∨ state.parent ≠ none
  fresh : e.path state.parent ∉ state.paths
  room : state.fields.length + 1 ≤ MAX_FIELDS
  field : ∃ field, Declaration.read { path := e.path state.parent, text := e.text } = some field ∧
    state' = { parent := e.after state.parent, fields := state.fields ++ [field] }

theorem wellFormed_skipped {line : Text} (h : isSkipped line = true) :
    WellFormed line ∧ entryOf line = none := by
  have hentry : entryOf line = none := by rw [entryOf, if_pos h]
  refine ⟨⟨?_, ?_⟩, hentry⟩
  · intro hno
    rw [h] at hno
    cases hno
  · intro e he
    rw [hentry] at he
    cases he

theorem wellFormed_entry {line : Text} {e : Entry} (h : entryOf line = some e) :
    WellFormed line ↔
      (e.indent % 2 = 0 ∧ e.indent ≤ MAX_DEPTH * 2) ∧ textLength e.key ≤ MAX_KEY_LENGTH := by
  constructor
  · intro hline
    exact hline.limits e h
  · intro hlimits
    refine ⟨fun _ => by simp [h], ?_⟩
    intro e' he'
    rw [h, Option.some.injEq] at he'
    exact he' ▸ hlimits

theorem Entry.after_eq (e : Entry) (parent : Option Text) (h : e.isParent = false) :
    e.after parent = if e.indent = 0 then none else parent := by
  simp only [Entry.isParent, Bool.and_eq_false_iff, beq_eq_false_iff_ne, ne_eq,
    List.isEmpty_eq_false_iff] at h
  unfold Entry.after
  split
  · rename_i hindent
    rw [if_neg (h.resolve_left (fun h => h hindent))]
  · rfl

/-- What the loop does with a line, in terms of its entry. -/
theorem parseLine_eq_ok {state state' : LineState} {line : Text} :
    parseLine state line = .ok state' ↔ WellFormed line ∧
      match entryOf line with
      | none => state' = state
      | some e =>
        if e.isParent then state' = { state with parent := e.after state.parent }
        else Declares state e state' := by
  by_cases hskip : isSkipped line = true
  · obtain ⟨hline, hentry⟩ := wellFormed_skipped hskip
    rw [hentry]
    simp [parseLine, hskip, hline, pure, Except.pure, eq_comm]
  · have hunskipped : isSkipped line = false := by simpa using hskip
    simp only [parseLine, hunskipped, Bool.false_eq_true, if_false, bind_eq_ok, require_eq_ok,
      orThrow_eq_ok]
    cases hmatch : matchField (trimText line) with
    | none =>
      have hentry : entryOf line = none := by simp [entryOf, hunskipped, hmatch]
      constructor
      · rintro ⟨_, -, _, hsome, -⟩
        cases hsome
      · rintro ⟨hline, -⟩
        exact absurd hentry (hline.isEntry hunskipped)
    | some parts =>
      have hentry : entryOf line =
          some { indent := indentOf line, key := parts.1, text := trimText parts.2 } := by
        simp [entryOf, hunskipped, hmatch]
      rw [hentry, wellFormed_entry hentry]
      simp only [Option.some.injEq, exists_eq_left', exists_and_left, exists_const]
      rw [← and_assoc]
      refine and_congr_right fun _ => ?_
      by_cases hparent : indentOf line = 0 ∧ trimText parts.2 = []
      · rw [if_pos hparent, if_pos (by simpa [Entry.isParent] using hparent), pure_eq_ok, eq_comm]
        simp [Entry.after, hparent]
      · have hisParent : Entry.isParent
            { indent := indentOf line, key := parts.1, text := trimText parts.2 } = false := by
          simpa [Entry.isParent] using hparent
        rw [if_neg hparent]
        simp only [hisParent, Bool.false_eq_true, if_false, bind_eq_ok, require_eq_ok,
          orThrow_eq_ok, pure_eq_ok, exists_and_left, exists_const]
        have hafter := Entry.after_eq _ state.parent hisParent
        have hnested : (indentOf line = 0 ∨
            (if indentOf line = 0 then none else state.parent) ≠ none) ↔
            indentOf line = 0 ∨ state.parent ≠ none := by
          by_cases h0 : indentOf line = 0 <;> simp [h0]
        rw [hnested, declares_iff, hafter]
        simp only [Entry.path, Declaration.read, Option.map_eq_some_iff, exists_exists_and_eq_and,
          eq_comm (a := state')]

/-! ### All lines -/

/-- The entries of lines. -/
def entries (lines : List Text) : List Entry := lines.filterMap entryOf

@[simp] theorem entries_nil : entries [] = [] := rfl

theorem entries_cons_none {line : Text} (h : entryOf line = none) (lines : List Text) :
    entries (line :: lines) = entries lines := by
  rw [entries, List.filterMap_cons_none h]
  rfl

theorem entries_cons_some {line : Text} {e : Entry} (h : entryOf line = some e)
    (lines : List Text) : entries (line :: lines) = e :: entries lines := by
  rw [entries, List.filterMap_cons_some h]
  rfl

theorem Declaration.path_read {d : Declaration} {field : ParsedField} (h : d.read = some field) :
    field.path = d.path := by
  simp only [Declaration.read, Option.map_eq_some_iff] at h
  obtain ⟨_, -, rfl⟩ := h
  rfl

namespace Declares

variable {state next : LineState} {e : Entry}

theorem distinct (h : Declares state e next) (hdistinct : state.paths.Nodup) :
    next.paths.Nodup := by
  obtain ⟨field, hfield, rfl⟩ := h.field
  rw [LineState.paths, List.map_append, List.map_singleton, Declaration.path_read hfield,
    ← List.concat_eq_append]
  exact List.Nodup.concat h.fresh hdistinct

theorem room_le (h : Declares state e next) : next.fields.length ≤ MAX_FIELDS := by
  obtain ⟨field, -, rfl⟩ := h.field
  rw [List.length_append, List.length_singleton]
  exact h.room

end Declares

/-- What the loop accepts from the entries of well-formed lines, and what it has recorded in the
    end. -/
@[mk_iff]
structure Accepts (state : LineState) (es : List Entry) (state' : LineState) : Prop where
  nested : Nested state.parent es
  distinct : (state.paths ++ (declarations state.parent es).map (·.path)).Nodup
  room : state.fields.length + (declarations state.parent es).length ≤ MAX_FIELDS
  fields : ∃ fields, (declarations state.parent es).mapM Declaration.read = some fields ∧
    state' = { parent := lastParent state.parent es, fields := state.fields ++ fields }

namespace Accepts

variable {state state' : LineState} {e : Entry} {es : List Entry}

theorem nil_iff (hdistinct : state.paths.Nodup) (hroom : state.fields.length ≤ MAX_FIELDS) :
    Accepts state [] state' ↔ state' = state := by
  simp [accepts_iff, Nested, declarations, lastParent, hdistinct, hroom]

theorem parent_iff (h : e.isParent = true) :
    Accepts state (e :: es) state' ↔
      Accepts { state with parent := e.after state.parent } es state' := by
  have h0 : e.indent = 0 := by
    simp only [Entry.isParent, Bool.and_eq_true, beq_iff_eq] at h
    exact h.1
  simp [accepts_iff, Nested, declarations, lastParent, LineState.paths, h, h0]

theorem field_iff (h : e.isParent = false) :
    Accepts state (e :: es) state' ↔
      ∃ next, Declares state e next ∧ Accepts next es state' := by
  constructor
  · rintro ⟨hnested, hdistinct, hroom, fields, hfields, rfl⟩
    simp only [declarations, h, Bool.false_eq_true, if_false, List.map_cons,
      List.length_cons, List.mapM_cons, Option.bind_eq_bind, Option.bind_eq_some_iff,
      Option.pure_def, Option.some.injEq] at hdistinct hroom hfields
    obtain ⟨field, hfield, more, hmore, rfl⟩ := hfields
    have hpath : field.path = e.path state.parent := Declaration.path_read hfield
    refine ⟨{ parent := e.after state.parent, fields := state.fields ++ [field] },
      ⟨hnested.1, ?_, by omega, field, hfield, rfl⟩, hnested.2, ?_, ?_, more, hmore, ?_⟩
    · intro hmem
      exact (List.nodup_append.mp hdistinct).2.2 _ hmem _ List.mem_cons_self rfl
    · rw [LineState.paths, List.map_append, List.map_singleton, hpath, List.append_assoc]
      exact hdistinct
    · simp only [List.length_append, List.length_singleton]
      omega
    · simp [lastParent]
  · rintro ⟨_, ⟨hhere, hfresh, hroom, field, hfield, rfl⟩, hnested, hdistinct, htotal, more, hmore,
      rfl⟩
    have hpath : field.path = e.path state.parent := Declaration.path_read hfield
    simp only [LineState.paths, List.map_append, List.map_singleton, hpath, List.append_assoc,
      List.length_append, List.length_singleton] at hdistinct htotal
    refine ⟨⟨hhere, hnested⟩, ?_, ?_, field :: more, ?_, ?_⟩
    · simpa [declarations, h, LineState.paths] using hdistinct
    · simp only [declarations, h, Bool.false_eq_true, if_false, List.length_cons]
      omega
    · simp [declarations, h, hfield, hmore]
    · simp [lastParent]

end Accepts

theorem parseLines_eq_ok {state state' : LineState} (hdistinct : state.paths.Nodup)
    (hroom : state.fields.length ≤ MAX_FIELDS) {lines : List Text} :
    parseLines state lines = .ok state' ↔
      (∀ line ∈ lines, WellFormed line) ∧ Accepts state (entries lines) state' := by
  induction lines generalizing state with
  | nil =>
    rw [entries_nil, Accepts.nil_iff hdistinct hroom]
    simp [parseLines, pure, Except.pure, eq_comm]
  | cons line lines ih =>
    have hcons : parseLines state (line :: lines) = .ok state' ↔
        ∃ next, parseLine state line = .ok next ∧ parseLines next lines = .ok state' := by
      rw [parseLines, List.foldlM_cons, bind_eq_ok]
      rfl
    rw [hcons, List.forall_mem_cons]
    simp only [parseLine_eq_ok]
    cases hentry : entryOf line with
    | none =>
      rw [entries_cons_none hentry]
      simp only [and_assoc, exists_and_left, exists_eq_left, ih hdistinct hroom]
    | some e =>
      rw [entries_cons_some hentry]
      cases hparent : e.isParent with
      | true =>
        have := @ih { state with parent := e.after state.parent } hdistinct hroom
        simp only [hparent, if_true, and_assoc, exists_and_left, exists_eq_left, this,
          Accepts.parent_iff hparent]
      | false =>
        simp only [hparent, Bool.false_eq_true, if_false, and_assoc, exists_and_left,
          Accepts.field_iff hparent]
        refine and_congr_right fun _ => ?_
        rw [← exists_and_left]
        refine exists_congr fun next => ?_
        rw [and_left_comm]
        refine and_congr_right fun hnext => ih ?_ ?_
        · exact hnext.distinct hdistinct
        · exact hnext.room_le

/-! ### The whole frontmatter -/

theorem parseRaw_eq_ok {raw : Text} {state : LineState} :
    parseRaw raw = .ok state ↔ utf8Length raw ≤ MAX_FRONTMATTER_BYTES ∧
      containsForbiddenYamlSyntax raw = false ∧ (∀ line ∈ raw.splitOn '\n', WellFormed line) ∧
      Accepts { parent := none, fields := [] } (entries (raw.splitOn '\n')) state := by
  have hlines := @parseLines_eq_ok { parent := none, fields := [] } state List.nodup_nil
    (Nat.zero_le _) (raw.splitOn '\n')
  simp only [parseRaw, bind_eq_ok, require_eq_ok, exists_and_left, exists_const, hlines]

end MarkorbitKnowledge.Staging
