import MarkorbitKnowledge.Contracts.Json
import MarkorbitKnowledge.Lib.Window

/-!
# Digests of requests

`stable` and `digest` of `conversion-runtime-transitions.ts`.  A replayed request is known by the digest
of its text with sorted keys.  `stable_eq_iff` says what that text keeps: the value up to the order of
members, members that are `undefined` left out, and `undefined` elsewhere read as null.  The texts can be
taken apart in one way only (`unique_stable`), whatever they are nested in.
-/

namespace MarkorbitKnowledge.Conversion

open Contracts

/-- A value of JavaScript without functions; a number is finite. -/
inductive JsonValue where
  | undefined
  | null
  | boolean (b : Bool)
  | number (n : JsonNumber)
  | string (s : JsString)
  | array (items : List JsonValue)
  | object (members : List (JsString × JsonValue))

def JsonValue.isUndefined : JsonValue → Bool
  | .undefined => true
  | _ => false

/-- `sort()` of the keys, by their code units. -/
def sortedKeys (members : List (JsString × Text)) : List (JsString × Text) :=
  Window.ordered (fun member => member.1.map UInt16.toNat) members

/-- A member in the text of its object. -/
def memberText (member : JsString × Text) : Text := quoted member.1 ++ ':' :: member.2

mutual

def stable : JsonValue → Text
  | .undefined => ['n', 'u', 'l', 'l']
  | .array items => '[' :: (commaSeparated (stableItems items) ++ [']'])
  | .object members =>
    '{' :: (commaSeparated ((sortedKeys (stableMembers members)).map memberText) ++ ['}'])
  | .null => ['n', 'u', 'l', 'l']
  | .boolean true => ['t', 'r', 'u', 'e']
  | .boolean false => ['f', 'a', 'l', 's', 'e']
  | .number n => numberText n
  | .string s => quoted s

/-- The texts of the items of an array. -/
def stableItems : List JsonValue → List Text
  | [] => []
  | item :: items => stable item :: stableItems items

/-- The members of an object that are not `undefined`, with their texts. -/
def stableMembers : List (JsString × JsonValue) → List (JsString × Text)
  | [] => []
  | (name, value) :: members =>
    if value.isUndefined then stableMembers members
    else (name, stable value) :: stableMembers members

end

def digest (sha256 : ByteArray → Digest) (value : JsonValue) : Digest :=
  sha256 (encodeText (stable value))

/-! ### Equal values -/

/-- The member of an object, none where there is none or it is `undefined`. -/
def member (members : List (JsString × JsonValue)) (name : JsString) : Option JsonValue :=
  ((members.find? fun entry => decide (entry.1 = name)).map Prod.snd).filter fun value =>
    !value.isUndefined

/-- The members of an object have different names, at every depth. -/
inductive WellFormed : JsonValue → Prop where
  | undefined : WellFormed .undefined
  | null : WellFormed .null
  | boolean (b : Bool) : WellFormed (.boolean b)
  | number (n : JsonNumber) : WellFormed (.number n)
  | string (s : JsString) : WellFormed (.string s)
  | array {items : List JsonValue} : (∀ item ∈ items, WellFormed item) → WellFormed (.array items)
  | object {members : List (JsString × JsonValue)} : (members.map Prod.fst).Nodup →
      (∀ entry ∈ members, WellFormed entry.2) → WellFormed (.object members)

/-- Outside an object `undefined` stands for null. -/
def Nullish (value : JsonValue) : Prop := value = .undefined ∨ value = .null

/-- Equal as JSON values, the order of members and `undefined` members ignored. -/
inductive Same : JsonValue → JsonValue → Prop where
  | nullish {v w : JsonValue} : Nullish v → Nullish w → Same v w
  | boolean (b : Bool) : Same (.boolean b) (.boolean b)
  | number (n : JsonNumber) : Same (.number n) (.number n)
  | string (s : JsString) : Same (.string s) (.string s)
  | array {items items' : List JsonValue} : List.Forall₂ Same items items' →
      Same (.array items) (.array items')
  | object {members members' : List (JsString × JsonValue)} :
      (∀ name, Option.Rel Same (member members name) (member members' name)) →
        Same (.object members) (.object members')

/-! ### How texts begin -/

/-- What kind of value a text begins like. -/
def leading (c : Char) : Nat :=
  if c = 'n' then 0
  else if c = 't' then 1
  else if c = 'f' then 2
  else if c = '"' then 3
  else if c = '[' then 4
  else if c = '{' then 5
  else if c.isDigit ∨ c = '-' then 6
  else 7

def kindOf : JsonValue → Nat
  | .undefined | .null => 0
  | .boolean b => if b then 1 else 2
  | .string _ => 3
  | .array _ => 4
  | .object _ => 5
  | .number _ => 6

theorem leading_number {c : Char} (h : c.isDigit = true ∨ c = '-') : leading c = 6 := by
  have hne : ∀ d : Char, d.isDigit = false → d ≠ '-' → c ≠ d := by
    rintro d hdigit hminus rfl
    rcases h with h | h
    · rw [hdigit] at h
      cases h
    · exact hminus h
  simp [leading, h, hne 'n' rfl (by decide), hne 't' rfl (by decide), hne 'f' rfl (by decide),
    hne '"' rfl (by decide), hne '[' rfl (by decide), hne '{' rfl (by decide)]

theorem stable_eq_cons (v : JsonValue) : ∃ c rest, stable v = c :: rest ∧ leading c = kindOf v := by
  cases v with
  | undefined | null => exact ⟨'n', _, by rw [stable], rfl⟩
  | boolean b =>
    cases b
    · exact ⟨'f', _, by rw [stable], rfl⟩
    · exact ⟨'t', _, by rw [stable], rfl⟩
  | number n =>
    obtain ⟨c, rest, htext, hc⟩ := numberText_eq_cons n
    exact ⟨c, rest, by rw [stable, htext], leading_number hc⟩
  | string s => exact ⟨'"', _, by rw [stable, quoted], rfl⟩
  | array items => exact ⟨'[', _, by rw [stable], rfl⟩
  | object members => exact ⟨'{', _, by rw [stable], rfl⟩

theorem kindOf_lt (v : JsonValue) : kindOf v < 7 := by
  cases v with
  | boolean b => cases b <;> decide
  | _ => simp [kindOf]

/-- Values by the way their texts begin. -/
theorem kindOf_cases (w : JsonValue) :
    (kindOf w = 0 → Nullish w) ∧ (∀ b, kindOf w = kindOf (.boolean b) → w = .boolean b) ∧
      (kindOf w = 3 → ∃ s, w = .string s) ∧ (kindOf w = 4 → ∃ items, w = .array items) ∧
      (kindOf w = 5 → ∃ members, w = .object members) ∧ (kindOf w = 6 → ∃ n, w = .number n) := by
  cases w with
  | boolean b => cases b <;> simp [kindOf]
  | _ => simp [kindOf, Nullish]

theorem not_closed_stable (v : JsonValue) : ¬Closed (stable v) := by
  intro h
  obtain ⟨c, rest, htext, hkind⟩ := stable_eq_cons v
  have hlt := kindOf_lt v
  rw [htext, closed_cons] at h
  rw [← hkind] at hlt
  rcases h with rfl | rfl | rfl
  · exact absurd hlt (by decide)
  · exact absurd hlt (by decide)
  · exact absurd hlt (by decide)

theorem kindOf_eq {v w : JsonValue} {r r' : Text} (h : stable v ++ r = stable w ++ r') :
    kindOf v = kindOf w := by
  obtain ⟨c, rest, htext, hkind⟩ := stable_eq_cons v
  obtain ⟨c', rest', htext', hkind'⟩ := stable_eq_cons w
  rw [htext, htext', List.cons_append, List.cons_append] at h
  rw [← hkind, ← hkind', (List.cons.inj h).1]

/-! ### Texts are taken apart in one way -/

def IsStable (t : Text) : Prop := ∃ v, stable v = t

theorem mem_stableItems {items : List JsonValue} {t : Text} :
    t ∈ stableItems items ↔ ∃ item ∈ items, stable item = t := by
  induction items with
  | nil => simp [stableItems]
  | cons item items ih => simp [stableItems, ih, eq_comm]

theorem mem_stableMembers {members : List (JsString × JsonValue)} {name : JsString} {t : Text} :
    (name, t) ∈ stableMembers members ↔
      ∃ v, (name, v) ∈ members ∧ v.isUndefined = false ∧ stable v = t := by
  induction members with
  | nil => simp [stableMembers]
  | cons entry members ih =>
    obtain ⟨name', v⟩ := entry
    cases hundefined : v.isUndefined with
    | true =>
      rw [stableMembers, if_pos hundefined, ih]
      constructor
      · rintro ⟨w, hmem, hw⟩
        exact ⟨w, List.mem_cons_of_mem _ hmem, hw⟩
      · rintro ⟨w, hmem, hw, htext⟩
        rcases List.mem_cons.mp hmem with heq | hmem
        · rw [(Prod.mk.inj heq).2, hundefined] at hw
          cases hw
        · exact ⟨w, hmem, hw, htext⟩
    | false =>
      rw [stableMembers, if_neg (by simp [hundefined]), List.mem_cons, ih]
      constructor
      · rintro (heq | ⟨w, hmem, hw⟩)
        · obtain ⟨rfl, rfl⟩ := Prod.mk.inj heq
          exact ⟨v, List.mem_cons_self, hundefined, rfl⟩
        · exact ⟨w, List.mem_cons_of_mem _ hmem, hw⟩
      · rintro ⟨w, hmem, hw, rfl⟩
        rcases List.mem_cons.mp hmem with heq | hmem
        · obtain ⟨rfl, rfl⟩ := Prod.mk.inj heq
          exact Or.inl rfl
        · exact Or.inr ⟨w, hmem, hw, rfl⟩

/-- A member ends where its value does. -/
theorem unique_memberText {member : JsString × Text} (h : Unique IsStable member.2) :
    Unique (fun t => ∃ other : JsString × Text, IsStable other.2 ∧ memberText other = t)
      (memberText member) := by
  rintro _ ⟨other, hother, rfl⟩ r r' hr hr' heq
  rw [memberText, memberText, List.append_assoc, List.append_assoc] at heq
  obtain ⟨hname, hrest⟩ := quoted_append_inj heq
  obtain ⟨hvalue, hr⟩ := h other.2 hother r r' hr hr' (List.cons.inj hrest).2
  exact ⟨by rw [memberText, memberText, hname, hvalue], hr⟩

theorem mem_sortedKeys {members : List (JsString × Text)} {entry : JsString × Text} :
    entry ∈ sortedKeys members ↔ entry ∈ members := Window.mem_ordered

theorem stable_nullish {v : JsonValue} (hv : Nullish v) : stable v = ['n', 'u', 'l', 'l'] := by
  rcases hv with rfl | rfl
  · rw [stable]
  · rw [stable]

theorem unique_null {v : JsonValue} (hv : Nullish v) : Unique IsStable (stable v) := by
  rintro _ ⟨w, rfl⟩ r r' - - h
  have hkind : kindOf v = 0 := by
    rcases hv with rfl | rfl <;> rfl
  have hw : Nullish w := (kindOf_cases w).1 ((kindOf_eq h).symm.trans hkind)
  rw [stable_nullish hv, stable_nullish hw] at h ⊢
  exact ⟨rfl, List.append_cancel_left h⟩

theorem kindOf_of_stable {v w : JsonValue} (h : stable v = stable w) : kindOf v = kindOf w :=
  kindOf_eq (congrArg (fun t : Text => t ++ []) h)

theorem nullish_of_stable {v w : JsonValue} (hv : Nullish v) (h : stable v = stable w) : Nullish w := by
  have hkind : kindOf v = 0 := by
    rcases hv with rfl | rfl <;> rfl
  exact (kindOf_cases w).1 ((kindOf_of_stable h).symm.trans hkind)

/-- The items of an array's text. -/
theorem array_inj {items items' : List JsonValue} {r r' : Text}
    (hitems : ∀ t ∈ stableItems items, Unique IsStable t)
    (h : commaSeparated (stableItems items) ++ ']' :: r = commaSeparated (stableItems items') ++ ']' :: r') :
    stableItems items = stableItems items' ∧ r = r' := by
  refine commaSeparated_unique IsStable (Or.inl rfl) hitems (fun t ht => ?_) (fun t ht => ?_) h
  · obtain ⟨item, -, rfl⟩ := mem_stableItems.mp ht
    exact ⟨item, rfl⟩
  · rcases List.mem_append.mp ht with ht | ht
    · obtain ⟨item, -, rfl⟩ := mem_stableItems.mp ht
      exact not_closed_stable item
    · obtain ⟨item, -, rfl⟩ := mem_stableItems.mp ht
      exact not_closed_stable item

theorem not_closed_memberText (member : JsString × Text) : ¬Closed (memberText member) := by
  rw [memberText, quoted, List.cons_append, closed_cons]
  decide

/-- The members of an object's text. -/
theorem object_inj {members members' : List (JsString × JsonValue)} {r r' : Text}
    (hmembers : ∀ entry ∈ stableMembers members, Unique IsStable entry.2)
    (h : commaSeparated ((sortedKeys (stableMembers members)).map memberText) ++ '}' :: r =
      commaSeparated ((sortedKeys (stableMembers members')).map memberText) ++ '}' :: r') :
    (sortedKeys (stableMembers members)).map memberText =
      (sortedKeys (stableMembers members')).map memberText ∧ r = r' := by
  refine commaSeparated_unique
    (fun t => ∃ other : JsString × Text, IsStable other.2 ∧ memberText other = t) (Or.inr rfl)
    (fun t ht => ?_) (fun t ht => ?_) (fun t ht => ?_) h
  · obtain ⟨entry, hentry, rfl⟩ := List.mem_map.mp ht
    exact unique_memberText (hmembers entry (mem_sortedKeys.mp hentry))
  · obtain ⟨⟨name, text⟩, hentry, rfl⟩ := List.mem_map.mp ht
    obtain ⟨v, -, -, rfl⟩ := mem_stableMembers.mp (mem_sortedKeys.mp hentry)
    exact ⟨(name, stable v), ⟨v, rfl⟩, rfl⟩
  · rcases List.mem_append.mp ht with ht | ht
    · obtain ⟨entry, -, rfl⟩ := List.mem_map.mp ht
      exact not_closed_memberText entry
    · obtain ⟨entry, -, rfl⟩ := List.mem_map.mp ht
      exact not_closed_memberText entry

mutual

/-- A value's text ends where any value's text ends that begins like it. -/
theorem unique_stable : (v : JsonValue) → Unique IsStable (stable v)
  | .undefined => unique_null (Or.inl rfl)
  | .null => unique_null (Or.inr rfl)
  | .boolean b => by
    rintro _ ⟨w, rfl⟩ r r' - - h
    obtain rfl := (kindOf_cases w).2.1 b (kindOf_eq h).symm
    exact ⟨rfl, List.append_cancel_left h⟩
  | .number n => by
    rintro _ ⟨w, rfl⟩ r r' hr hr' h
    obtain ⟨m, rfl⟩ := (kindOf_cases w).2.2.2.2.2 (kindOf_eq h).symm
    rw [stable, stable] at h ⊢
    exact unique_number n _ ⟨m, rfl⟩ r r' hr hr' h
  | .string s => by
    rintro _ ⟨w, rfl⟩ r r' - - h
    obtain ⟨t, rfl⟩ := (kindOf_cases w).2.2.1 (kindOf_eq h).symm
    rw [stable, stable] at h ⊢
    obtain ⟨rfl, hr⟩ := quoted_append_inj h
    exact ⟨rfl, hr⟩
  | .array items => by
    have hitems := unique_items items
    rintro _ ⟨w, rfl⟩ r r' - - h
    obtain ⟨items', rfl⟩ := (kindOf_cases w).2.2.2.1 (kindOf_eq h).symm
    rw [stable, stable] at h ⊢
    obtain ⟨htexts, hr⟩ := array_inj hitems (by simpa using h)
    exact ⟨by rw [htexts], hr⟩
  | .object members => by
    have hmembers := unique_members members
    rintro _ ⟨w, rfl⟩ r r' - - h
    obtain ⟨members', rfl⟩ := (kindOf_cases w).2.2.2.2.1 (kindOf_eq h).symm
    rw [stable, stable] at h ⊢
    obtain ⟨htexts, hr⟩ := object_inj hmembers (by simpa using h)
    exact ⟨by rw [htexts], hr⟩

theorem unique_items : (items : List JsonValue) → ∀ t ∈ stableItems items, Unique IsStable t
  | [] => fun t ht => nomatch ht
  | item :: items => by
    have hfirst := unique_stable item
    have hrest := unique_items items
    rw [stableItems]
    exact List.forall_mem_cons.mpr ⟨hfirst, hrest⟩

theorem unique_members : (members : List (JsString × JsonValue)) →
    ∀ entry ∈ stableMembers members, Unique IsStable entry.2
  | [] => fun entry hentry => nomatch hentry
  | (name, v) :: members => by
    have hfirst := unique_stable v
    have hrest := unique_members members
    rw [stableMembers]
    split_ifs
    · exact hrest
    · exact List.forall_mem_cons.mpr ⟨hfirst, hrest⟩

end

/-! ### What the texts keep -/

theorem member_eq_some {members : List (JsString × JsonValue)} (hnames : (members.map Prod.fst).Nodup)
    {name : JsString} {v : JsonValue} :
    member members name = some v ↔ (name, v) ∈ members ∧ v.isUndefined = false := by
  rw [member, Option.filter_eq_some_iff, Option.map_eq_some_iff, Bool.not_eq_true']
  refine and_congr_left fun _ => ⟨?_, fun hmem => ⟨(name, v), ?_, rfl⟩⟩
  · rintro ⟨⟨name', v'⟩, hfind, rfl⟩
    obtain rfl : name' = name := by simpa using List.find?_some hfind
    exact List.mem_of_find?_eq_some hfind
  · cases hfind : members.find? fun entry => decide (entry.1 = name) with
    | none => exact absurd (List.find?_eq_none.mp hfind (name, v) hmem) (by simp)
    | some entry =>
      have hname : entry.1 = name := by simpa using List.find?_some hfind
      rw [List.inj_on_of_nodup_map hnames (List.mem_of_find?_eq_some hfind) hmem hname]

theorem names_stableMembers (members : List (JsString × JsonValue)) :
    ((stableMembers members).map Prod.fst).Sublist (members.map Prod.fst) := by
  induction members with
  | nil => exact List.Sublist.refl _
  | cons entry members ih =>
    rw [stableMembers, List.map_cons]
    split_ifs
    · exact ih.cons _
    · exact ih.cons_cons _

theorem keys_nodup {members : List (JsString × JsonValue)} (hnames : (members.map Prod.fst).Nodup) :
    ((stableMembers members).map fun entry => entry.1.map UInt16.toNat).Nodup := by
  have hinjective : Function.Injective (List.map UInt16.toNat) :=
    List.map_injective_iff.mpr fun _ _ => UInt16.toNat_inj.mp
  have hnodup := (hnames.sublist (names_stableMembers members)).map hinjective
  rwa [List.map_map] at hnodup

/-- Objects have one text exactly when their members have, name by name. -/
theorem sortedKeys_eq_iff {members members' : List (JsString × JsonValue)}
    (hnames : (members.map Prod.fst).Nodup) (hnames' : (members'.map Prod.fst).Nodup) :
    sortedKeys (stableMembers members) = sortedKeys (stableMembers members') ↔
      ∀ name, (member members name).map stable = (member members' name).map stable := by
  have hmem : ∀ {ms : List (JsString × JsonValue)}, (ms.map Prod.fst).Nodup → ∀ name t,
      (name, t) ∈ stableMembers ms ↔ (member ms name).map stable = some t := by
    intro ms hms name t
    simp only [mem_stableMembers, Option.map_eq_some_iff, member_eq_some hms, and_assoc]
  constructor
  · intro heq name
    have hperm : (stableMembers members).Perm (stableMembers members') :=
      Window.ordered_perm.symm.trans ((List.Perm.of_eq heq).trans Window.ordered_perm)
    refine Option.ext fun t => ?_
    rw [← hmem hnames, ← hmem hnames']
    exact hperm.mem_iff
  · intro hmembers
    refine Window.ordered_congr (keys_nodup hnames) ?_
    rw [List.perm_ext_iff_of_nodup (keys_nodup hnames).of_map (keys_nodup hnames').of_map]
    rintro ⟨name, t⟩
    rw [hmem hnames, hmem hnames', hmembers name]

theorem memberText_injective : Function.Injective memberText := by
  rintro ⟨name, t⟩ ⟨name', t'⟩ h
  obtain ⟨hname, ht⟩ := quoted_append_inj h
  exact Prod.ext hname (List.cons.inj ht).2

/-- The texts of objects are the same when their sorted members are. -/
theorem stable_object_inj {members members' : List (JsString × JsonValue)} :
    stable (.object members) = stable (.object members') ↔
      sortedKeys (stableMembers members) = sortedKeys (stableMembers members') := by
  rw [stable, stable]
  constructor
  · intro h
    have htexts := object_inj (unique_members members) (List.cons.inj h).2
    exact List.map_injective_iff.mpr memberText_injective htexts.1
  · intro h
    rw [h]

theorem stable_array_inj {items items' : List JsonValue} :
    stable (.array items) = stable (.array items') ↔ stableItems items = stableItems items' := by
  rw [stable, stable]
  constructor
  · intro h
    exact (array_inj (unique_items items) (List.cons.inj h).2).1
  · intro h
    rw [h]

mutual

/-- Values with one text are the same. -/
theorem same_of_stable : (v : JsonValue) → WellFormed v → ∀ w, WellFormed w → stable v = stable w →
    Same v w
  | .undefined => fun _ w _ h => .nullish (Or.inl rfl) (nullish_of_stable (Or.inl rfl) h)
  | .null => fun _ w _ h => .nullish (Or.inr rfl) (nullish_of_stable (Or.inr rfl) h)
  | .boolean b => by
    intro _ w _ h
    obtain rfl := (kindOf_cases w).2.1 b (kindOf_of_stable h).symm
    exact .boolean b
  | .number n => by
    intro _ w _ h
    obtain ⟨m, rfl⟩ := (kindOf_cases w).2.2.2.2.2 (kindOf_of_stable h).symm
    rw [stable, stable] at h
    rw [numberText_injective h]
    exact .number m
  | .string s => by
    intro _ w _ h
    obtain ⟨t, rfl⟩ := (kindOf_cases w).2.2.1 (kindOf_of_stable h).symm
    rw [stable, stable] at h
    have htext : quoted s ++ [] = quoted t ++ [] := by rw [h]
    rw [(quoted_append_inj htext).1]
    exact .string t
  | .array items => by
    have hitems := same_items items
    intro hv w hw h
    obtain ⟨items', rfl⟩ := (kindOf_cases w).2.2.2.1 (kindOf_of_stable h).symm
    cases hv with
    | array hv =>
      cases hw with
      | array hw => exact .array (hitems hv items' hw (stable_array_inj.mp h))
  | .object members => by
    have hmembers := same_members members
    intro hv w hw h
    obtain ⟨members', rfl⟩ := (kindOf_cases w).2.2.2.2.1 (kindOf_of_stable h).symm
    cases hv with
    | object hnames hv =>
      cases hw with
      | object hnames' hw =>
        refine .object fun name => ?_
        have hname := (sortedKeys_eq_iff hnames hnames').mp (stable_object_inj.mp h) name
        cases hmember : member members name with
        | none =>
          rw [hmember, Option.map_none] at hname
          rw [Option.map_eq_none_iff.mp hname.symm]
          exact .none
        | some v =>
          rw [hmember, Option.map_some] at hname
          obtain ⟨v', hmember', htext⟩ := Option.map_eq_some_iff.mp hname.symm
          rw [hmember']
          have hin := ((member_eq_some hnames).mp hmember).1
          have hin' := ((member_eq_some hnames').mp hmember').1
          exact .some (hmembers hv (name, v) hin v' (hw _ hin') htext.symm)

theorem same_items : (items : List JsonValue) → (∀ item ∈ items, WellFormed item) → ∀ items',
    (∀ item ∈ items', WellFormed item) → stableItems items = stableItems items' →
      List.Forall₂ Same items items'
  | [] => by
    intro _ items' _ h
    cases items' with
    | nil => exact .nil
    | cons item' items' =>
      rw [stableItems, stableItems] at h
      cases h
  | item :: items => by
    have hfirst := same_of_stable item
    have hrest := same_items items
    intro hv items' hw h
    cases items' with
    | nil =>
      rw [stableItems, stableItems] at h
      cases h
    | cons item' items' =>
      rw [stableItems, stableItems] at h
      obtain ⟨htext, htexts⟩ := List.cons.inj h
      obtain ⟨hv, hvs⟩ := List.forall_mem_cons.mp hv
      obtain ⟨hw, hws⟩ := List.forall_mem_cons.mp hw
      exact .cons (hfirst hv item' hw htext) (hrest hvs items' hws htexts)

theorem same_members : (members : List (JsString × JsonValue)) →
    (∀ entry ∈ members, WellFormed entry.2) → ∀ entry ∈ members, ∀ w, WellFormed w →
      stable entry.2 = stable w → Same entry.2 w
  | [] => fun _ entry hentry => nomatch hentry
  | (name, v) :: members => by
    have hfirst := same_of_stable v
    have hrest := same_members members
    intro hv
    obtain ⟨hv, hvs⟩ := List.forall_mem_cons.mp hv
    exact List.forall_mem_cons.mpr ⟨fun w hw h => hfirst hv w hw h, hrest hvs⟩

end

mutual

/-- The same values have one text. -/
theorem stable_of_same : (v : JsonValue) → WellFormed v → ∀ w, WellFormed w → Same v w →
    stable v = stable w
  | .undefined => by
    intro _ w _ h
    cases h with
    | nullish hv hw => rw [stable_nullish hv, stable_nullish hw]
  | .null => by
    intro _ w _ h
    cases h with
    | nullish hv hw => rw [stable_nullish hv, stable_nullish hw]
  | .boolean b => by
    intro _ w _ h
    cases h with
    | nullish hv hw => rw [stable_nullish hv, stable_nullish hw]
    | boolean => rfl
  | .number n => by
    intro _ w _ h
    cases h with
    | nullish hv hw => rw [stable_nullish hv, stable_nullish hw]
    | number => rfl
  | .string s => by
    intro _ w _ h
    cases h with
    | nullish hv hw => rw [stable_nullish hv, stable_nullish hw]
    | string => rfl
  | .array items => by
    have hitems := stableItems_of_same items
    intro hv w hw h
    cases h with
    | nullish hv hw => rw [stable_nullish hv, stable_nullish hw]
    | array h =>
      cases hv with
      | array hv =>
        cases hw with
        | array hw => exact stable_array_inj.mpr (hitems hv _ hw h)
  | .object members => by
    have hmembers := stableMembers_of_same members
    intro hv w hw h
    cases h with
    | nullish hv hw => rw [stable_nullish hv, stable_nullish hw]
    | @object _ members' h =>
      cases hv with
      | object hnames hv =>
        cases hw with
        | object hnames' hw =>
          refine stable_object_inj.mpr ((sortedKeys_eq_iff hnames hnames').mpr fun name => ?_)
          have hname := h name
          cases hmember : member members name with
          | none =>
            rw [hmember] at hname
            cases hmember' : member members' name with
            | none => rfl
            | some v' =>
              rw [hmember'] at hname
              cases hname
          | some v =>
            rw [hmember] at hname
            cases hmember' : member members' name with
            | none =>
              rw [hmember'] at hname
              cases hname
            | some v' =>
              rw [hmember'] at hname
              cases hname with
              | some hsame =>
                have hin := ((member_eq_some hnames).mp hmember).1
                have hin' := ((member_eq_some hnames').mp hmember').1
                exact congrArg some (hmembers hv (name, v) hin v' (hw _ hin') hsame)

theorem stableItems_of_same : (items : List JsonValue) → (∀ item ∈ items, WellFormed item) →
    ∀ items', (∀ item ∈ items', WellFormed item) → List.Forall₂ Same items items' →
      stableItems items = stableItems items'
  | [] => by
    intro _ items' _ h
    cases h with
    | nil => rfl
  | item :: items => by
    have hfirst := stable_of_same item
    have hrest := stableItems_of_same items
    intro hv items' hw h
    cases h with
    | cons hsame hsames =>
      obtain ⟨hv, hvs⟩ := List.forall_mem_cons.mp hv
      obtain ⟨hw, hws⟩ := List.forall_mem_cons.mp hw
      rw [stableItems, stableItems, hfirst hv _ hw hsame, hrest hvs _ hws hsames]

theorem stableMembers_of_same : (members : List (JsString × JsonValue)) →
    (∀ entry ∈ members, WellFormed entry.2) → ∀ entry ∈ members, ∀ w, WellFormed w →
      Same entry.2 w → stable entry.2 = stable w
  | [] => fun _ entry hentry => nomatch hentry
  | (name, v) :: members => by
    have hfirst := stable_of_same v
    have hrest := stableMembers_of_same members
    intro hv
    obtain ⟨hv, hvs⟩ := List.forall_mem_cons.mp hv
    exact List.forall_mem_cons.mpr ⟨fun w hw h => hfirst hv w hw h, hrest hvs⟩

end

theorem encodeText_injective : Function.Injective encodeText := by
  intro t u h
  have hdecode : ∀ t : Text, (encodeText t).utf8Decode? = some t.toArray := fun t =>
    List.utf8Decode?_utf8Encode
  have hsome := hdecode t
  rw [h, hdecode, Option.some.injEq] at hsome
  exact (List.toArray_inj hsome).symm

/-- Values have one text, and requests one digest, exactly when they are the same. -/
theorem stable_eq_iff {v w : JsonValue} (hv : WellFormed v) (hw : WellFormed w) :
    (stable v = stable w ↔ Same v w) ∧
      ∀ sha256 : ByteArray → Digest, Function.Injective sha256 →
        (digest sha256 v = digest sha256 w ↔ Same v w) := by
  have htext : stable v = stable w ↔ Same v w :=
    ⟨same_of_stable v hv w hw, stable_of_same v hv w hw⟩
  refine ⟨htext, fun sha256 hinjective => ?_⟩
  rw [← htext, digest, digest, hinjective.eq_iff, encodeText_injective.eq_iff]

/-- `{"a":1,"b":undefined}` and `{"a":1}` have one text. -/
theorem stable_eq_iff_undefined :
    Same (.object [([97], .number (.decimal false 1 0 (by decide))), ([98], .undefined)])
      (.object [([97], .number (.decimal false 1 0 (by decide)))]) := by
  refine (stable_eq_iff (.object (by decide) ?_) (.object (by decide) ?_)).1.mp (by decide +kernel)
  · exact List.forall_mem_cons.mpr ⟨.number _, List.forall_mem_cons.mpr ⟨.undefined, by simp⟩⟩
  · exact List.forall_mem_cons.mpr ⟨.number _, by simp⟩

end MarkorbitKnowledge.Conversion
