import MarkorbitKnowledge.ChangeFeed.SectionDiff
import Mathlib.Data.List.Perm.Basic

/-!
# Laws of section diffs

A diff says of every key what stands under it before and after, once for each key whose texts
differ.  So a diff is empty where both documents hold the same texts under every heading path,
applying it to the first document's sections gives those of the second, and exchanging the documents
exchanges the two sides of every change.
-/

namespace MarkorbitKnowledge.ChangeFeed

open Contracts

variable {platform : Platform} {before after : List RetrievalChunk}

/-! ### One key -/

section OneKey

variable {key : Text} {previous next : Option SectionSnapshot}

theorem sectionChange_eq_none :
    sectionChange key previous next = none ↔
      ∃ p n, previous = some p ∧ next = some n ∧ p.contentSha256 = n.contentSha256 := by
  cases previous with
  | none => simp [sectionChange]
  | some p =>
    cases next with
    | none => simp [sectionChange]
    | some n => simp [sectionChange]

theorem key_of_sectionChange {entry : OrderedSectionChange}
    (h : sectionChange key previous next = some entry) : entry.key = key := by
  simp only [sectionChange, Option.ite_none_left_eq_some, Option.some.injEq] at h
  rw [← h.2]

/-- What a change says is the same from both sides. -/
def SectionChange.swap (c : SectionChange) : SectionChange where
  changeKind :=
    match c.changeKind with
    | .added => .removed
    | .removed => .added
    | .modified => .modified
  headingPath := c.headingPath
  beforeChunkIds := c.afterChunkIds
  afterChunkIds := c.beforeChunkIds
  beforeContentSha256 := c.afterContentSha256
  afterContentSha256 := c.beforeContentSha256
  beforeText := c.afterText
  afterText := c.beforeText

theorem sectionChange_swap (hsome : previous ≠ none ∨ next ≠ none)
    (hpath : ∀ p n, previous = some p → next = some n → p.headingPath = n.headingPath) :
    (sectionChange key next previous).map (·.change) =
      (sectionChange key previous next).map (·.change.swap) := by
  cases previous with
  | none =>
    cases next with
    | none => simp at hsome
    | some n => rfl
  | some p =>
    cases next with
    | none => rfl
    | some n =>
      have hheading := hpath p n rfl rfl
      by_cases hsha : p.contentSha256 = n.contentSha256
      · simp [sectionChange, hsha]
      · simp [sectionChange, hsha, Ne.symm hsha, SectionChange.swap, hheading]

end OneKey

/-! ### The keyed changes -/

theorem mem_sectionKeys {key : Text} :
    key ∈ sectionKeys (snapshots platform before) (snapshots platform after) ↔
      sectionAt platform before key ≠ none ∨ sectionAt platform after key ≠ none := by
  rw [sectionKeys, List.mem_eraseDups, List.mem_append, sectionAt, sectionAt, Ne, Ne,
    getSection_eq_none, getSection_eq_none, not_not, not_not]

theorem mem_orderedChanges {entry : OrderedSectionChange} :
    entry ∈ orderedChanges platform before after ↔
      (sectionAt platform before entry.key ≠ none ∨ sectionAt platform after entry.key ≠ none) ∧
        sectionChange entry.key (sectionAt platform before entry.key)
          (sectionAt platform after entry.key) = some entry := by
  rw [orderedChanges, (List.perm_insertionSort _ _).mem_iff, List.mem_filterMap]
  constructor
  · rintro ⟨key, hkey, hchange⟩
    obtain rfl : entry.key = key := key_of_sectionChange hchange
    exact ⟨mem_sectionKeys.mp hkey, hchange⟩
  · rintro ⟨hkey, hchange⟩
    exact ⟨entry.key, mem_sectionKeys.mpr hkey, hchange⟩

/-- Every key is listed once. -/
theorem nodup_orderedChanges (platform : Platform) (before after : List RetrievalChunk) :
    ((orderedChanges platform before after).map (·.key)).Nodup := by
  have hsublist : ∀ (f : Text → Option OrderedSectionChange) (keys : List Text),
      (∀ key entry, f key = some entry → entry.key = key) →
      ((keys.filterMap f).map (·.key)).Sublist keys := by
    intro f keys hf
    induction keys with
    | nil => exact List.Sublist.refl _
    | cons key keys ih =>
      cases hentry : f key with
      | none =>
        rw [List.filterMap_cons_none hentry]
        exact ih.cons key
      | some entry =>
        rw [List.filterMap_cons_some hentry, List.map_cons, hf key entry hentry]
        exact ih.cons_cons key
  rw [orderedChanges, ((List.perm_insertionSort _ _).map _).nodup_iff]
  exact (Occurrences.nodup_eraseDups _).sublist (hsublist _ _ fun key entry h => key_of_sectionChange h)

theorem map_sectionDiff :
    (sectionDiff platform before after).map (·.toSectionChange) =
      (orderedChanges platform before after).map (·.change) := by
  refine List.ext_getElem ?_ fun i hi hi' => ?_
  · simp [sectionDiff]
  · simp [sectionDiff]

/-! ### The laws -/

theorem contentSha256_of_sectionAt {chunks : List RetrievalChunk} {key : Text} {s : SectionSnapshot}
    (h : sectionAt platform chunks key = some s) : s.contentSha256 = platform.sha256 s.text := by
  obtain ⟨path, i, run, -, rfl⟩ := mem_snapshots.mp (sectionAt_eq_some.mp h).1
  rfl

/-- A key is not listed exactly where both documents hold the same text under it. -/
theorem not_listed_iff (hsha : Function.Injective platform.sha256) (key : Text) :
    (∀ entry ∈ orderedChanges platform before after, entry.key ≠ key) ↔
      (sectionAt platform before key).map (·.text) =
        (sectionAt platform after key).map (·.text) := by
  have hlisted : (∀ entry ∈ orderedChanges platform before after, entry.key ≠ key) ↔
      (sectionAt platform before key ≠ none ∨ sectionAt platform after key ≠ none) →
        sectionChange key (sectionAt platform before key) (sectionAt platform after key) = none := by
    constructor
    · intro h hkey
      by_contra hne
      obtain ⟨entry, hentry⟩ := Option.ne_none_iff_exists'.mp hne
      obtain rfl : entry.key = key := key_of_sectionChange hentry
      exact h entry (mem_orderedChanges.mpr ⟨hkey, hentry⟩) rfl
    · rintro h entry hentry rfl
      obtain ⟨hkey, hchange⟩ := mem_orderedChanges.mp hentry
      rw [h hkey] at hchange
      cases hchange
  rw [hlisted, sectionChange_eq_none]
  cases hbefore : sectionAt platform before key with
  | none => cases hafter : sectionAt platform after key <;> simp
  | some p =>
    cases hafter : sectionAt platform after key with
    | none => simp
    | some n =>
      rw [Option.map_some, Option.map_some, Option.some.injEq]
      have hdigest : p.contentSha256 = n.contentSha256 ↔ p.text = n.text := by
        rw [contentSha256_of_sectionAt hbefore, contentSha256_of_sectionAt hafter]
        exact hsha.eq_iff
      simp [hdigest]

theorem sectionDiff_eq_nil_iff (hsha : Function.Injective platform.sha256) :
    sectionDiff platform before after = [] ↔
      ∀ path, textsUnder platform path before = textsUnder platform path after := by
  have hnil : sectionDiff platform before after = [] ↔
      ∀ key, ∀ entry ∈ orderedChanges platform before after, entry.key ≠ key := by
    rw [sectionDiff, List.mapIdx_eq_nil_iff]
    constructor
    · intro h key entry hentry
      rw [h] at hentry
      cases hentry
    · intro h
      refine List.eq_nil_iff_forall_not_mem.mpr fun entry hentry => ?_
      exact h entry.key entry hentry rfl
  rw [hnil, ← text_sectionAt_eq_iff]
  exact forall_congr' fun key => not_listed_iff hsha key

/-- The section a document has under a key: its heading path and its text. -/
def sectionMap (platform : Platform) (chunks : List RetrievalChunk) (key : Text) :
    Option (List JsString × JsString) :=
  (sectionAt platform chunks key).map fun s => (s.headingPath, s.text)

/-- What is under the key of a change after it. -/
def SectionChange.result (c : SectionChange) : Option (List JsString × JsString) :=
  match c.changeKind with
  | .removed => none
  | .added | .modified => c.afterText.map fun text => (c.headingPath, text)

def applyChange (m : Text → Option (List JsString × JsString)) (entry : OrderedSectionChange) :
    Text → Option (List JsString × JsString) :=
  Function.update m entry.key entry.change.result

theorem foldl_applyChange_of_not_listed {entries : List OrderedSectionChange} {key : Text}
    (h : ∀ entry ∈ entries, entry.key ≠ key) (m : Text → Option (List JsString × JsString)) :
    entries.foldl applyChange m key = m key := by
  induction entries generalizing m with
  | nil => rfl
  | cons entry entries ih =>
    rw [List.foldl_cons, ih fun e he => h e (List.mem_cons_of_mem _ he)]
    exact Function.update_of_ne (h entry List.mem_cons_self).symm _ _

theorem foldl_applyChange_of_listed {entries : List OrderedSectionChange}
    (hnodup : (entries.map (·.key)).Nodup) {entry : OrderedSectionChange} (hentry : entry ∈ entries)
    (m : Text → Option (List JsString × JsString)) :
    entries.foldl applyChange m entry.key = entry.change.result := by
  induction entries generalizing m with
  | nil => cases hentry
  | cons first entries ih =>
    rw [List.map_cons, List.nodup_cons] at hnodup
    rw [List.foldl_cons]
    rcases List.mem_cons.mp hentry with rfl | hentry
    · rw [foldl_applyChange_of_not_listed fun e he hkey =>
        hnodup.1 (List.mem_map.mpr ⟨e, he, hkey⟩)]
      exact Function.update_self _ _ _
    · exact ih hnodup.2 hentry _

/-- A change of a diff leaves under its key what the second document has there. -/
theorem result_of_mem {entry : OrderedSectionChange}
    (h : entry ∈ orderedChanges platform before after) :
    entry.change.result = sectionMap platform after entry.key := by
  obtain ⟨hkey, hchange⟩ := mem_orderedChanges.mp h
  simp only [sectionChange, Option.ite_none_left_eq_some, Option.some.injEq] at hchange
  obtain ⟨-, hentry⟩ := hchange
  generalize entry.key = key at hkey hentry ⊢
  subst hentry
  rw [sectionMap]
  cases hafter : sectionAt platform after key with
  | none =>
    cases hbefore : sectionAt platform before key with
    | none => rw [hbefore, hafter] at hkey; simp at hkey
    | some p => rfl
  | some n => cases sectionAt platform before key <;> rfl

/-- Applying the diff to the sections of the first document gives those of the second. -/
theorem apply_orderedChanges (hsha : Function.Injective platform.sha256) :
    (orderedChanges platform before after).foldl applyChange (sectionMap platform before) =
      sectionMap platform after := by
  funext key
  by_cases hlisted : ∀ entry ∈ orderedChanges platform before after, entry.key ≠ key
  · rw [foldl_applyChange_of_not_listed hlisted, sectionMap, sectionMap]
    have htext := (not_listed_iff hsha key).mp hlisted
    cases hbefore : sectionAt platform before key with
    | none =>
      cases hafter : sectionAt platform after key with
      | none => rfl
      | some n => rw [hbefore, hafter] at htext; cases htext
    | some p =>
      cases hafter : sectionAt platform after key with
      | none => rw [hbefore, hafter] at htext; cases htext
      | some n =>
        obtain ⟨hp, hpkey⟩ := sectionAt_eq_some.mp hbefore
        obtain ⟨hn, hnkey⟩ := sectionAt_eq_some.mp hafter
        rw [hbefore, hafter, Option.map_some, Option.map_some, Option.some.injEq] at htext
        rw [Option.map_some, Option.map_some, htext,
          headingPath_of_key hp hn (hpkey.trans hnkey.symm)]
  · simp only [not_forall, ne_eq, not_not] at hlisted
    obtain ⟨entry, hentry, rfl⟩ := hlisted
    rw [foldl_applyChange_of_listed (nodup_orderedChanges platform before after) hentry]
    exact result_of_mem hentry

/-- Exchanging the documents lists the same sections with the sides exchanged. -/
theorem sectionDiff_swap (platform : Platform) (before after : List RetrievalChunk) :
    ((sectionDiff platform after before).map (·.toSectionChange)).Perm
      ((sectionDiff platform before after).map (·.toSectionChange.swap)) := by
  have hswap : (sectionDiff platform before after).map (·.toSectionChange.swap) =
      (orderedChanges platform before after).map (·.change.swap) := by
    have h := congrArg (List.map SectionChange.swap) (@map_sectionDiff platform before after)
    rwa [List.map_map, List.map_map] at h
  rw [map_sectionDiff, hswap, orderedChanges, orderedChanges]
  refine ((List.perm_insertionSort _ _).map _).trans ?_
  refine List.Perm.trans ?_ ((List.perm_insertionSort _ _).map _).symm
  rw [List.map_filterMap, List.map_filterMap]
  have hkeys : (sectionKeys (snapshots platform after) (snapshots platform before)).Perm
      (sectionKeys (snapshots platform before) (snapshots platform after)) := by
    refine (List.perm_ext_iff_of_nodup (Occurrences.nodup_eraseDups _) (Occurrences.nodup_eraseDups _)).mpr fun key => ?_
    rw [← sectionKeys, ← sectionKeys, mem_sectionKeys, mem_sectionKeys, or_comm]
  refine (hkeys.filterMap _).trans (List.Perm.of_eq (List.filterMap_congr fun key hkey => ?_))
  refine sectionChange_swap (mem_sectionKeys.mp hkey) fun p n hp hn => ?_
  obtain ⟨hp, hpkey⟩ := sectionAt_eq_some.mp hp
  obtain ⟨hn, hnkey⟩ := sectionAt_eq_some.mp hn
  exact headingPath_of_key hp hn (hpkey.trans hnkey.symm)

end MarkorbitKnowledge.ChangeFeed
