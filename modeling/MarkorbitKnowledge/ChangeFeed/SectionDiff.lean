import MarkorbitKnowledge.ChangeFeed.SectionKey
import MarkorbitKnowledge.Lib.Occurrences
import Mathlib.Data.List.Sort

/-!
# Section diffs

The chunks of a document, in the order of their ordinals, are grouped into sections: a section is a
run of chunks with one heading path, and its key is that path with its occurrence.  `sectionDiff`
compares the sections of two documents key by key.

A diff of two documents is empty exactly where every heading path has the same texts in the same
order in both.  The order of sections with different paths is not compared, so a document whose
sections were only moved past one another has an empty diff.  SHA-256 and `localeCompare` are
parameters (`Platform`).
-/

namespace MarkorbitKnowledge.ChangeFeed

open Contracts

structure Platform where
  sha256 : JsString → String
  localeCompare : Text → Text → Int

/-- What the comparison reads of a `RetrievalChunk`. -/
structure RetrievalChunk where
  chunkId : String
  documentId : String
  stagingDocumentId : String
  artifactVersion : Nat
  ordinal : Int
  headingPath : List JsString
  text : JsString
deriving DecidableEq

structure SectionSnapshot where
  key : Text
  headingPath : List JsString
  chunkIds : List String
  text : JsString
  contentSha256 : String
  firstOrdinal : Int
deriving DecidableEq

/-! ### Sections -/

/-- Chunks that are collected into one section: there is always a first one. -/
structure ChunkRun where
  first : RetrievalChunk
  more : List RetrievalChunk
deriving DecidableEq

def ChunkRun.chunks (run : ChunkRun) : List RetrievalChunk := run.first :: run.more

def ChunkRun.push (run : ChunkRun) (chunk : RetrievalChunk) : ChunkRun :=
  { run with more := run.more ++ [chunk] }

/-- The texts of the chunks, with an empty line between them. -/
def ChunkRun.text (run : ChunkRun) : JsString :=
  List.intercalate [0x0A, 0x0A] (run.chunks.map (·.text))

variable (platform : Platform)

def sectionOf (pathJson : Text) (occurrence : Nat) (run : ChunkRun) : SectionSnapshot where
  key := sectionKey pathJson occurrence
  headingPath := run.first.headingPath
  chunkIds := run.chunks.map (·.chunkId)
  text := run.text
  contentSha256 := platform.sha256 run.text
  firstOrdinal := run.first.ordinal

structure CurrentSection where
  pathJson : Text
  run : ChunkRun
  occurrence : Nat

/-- The variables of the loop of `snapshots`. -/
structure Scan where
  sections : List SectionSnapshot
  occurrences : Text → Nat
  current : Option CurrentSection

/-- The sections after the current one is pushed. -/
def Scan.flush (s : Scan) : List SectionSnapshot :=
  match s.current with
  | none => s.sections
  | some current =>
    s.sections ++ [sectionOf platform current.pathJson current.occurrence current.run]

def Scan.startSection (s : Scan) (pathJson : Text) (chunk : RetrievalChunk) : Scan where
  sections := s.flush platform
  occurrences := Function.update s.occurrences pathJson (s.occurrences pathJson + 1)
  current := some ⟨pathJson, ⟨chunk, []⟩, s.occurrences pathJson + 1⟩

def Scan.visit (s : Scan) (chunk : RetrievalChunk) : Scan :=
  let pathJson := stringifyPath chunk.headingPath
  match s.current with
  | none => s.startSection platform pathJson chunk
  | some current =>
    if current.pathJson ≠ pathJson then s.startSection platform pathJson chunk
    else { s with current := some { current with run := current.run.push chunk } }

/-- `[...chunks].sort((left, right) => left.ordinal - right.ordinal)`, which is stable. -/
def sortChunks (chunks : List RetrievalChunk) : List RetrievalChunk :=
  chunks.insertionSort fun left right => left.ordinal ≤ right.ordinal

def snapshots (chunks : List RetrievalChunk) : List SectionSnapshot :=
  let scan := (sortChunks chunks).foldl (Scan.visit platform) ⟨[], fun _ => 0, none⟩
  scan.flush platform

/-! ### The diff -/

inductive SectionChangeKind where
  | added
  | removed
  | modified
deriving DecidableEq

structure SectionChange where
  changeKind : SectionChangeKind
  headingPath : List JsString
  beforeChunkIds : List String
  afterChunkIds : List String
  beforeContentSha256 : Option String
  afterContentSha256 : Option String
  beforeText : Option JsString
  afterText : Option JsString
deriving DecidableEq

structure DocumentSectionChange extends SectionChange where
  ordinal : Nat
deriving DecidableEq

structure OrderedSectionChange where
  order : Int
  key : Text
  change : SectionChange
deriving DecidableEq

/-- `new Map(sections.map((section) => [section.key, section])).get(key)`: the last section wins. -/
def getSection (sections : List SectionSnapshot) (key : Text) : Option SectionSnapshot :=
  sections.reverse.find? fun section' => section'.key = key

/-- The iteration of the loop for one key: the change it pushes. -/
def sectionChange (key : Text) (previous next : Option SectionSnapshot) :
    Option OrderedSectionChange :=
  if (previous.any fun p => next.any fun n => p.contentSha256 = n.contentSha256) then none
  else some {
    key := key
    order := ((next.map (·.firstOrdinal)).or (previous.map (·.firstOrdinal))).getD 9007199254740991
    change := {
      changeKind :=
        if previous.isSome then (if next.isSome then .modified else .removed) else .added
      headingPath := ((next.map (·.headingPath)).or (previous.map (·.headingPath))).getD []
      beforeChunkIds := (previous.map (·.chunkIds)).getD []
      afterChunkIds := (next.map (·.chunkIds)).getD []
      beforeContentSha256 := previous.map (·.contentSha256)
      afterContentSha256 := next.map (·.contentSha256)
      beforeText := previous.map (·.text)
      afterText := next.map (·.text) } }

/-- The keys of both maps, as a `Set` yields them. -/
def sectionKeys (before after : List SectionSnapshot) : List Text :=
  (before.map (·.key) ++ after.map (·.key)).eraseDups

/-- `left.order - right.order || left.key.localeCompare(right.key)` is not positive. -/
def precedes (left right : OrderedSectionChange) : Prop :=
  left.order < right.order ∨
    (left.order = right.order ∧ platform.localeCompare left.key right.key ≤ 0)

instance : DecidableRel (precedes platform) := fun left right =>
  inferInstanceAs (Decidable (left.order < right.order ∨
    (left.order = right.order ∧ platform.localeCompare left.key right.key ≤ 0)))

/-- The changes of `sectionDiff` with their keys, in their order. -/
def orderedChanges (beforeChunks afterChunks : List RetrievalChunk) : List OrderedSectionChange :=
  let before := snapshots platform beforeChunks
  let after := snapshots platform afterChunks
  let ordered := (sectionKeys before after).filterMap fun key =>
    sectionChange key (getSection before key) (getSection after key)
  ordered.insertionSort (precedes platform)

def sectionDiff (beforeChunks afterChunks : List RetrievalChunk) : List DocumentSectionChange :=
  (orderedChanges platform beforeChunks afterChunks).mapIdx fun index entry =>
    { entry.change with ordinal := index + 1 }

/-! ### Runs of one path -/

/-- The chunks of a run before those of the next runs, where a run of the same path is continued. -/
def consRun (pathJson : Text) (run : ChunkRun) :
    List (Text × ChunkRun) → List (Text × ChunkRun)
  | [] => [(pathJson, run)]
  | (path', run') :: runs =>
    if pathJson = path' then (pathJson, ⟨run.first, run.more ++ run'.chunks⟩) :: runs
    else (pathJson, run) :: (path', run') :: runs

/-- The maximal runs of chunks with one heading path. -/
def chunkRuns : List RetrievalChunk → List (Text × ChunkRun)
  | [] => []
  | chunk :: chunks =>
    consRun (stringifyPath chunk.headingPath) ⟨chunk, []⟩ (chunkRuns chunks)

theorem consRun_push (pathJson : Text) (run : ChunkRun) (chunk : RetrievalChunk)
    (runs : List (Text × ChunkRun)) :
    consRun pathJson (run.push chunk) runs =
      consRun pathJson run (consRun pathJson ⟨chunk, []⟩ runs) := by
  cases runs with
  | nil => simp [consRun, ChunkRun.push, ChunkRun.chunks]
  | cons next runs =>
    obtain ⟨path', run'⟩ := next
    by_cases h : pathJson = path'
    · simp [consRun, h, ChunkRun.push, ChunkRun.chunks]
    · simp [consRun, h, ChunkRun.push, ChunkRun.chunks]

theorem consRun_of_ne {path path' : Text} (h : path ≠ path') (run run' : ChunkRun)
    (runs : List (Text × ChunkRun)) :
    consRun path run (consRun path' run' runs) = (path, run) :: consRun path' run' runs := by
  cases runs with
  | nil => simp [consRun, h]
  | cons next runs =>
    obtain ⟨path'', run''⟩ := next
    by_cases h' : path' = path''
    · subst h'
      simp [consRun, h]
    · simp [consRun, h, h']

/-- A numbered run as a section. -/
def numberedSection (entry : (Text × Nat) × ChunkRun) : SectionSnapshot :=
  sectionOf platform entry.1.1 entry.1.2 entry.2

open Occurrences (numberFrom number valuesAt)

/-- The loop from the middle of a section on. -/
theorem flush_visit (sections : List SectionSnapshot) (seen : Text → Nat) (path : Text)
    (run : ChunkRun) (chunks : List RetrievalChunk) :
    (chunks.foldl (Scan.visit platform) ⟨sections, Function.update seen path (seen path + 1),
        some ⟨path, run, seen path + 1⟩⟩).flush platform =
      sections ++ (numberFrom seen (consRun path run (chunkRuns chunks))).map
        (numberedSection platform) := by
  induction chunks generalizing sections seen path run with
  | nil => rfl
  | cons chunk chunks ih =>
    rw [List.foldl_cons, chunkRuns]
    by_cases hpath : path = stringifyPath chunk.headingPath
    · have hvisit : Scan.visit platform ⟨sections, Function.update seen path (seen path + 1),
          some ⟨path, run, seen path + 1⟩⟩ chunk =
            ⟨sections, Function.update seen path (seen path + 1),
              some ⟨path, run.push chunk, seen path + 1⟩⟩ := by
        simp [Scan.visit, ← hpath]
      rw [hvisit, ih, consRun_push, ← hpath]
    · have hvisit : Scan.visit platform ⟨sections, Function.update seen path (seen path + 1),
          some ⟨path, run, seen path + 1⟩⟩ chunk =
            Scan.startSection platform ⟨sections, Function.update seen path (seen path + 1),
              some ⟨path, run, seen path + 1⟩⟩ (stringifyPath chunk.headingPath) chunk := by
        simp [Scan.visit, hpath]
      rw [hvisit, Scan.startSection, ih, consRun_of_ne hpath, numberFrom, List.map_cons,
        Scan.flush, List.append_assoc]
      rfl

/-- The sections are the numbered runs of the sorted chunks. -/
theorem snapshots_eq (chunks : List RetrievalChunk) :
    snapshots platform chunks =
      (number (chunkRuns (sortChunks chunks))).map (numberedSection platform) := by
  rw [snapshots]
  cases sortChunks chunks with
  | nil => rfl
  | cons chunk chunks =>
    rw [List.foldl_cons, chunkRuns]
    exact flush_visit platform [] (fun _ => 0) (stringifyPath chunk.headingPath) ⟨chunk, []⟩ chunks

theorem path_of_mem_chunkRuns {chunks : List RetrievalChunk} {path : Text} {run : ChunkRun}
    (h : (path, run) ∈ chunkRuns chunks) : path = stringifyPath run.first.headingPath := by
  induction chunks generalizing path run with
  | nil => cases h
  | cons chunk chunks ih =>
    rw [chunkRuns] at h
    cases hruns : chunkRuns chunks with
    | nil =>
      rw [hruns, consRun, List.mem_singleton, Prod.mk.injEq] at h
      rw [h.1, h.2]
    | cons next runs =>
      obtain ⟨path', run'⟩ := next
      rw [hruns] at h ih
      rw [consRun] at h
      split at h
      · rcases List.mem_cons.mp h with h | h
        · rw [Prod.mk.injEq] at h
          rw [h.1, h.2]
        · exact ih (List.mem_cons_of_mem _ h)
      · rcases List.mem_cons.mp h with h | h
        · rw [Prod.mk.injEq] at h
          rw [h.1, h.2]
        · exact ih h

/-! ### The sections of a document -/

variable {platform} {chunks before after : List RetrievalChunk}

theorem mem_snapshots {s : SectionSnapshot} :
    s ∈ snapshots platform chunks ↔
      ∃ path i run, (valuesAt path (chunkRuns (sortChunks chunks)))[i]? = some run ∧
        sectionOf platform path (i + 1) run = s := by
  rw [snapshots_eq, List.mem_map]
  constructor
  · rintro ⟨⟨⟨path, n⟩, run⟩, hmem, rfl⟩
    obtain ⟨i, rfl, hi⟩ := Occurrences.mem_number.mp hmem
    exact ⟨path, i, run, hi, rfl⟩
  · rintro ⟨path, i, run, hi, rfl⟩
    exact ⟨((path, i + 1), run), Occurrences.mem_number.mpr ⟨i, rfl, hi⟩, rfl⟩

/-- No two sections of a document have one key. -/
theorem nodup_keys (platform : Platform) (chunks : List RetrievalChunk) :
    ((snapshots platform chunks).map (·.key)).Nodup := by
  have hkeys : (snapshots platform chunks).map (·.key) =
      ((number (chunkRuns (sortChunks chunks))).map (·.1)).map
        fun entry => sectionKey entry.1 entry.2 := by
    rw [snapshots_eq, List.map_map, List.map_map]
    rfl
  rw [hkeys]
  refine (Occurrences.nodup_number _).map fun x y h => ?_
  obtain ⟨hpath, hoccurrence⟩ := sectionKey_inj.mp h
  exact Prod.ext hpath hoccurrence

theorem path_of_valuesAt {path : Text} {i : Nat} {run : ChunkRun}
    (h : (valuesAt path (chunkRuns chunks))[i]? = some run) :
    path = stringifyPath run.first.headingPath := by
  have hmem := List.mem_of_getElem? h
  simp only [valuesAt, List.mem_map, List.mem_filter, decide_eq_true_eq] at hmem
  obtain ⟨⟨path', run'⟩, ⟨hrun, hpath⟩, hrun'⟩ := hmem
  have hpath' := path_of_mem_chunkRuns hrun
  subst hpath hrun'
  exact hpath'

/-- The key of a section tells its heading path, in every document. -/
theorem headingPath_of_key {s s' : SectionSnapshot} (hs : s ∈ snapshots platform before)
    (hs' : s' ∈ snapshots platform after) (h : s.key = s'.key) : s.headingPath = s'.headingPath := by
  obtain ⟨path, i, run, hi, rfl⟩ := mem_snapshots.mp hs
  obtain ⟨path', i', run', hi', rfl⟩ := mem_snapshots.mp hs'
  obtain ⟨hpath, -⟩ := sectionKey_inj.mp h
  refine stringifyPath_injective ?_
  exact (path_of_valuesAt hi).symm.trans (hpath.trans (path_of_valuesAt hi'))

theorem getSection_eq_some {sections : List SectionSnapshot}
    (hnodup : (sections.map (·.key)).Nodup) {key : Text} {s : SectionSnapshot} :
    getSection sections key = some s ↔ s ∈ sections ∧ s.key = key := by
  constructor
  · intro h
    exact ⟨List.mem_reverse.mp (List.mem_of_find?_eq_some h), by simpa using List.find?_some h⟩
  · rintro ⟨hs, rfl⟩
    cases hfind : getSection sections s.key with
    | none =>
      have hnone := List.find?_eq_none.mp hfind s (List.mem_reverse.mpr hs)
      exact absurd (decide_eq_true rfl) hnone
    | some s' =>
      have hs' := List.mem_reverse.mp (List.mem_of_find?_eq_some hfind)
      have hkey : s'.key = s.key := by simpa using List.find?_some hfind
      rw [List.inj_on_of_nodup_map hnodup hs' hs hkey]

theorem getSection_eq_none {sections : List SectionSnapshot} {key : Text} :
    getSection sections key = none ↔ key ∉ sections.map (·.key) := by
  simp [getSection, List.find?_eq_none]

/-- The section of a document under a key. -/
def sectionAt (platform : Platform) (chunks : List RetrievalChunk) (key : Text) :
    Option SectionSnapshot :=
  getSection (snapshots platform chunks) key

theorem sectionAt_eq_some {key : Text} {s : SectionSnapshot} :
    sectionAt platform chunks key = some s ↔ s ∈ snapshots platform chunks ∧ s.key = key :=
  getSection_eq_some (nodup_keys platform chunks)

/-- Under the key of a path and an occurrence stands the section of that occurrence. -/
theorem sectionAt_sectionKey (path : Text) (i : Nat) :
    sectionAt platform chunks (sectionKey path (i + 1)) =
      ((valuesAt path (chunkRuns (sortChunks chunks)))[i]?).map
        (sectionOf platform path (i + 1)) := by
  ext s
  rw [sectionAt_eq_some, mem_snapshots, Option.map_eq_some_iff]
  constructor
  · rintro ⟨⟨path', i', run, hi, rfl⟩, hkey⟩
    obtain ⟨rfl, hoccurrence⟩ := sectionKey_inj.mp hkey
    obtain rfl : i' = i := Nat.succ.inj hoccurrence
    exact ⟨run, hi, rfl⟩
  · rintro ⟨run, hi, rfl⟩
    exact ⟨⟨path, i, run, hi, rfl⟩, rfl⟩

/-- What a document says: its sections in their order, each with its heading path and text. -/
def outline (platform : Platform) (chunks : List RetrievalChunk) : List (List JsString × JsString) :=
  (snapshots platform chunks).map fun s => (s.headingPath, s.text)

/-- The texts under a heading path, in their order. -/
def textsUnder (platform : Platform) (path : List JsString) (chunks : List RetrievalChunk) :
    List JsString :=
  valuesAt path (outline platform chunks)

theorem textsUnder_eq (path : List JsString) :
    textsUnder platform path chunks =
      (valuesAt (stringifyPath path) (chunkRuns (sortChunks chunks))).map (·.text) := by
  have houtline : outline platform chunks =
      (chunkRuns (sortChunks chunks)).map fun entry => (entry.2.first.headingPath, entry.2.text) := by
    conv_rhs => rw [← Occurrences.map_numberFrom (fun _ => 0) (chunkRuns (sortChunks chunks))]
    rw [outline, snapshots_eq, List.map_map, List.map_map]
    rfl
  rw [textsUnder, houtline, valuesAt, valuesAt, List.filter_map, List.map_map, List.map_map]
  refine congrArg (List.map _) (List.filter_congr fun entry hentry => ?_)
  have hpath : entry.1 = stringifyPath entry.2.first.headingPath := path_of_mem_chunkRuns hentry
  simp only [Function.comp_apply, decide_eq_decide]
  constructor
  · intro h
    rw [hpath, h]
  · intro h
    exact stringifyPath_injective (hpath.symm.trans h)

/-- The text under the key of a path and an occurrence. -/
theorem text_sectionAt (path : List JsString) (i : Nat) :
    (sectionAt platform chunks (sectionKey (stringifyPath path) (i + 1))).map (·.text) =
      (textsUnder platform path chunks)[i]? := by
  rw [sectionAt_sectionKey, textsUnder_eq, List.getElem?_map, Option.map_map]
  rfl

/-- The keys of two documents hold the same texts if and only if their heading paths do. -/
theorem text_sectionAt_eq_iff :
    (∀ key, (sectionAt platform before key).map (·.text) =
        (sectionAt platform after key).map (·.text)) ↔
      ∀ path, textsUnder platform path before = textsUnder platform path after := by
  constructor
  · intro h path
    refine List.ext_getElem? fun i => ?_
    rw [← text_sectionAt, ← text_sectionAt, h]
  · intro h key
    -- a key under which one of the documents has a section is that of a path and an occurrence
    have hkey : ∀ chunks s, sectionAt platform chunks key = some s →
        ∃ path i, key = sectionKey (stringifyPath path) (i + 1) := by
      intro chunks s hs
      obtain ⟨hmem, rfl⟩ := sectionAt_eq_some.mp hs
      obtain ⟨path, i, run, hi, rfl⟩ := mem_snapshots.mp hmem
      exact ⟨run.first.headingPath, i, by rw [← path_of_valuesAt hi]; rfl⟩
    have hpath : ∀ path i, key = sectionKey (stringifyPath path) (i + 1) →
        (sectionAt platform before key).map (·.text) =
          (sectionAt platform after key).map (·.text) := by
      rintro path i rfl
      rw [text_sectionAt, text_sectionAt, h]
    cases hbefore : sectionAt platform before key with
    | some s =>
      obtain ⟨path, i, hi⟩ := hkey before s hbefore
      rw [← hbefore]
      exact hpath path i hi
    | none =>
      cases hafter : sectionAt platform after key with
      | none => rfl
      | some s =>
        obtain ⟨path, i, hi⟩ := hkey after s hafter
        rw [← hbefore, ← hafter]
        exact hpath path i hi

end MarkorbitKnowledge.ChangeFeed
