import MarkorbitKnowledge.Campaign.Discovery
import MarkorbitKnowledge.Lib.Occurrences

/-!
# Discovery tolerates its sitemaps

Whatever the servers answer, the crawl requests no more sitemaps than allowed, and an entry that is no
public URL costs an error, not the crawl.  Page entries are only looked at in the selection, so a
discovery ends with an inventory where each of those it selects from is a public URL
(`discovery_tolerates`).
-/

namespace MarkorbitKnowledge.Campaign

open Contracts Fallible Worklist

variable {web : Web} {servers : Servers} {source : CampaignSource} {base : Url}

/-- An entry is the text of a public URL. -/
def WellFormed (web : Web) (raw : Text) : Prop := ∃ text, canonicalizeCampaignUrl web raw = .ok text

/-- A URL is the canonical form of an entry, on an allowed host and among the source's patterns. -/
structure Eligible (web : Web) (source : CampaignSource) (base : Url) (raw url : Text) : Prop where
  canonical : canonicalizeCampaignUrl web raw = .ok url
  host : ∃ parsed, web.parse url = some parsed ∧ allowedPageHost web source base parsed = true
  pattern : matchesPatterns source url = true

/-! ### The selection -/

/-- The canonical text of an entry, where it has one. -/
def canonicalText (web : Web) (raw : Text) : Text :=
  match canonicalizeCampaignUrl web raw with
  | .ok text => text
  | .error _ => []

/-- The URL of a text, where it has one. -/
def urlOf (web : Web) (raw : Text) : Url := (web.parse raw).getD ⟨[], [], [], [], [], [], [], []⟩

theorem canonicalize_eq_ok {raw text : Text} :
    canonicalizeCampaignUrl web raw = .ok text ↔ WellFormed web raw ∧ canonicalText web raw = text := by
  unfold WellFormed canonicalText
  cases canonicalizeCampaignUrl web raw with
  | error e => simp
  | ok found => simp

theorem newUrl_eq_ok {raw : Text} {url : Url} : newUrl web raw = .ok url ↔ web.parse raw = some url :=
  orThrow_eq_ok

theorem locate_eq_ok {raw : Text} {entry : Text × Url} :
    (do return (raw, ← newUrl web raw) : Except Text (Text × Url)) = .ok entry ↔
      (∃ url, web.parse raw = some url) ∧ (raw, urlOf web raw) = entry := by
  simp only [bind_eq_ok, newUrl_eq_ok, pure_eq_ok, urlOf]
  cases web.parse raw with
  | none => simp
  | some url => simp

theorem check_eq_ok {located entry : Text × Url} :
    (do return (located.1, ← assertPublicHttpUrl web located.1 "url".toList) :
        Except Text (Text × Url)) = .ok entry ↔
      (∃ url, web.parse located.1 = some url ∧ isPublicHttp web url = true) ∧
        (located.1, urlOf web located.1) = entry := by
  simp only [bind_eq_ok, assertPublicHttpUrl_eq_ok, pure_eq_ok, urlOf]
  cases web.parse located.1 with
  | none => simp
  | some url => simp [and_assoc]

/-- Entries that are public URLs are selected from: the eligible ones, without duplicates. -/
theorem selectedUrls_of_wellFormed (source : CampaignSource) (base : Url) (hweb : web.Reparses)
    {discovered : List Text} (h : ∀ raw ∈ discovered, WellFormed web raw) :
    ∃ selected, selectedUrls web source base discovered = .ok selected ∧
      selected.batchUrls = selected.eligibleUrls.take source.maxPages ∧
      selected.eligibleUrls.Nodup ∧
      ∀ url, url ∈ selected.eligibleUrls ↔
        ∃ raw ∈ discovered, Eligible web source base raw url := by
  have hparse : ∀ text, text ∈ (discovered.map (canonicalText web)).eraseDups →
      ∃ url, web.parse text = some url ∧ isPublicHttp web url = true := by
    intro text htext
    obtain ⟨raw, hraw, rfl⟩ := List.mem_map.mp (List.mem_eraseDups.mp htext)
    exact hweb.canonical (canonicalize_eq_ok.mpr ⟨h raw hraw, rfl⟩)
  obtain ⟨ranked, hranked⟩ : ∃ ranked, ranked =
      ((discovered.map (canonicalText web)).eraseDups.map fun text =>
        (text, urlOf web text)).insertionSort fun left right => ranks web left right = true := ⟨_, rfl⟩
  have hperm : (ranked.map (·.1)).Perm (discovered.map (canonicalText web)).eraseDups := by
    have hsorted := ((List.perm_insertionSort (fun left right => ranks web left right = true)
      ((discovered.map (canonicalText web)).eraseDups.map fun text => (text, urlOf web text))).map
      Prod.fst)
    rw [List.map_map] at hsorted
    rw [hranked]
    exact hsorted.trans (by simp [Function.comp_def])
  have hcanonical : discovered.mapM (canonicalizeCampaignUrl web) =
      .ok (discovered.map (canonicalText web)) :=
    (mapM_guarded fun _ _ => canonicalize_eq_ok).mpr ⟨h, rfl⟩
  have hlocated : (discovered.map (canonicalText web)).eraseDups.mapM
      (fun raw => (do return (raw, ← newUrl web raw) : Except Text (Text × Url))) =
      .ok ((discovered.map (canonicalText web)).eraseDups.map fun text => (text, urlOf web text)) := by
    refine (mapM_guarded fun _ _ => locate_eq_ok).mpr ⟨fun text htext => ?_, rfl⟩
    obtain ⟨url, hurl, -⟩ := hparse text htext
    exact ⟨url, hurl⟩
  have hchecked : ranked.mapM (fun entry => (do
      return (entry.1, ← assertPublicHttpUrl web entry.1 "url".toList) :
        Except Text (Text × Url))) =
      .ok (ranked.map fun entry => (entry.1, urlOf web entry.1)) := by
    refine (mapM_guarded fun _ _ => check_eq_ok).mpr ⟨fun entry hentry => ?_, rfl⟩
    exact hparse entry.1 (hperm.mem_iff.mp (List.mem_map_of_mem hentry))
  obtain ⟨catalog, hcatalog⟩ : ∃ catalog, catalog =
      ((ranked.map fun entry => (entry.1, urlOf web entry.1)).filter fun entry =>
        allowedPageHost web source base entry.2).map (·.1) := ⟨_, rfl⟩
  have hsub : catalog.Sublist (ranked.map (·.1)) := by
    have h := (List.filter_sublist (p := fun entry : Text × Url =>
      allowedPageHost web source base entry.2)
      (l := ranked.map fun entry => (entry.1, urlOf web entry.1))).map Prod.fst
    rw [List.map_map] at h
    rw [hcatalog]
    exact h
  have hmem : ∀ url, url ∈ catalog ↔ (∃ raw ∈ discovered, canonicalText web raw = url) ∧
      allowedPageHost web source base (urlOf web url) = true := by
    intro url
    have hin : url ∈ ranked.map (·.1) ↔ ∃ raw ∈ discovered, canonicalText web raw = url := by
      rw [hperm.mem_iff, List.mem_eraseDups, List.mem_map]
    rw [hcatalog, ← hin]
    simp only [List.mem_map, List.mem_filter]
    constructor
    · rintro ⟨entry, ⟨⟨located, hlocated, rfl⟩, hhost⟩, rfl⟩
      exact ⟨⟨located, hlocated, rfl⟩, hhost⟩
    · rintro ⟨⟨located, hlocated, rfl⟩, hhost⟩
      exact ⟨_, ⟨⟨located, hlocated, rfl⟩, hhost⟩, rfl⟩
  refine ⟨⟨(catalog.filter (matchesPatterns source)).take source.maxPages, catalog,
    catalog.filter (matchesPatterns source),
    ranked.length - (catalog.filter (matchesPatterns source)).length,
    (discovered.map (canonicalText web)).length - ranked.length⟩, ?_, rfl, ?_, ?_⟩
  · rw [selectedUrls, hcanonical, ok_bind, hlocated, ok_bind]
    simp only [← hranked, hchecked, ok_bind]
    rw [← hcatalog]
    rfl
  · exact ((hperm.nodup_iff.mpr (Occurrences.nodup_eraseDups _)).sublist hsub).filter _
  · intro url
    rw [List.mem_filter, hmem]
    constructor
    · rintro ⟨⟨⟨raw, hraw, rfl⟩, hhost⟩, hpattern⟩
      obtain ⟨parsed, hparsed, -⟩ := hparse _ (List.mem_eraseDups.mpr (List.mem_map_of_mem hraw))
      refine ⟨raw, hraw, canonicalize_eq_ok.mpr ⟨h raw hraw, rfl⟩, ⟨parsed, hparsed, ?_⟩, hpattern⟩
      simpa [urlOf, hparsed] using hhost
    · rintro ⟨raw, hraw, hcanonical, ⟨parsed, hparsed, hhost⟩, hpattern⟩
      obtain rfl := (canonicalize_eq_ok.mp hcanonical).2
      exact ⟨⟨⟨raw, hraw, rfl⟩, by simpa [urlOf, hparsed] using hhost⟩, hpattern⟩

/-! ### The crawl -/

/-- A sitemap that was requested and read: the number of its request and its text. -/
def Read (web : Web) (servers : Servers) (visited : List Text) (response : Response) : Prop :=
  ∃ i current, visited[i]? = some current ∧
    fetchText web current (servers.sitemap i current) = .ok response ∧
    200 ≤ response.status ∧ response.status < 300

theorem read_append {visited : List Text} {current : Text} {response : Response} :
    Read web servers (visited ++ [current]) response ↔
      Read web servers visited response ∨
        (fetchText web current (servers.sitemap visited.length current) = .ok response ∧
          200 ≤ response.status ∧ response.status < 300) := by
  constructor
  · rintro ⟨i, item, hitem, hread⟩
    rcases lt_trichotomy i visited.length with hlt | rfl | hgt
    · rw [List.getElem?_append_left hlt] at hitem
      exact Or.inl ⟨i, item, hitem, hread⟩
    · simp only [List.getElem?_concat_length, Option.some.injEq] at hitem
      subst hitem
      exact Or.inr hread
    · rw [List.getElem?_eq_none (by simp; omega)] at hitem
      cases hitem
  · rintro (⟨i, item, hitem, hread⟩ | hread)
    · refine ⟨i, item, ?_, hread⟩
      rw [List.getElem?_append_left (List.getElem?_eq_some_iff.mp hitem).1]
      exact hitem
    · exact ⟨visited.length, current, List.getElem?_concat_length, hread⟩

/-- Every error recorded by one state is recorded by the other. -/
def Found.Keeps (found later : Found) : Prop := ∀ error ∈ found.errors, error ∈ later.errors

theorem keeps_record (found : Found) (error : Text) : found.Keeps (found.record error) :=
  fun _ h => List.mem_append_left _ h

theorem discovered_record (found : Found) (error : Text) :
    (found.record error).discovered = found.discovered := rfl

theorem mem_record (found : Found) (error : Text) : error ∈ (found.record error).errors :=
  List.mem_append_right _ (List.mem_singleton_self error)

/-- An entry leaves the page entries and the errors, and an entry that is no public URL is recorded. -/
theorem enqueue_outcome (web : Web) (source : CampaignSource) (base : Url) (label : String)
    (visited : List Text) (state : List Text × Found) (raw : Text) :
    (enqueue web source base label visited state raw).2.discovered = state.2.discovered ∧
      state.2.Keeps (enqueue web source base label visited state raw).2 ∧
      ∀ message, sitemapCandidate web source base raw = .error message →
        label.toList ++ message ∈ (enqueue web source base label visited state raw).2.errors := by
  unfold enqueue
  cases hcandidate : sitemapCandidate web source base raw with
  | error message =>
    refine ⟨rfl, keeps_record _ _, fun other h => ?_⟩
    rw [← Except.error.inj h]
    exact mem_record _ _
  | ok found =>
    obtain ⟨candidate, allowed⟩ := found
    cases allowed with
    | false => exact ⟨rfl, keeps_record _ _, fun _ h => by cases h⟩
    | true =>
      refine ⟨?_, ?_, fun _ h => by cases h⟩
      · simp only
        split_ifs <;> rfl
      · simp only
        split_ifs <;> exact fun _ h => h

theorem foldl_enqueue_outcome (web : Web) (source : CampaignSource) (base : Url) (label : String)
    (visited : List Text) (locs : List Text) (state : List Text × Found) :
    (locs.foldl (enqueue web source base label visited) state).2.discovered = state.2.discovered ∧
      state.2.Keeps (locs.foldl (enqueue web source base label visited) state).2 ∧
      ∀ raw ∈ locs, ∀ message, sitemapCandidate web source base raw = .error message →
        label.toList ++ message ∈
          (locs.foldl (enqueue web source base label visited) state).2.errors := by
  induction locs generalizing state with
  | nil => exact ⟨rfl, fun _ h => h, fun _ h => absurd h List.not_mem_nil⟩
  | cons first rest ih =>
    obtain ⟨hdiscovered, hkeeps, hrecorded⟩ :=
      enqueue_outcome web source base label visited state first
    obtain ⟨hrestDiscovered, hrestKeeps, hrestRecorded⟩ :=
      ih (enqueue web source base label visited state first)
    rw [List.foldl_cons]
    refine ⟨hrestDiscovered.trans hdiscovered, fun error h => hrestKeeps error (hkeeps error h), ?_⟩
    intro raw hraw message hmessage
    rcases List.mem_cons.mp hraw with rfl | hraw
    · exact hrestKeeps _ (hrecorded message hmessage)
    · exact hrestRecorded raw hraw message hmessage

/-- What the crawl has found are the entries of the page sitemaps it read, and an error for each
    entry of an index that is no public URL. -/
structure Accounted (web : Web) (servers : Servers) (source : CampaignSource) (base : Url)
    (errors : List Text) (c : Crawl Text Found) : Prop where
  kept : ∀ error ∈ errors, error ∈ c.found.errors
  discovered : ∀ raw, raw ∈ c.found.discovered ↔ ∃ response,
    Read web servers c.visited response ∧ isSitemapIndex response.text = false ∧
      raw ∈ xmlLocs response.text
  recorded : ∀ response, Read web servers c.visited response →
    isSitemapIndex response.text = true → ∀ raw ∈ xmlLocs response.text, ∀ message,
      sitemapCandidate web source base raw = .error message →
        "sitemap-loc:".toList ++ message ∈ c.found.errors

theorem Accounted.visit {errors : List Text} {c : Crawl Text Found}
    (h : Accounted web servers source base errors c) (current : Text) (rest : List Text) :
    Accounted web servers source base errors
      (c.visit (visitSitemap web servers source base) current rest) := by
  have hlength : (c.visited ++ [current]).length - 1 = c.visited.length := by simp
  unfold Crawl.visit visitSitemap
  simp only [hlength]
  cases hanswer : fetchText web current (servers.sitemap c.visited.length current) with
  | error message =>
    have hread : ∀ response, Read web servers (c.visited ++ [current]) response ↔
        Read web servers c.visited response := by
      intro response
      rw [read_append, hanswer]
      simp
    constructor
    · exact fun error herror => keeps_record _ _ error (h.kept error herror)
    · simpa only [hread, discovered_record] using h.discovered
    · intro response hresponse hindex raw hraw message' hmessage
      exact keeps_record _ _ _ (h.recorded response ((hread response).mp hresponse) hindex raw hraw
        message' hmessage)
  | ok response =>
    by_cases hstatus : response.status < 200 ∨ 300 ≤ response.status
    · have hread : ∀ other, Read web servers (c.visited ++ [current]) other ↔
          Read web servers c.visited other := by
        intro other
        rw [read_append, hanswer]
        constructor
        · rintro (hother | ⟨hother, hlow, hhigh⟩)
          · exact hother
          · obtain rfl := Except.ok.inj hother
            omega
        · exact Or.inl
      simp only [hstatus, if_true]
      constructor
      · exact fun error herror => keeps_record _ _ error (h.kept error herror)
      · simpa only [hread, discovered_record] using h.discovered
      · intro other hother hindex raw hraw message hmessage
        exact keeps_record _ _ _ (h.recorded other ((hread other).mp hother) hindex raw hraw message
          hmessage)
    · have hread : ∀ other, Read web servers (c.visited ++ [current]) other ↔
          Read web servers c.visited other ∨ other = response := by
        intro other
        rw [read_append, hanswer]
        constructor
        · rintro (hother | ⟨hother, -⟩)
          · exact Or.inl hother
          · exact Or.inr (Except.ok.inj hother).symm
        · rintro (hother | rfl)
          · exact Or.inl hother
          · exact Or.inr ⟨rfl, by omega, by omega⟩
      simp only [hstatus, if_false]
      by_cases hindex : isSitemapIndex response.text = true
      · simp only [hindex, if_true]
        obtain ⟨hdiscovered, hkeeps, hrecorded⟩ := foldl_enqueue_outcome web source base
          "sitemap-loc:" (c.visited ++ [current]) (xmlLocs response.text) (rest, c.found)
        constructor
        · exact fun error herror => hkeeps error (h.kept error herror)
        · intro raw
          rw [hdiscovered, h.discovered]
          constructor
          · rintro ⟨other, hother, hrest⟩
            exact ⟨other, (hread other).mpr (Or.inl hother), hrest⟩
          · rintro ⟨other, hother, hpage, hraw⟩
            rcases (hread other).mp hother with hother | rfl
            · exact ⟨other, hother, hpage, hraw⟩
            · rw [hindex] at hpage
              cases hpage
        · intro other hother hother' raw hraw message hmessage
          rcases (hread other).mp hother with hother | rfl
          · exact hkeeps _ (h.recorded other hother hother' raw hraw message hmessage)
          · exact hrecorded raw hraw message hmessage
      · simp only [hindex, if_false, Bool.false_eq_true]
        constructor
        · exact h.kept
        · intro raw
          rw [List.mem_append, h.discovered]
          constructor
          · rintro (⟨other, hother, hrest⟩ | hraw)
            · exact ⟨other, (hread other).mpr (Or.inl hother), hrest⟩
            · exact ⟨response, (hread response).mpr (Or.inr rfl), by simpa using hindex, hraw⟩
          · rintro ⟨other, hother, hpage, hraw⟩
            rcases (hread other).mp hother with hother | rfl
            · exact Or.inl ⟨other, hother, hpage, hraw⟩
            · exact Or.inr hraw
        · intro other hother hother' raw hraw message hmessage
          rcases (hread other).mp hother with hother | rfl
          · exact h.recorded other hother hother' raw hraw message hmessage
          · exact absurd hother' hindex

/-! ### The start of the crawl -/

/-- The sitemaps that a source and its robots.txt name. -/
def namedSitemaps (web : Web) (servers : Servers) (source : CampaignSource) (base : Url) :
    List Text :=
  if source.mode = .sitemap then (readRobots web servers source base).2.1 else source.sitemapUrls

/-- The queue a crawl starts with, and what is found then. -/
def startQueue (web : Web) (source : CampaignSource) (base : Url) (locs errors : List Text) :
    List Text × Found :=
  locs.foldl (enqueue web source base "sitemap-url:" []) ([], ⟨[], errors⟩)

theorem crawl_starts (web : Web) (servers : Servers) (source : CampaignSource) (base : Url) :
    ∃ status locs errors,
      (∀ raw ∈ namedSitemaps web servers source base, raw ∈ locs) ∧
      crawlSitemaps web servers source base = (status,
        drain (visitSitemap web servers source base) source.maxSitemaps
          ⟨[], (startQueue web source base locs errors).1,
            (startQueue web source base locs errors).2⟩) := by
  unfold crawlSitemaps namedSitemaps
  by_cases hmode : source.mode = .sitemap
  · simp only [hmode, if_true, true_and]
    by_cases hnone : (readRobots web servers source base).2.1 = []
    · refine ⟨(readRobots web servers source base).1, [web.onOrigin "/sitemap.xml".toList base],
        (readRobots web servers source base).2.2, ?_, ?_⟩
      · rw [hnone]
        intro raw h
        exact absurd h List.not_mem_nil
      · rw [if_pos hnone]
        rfl
    · refine ⟨(readRobots web servers source base).1, (readRobots web servers source base).2.1,
        (readRobots web servers source base).2.2, fun raw h => h, ?_⟩
      rw [if_neg hnone]
      rfl
  · simp only [hmode, if_false, false_and]
    exact ⟨none, source.sitemapUrls, [], fun raw h => h, rfl⟩

/-- An entry is no text of a URL that a crawl could request. -/
def Malformed (web : Web) (source : CampaignSource) (base : Url) (raw message : Text) : Prop :=
  sitemapCandidate web source base raw = .error message

/-- The crawl of a source's sitemaps: how much it requests, what it finds, and what it records. -/
theorem crawl_accounted (web : Web) (servers : Servers) (source : CampaignSource) (base : Url) :
    let crawl := (crawlSitemaps web servers source base).2
    crawl.visited.Nodup ∧ crawl.visited.length ≤ source.maxSitemaps ∧
      Accounted web servers source base [] crawl ∧
      ∀ raw ∈ namedSitemaps web servers source base, ∀ message,
        Malformed web source base raw message →
          "sitemap-url:".toList ++ message ∈ crawl.found.errors := by
  obtain ⟨status, locs, errors, hnamed, hcrawl⟩ := crawl_starts web servers source base
  obtain ⟨hdiscovered, -, hrecorded⟩ :=
    foldl_enqueue_outcome web source base "sitemap-url:" [] locs ([], ⟨[], errors⟩)
  have hstart : Accounted web servers source base (startQueue web source base locs errors).2.errors
      ⟨[], (startQueue web source base locs errors).1, (startQueue web source base locs errors).2⟩ := by
    have hread : ∀ response, ¬ Read web servers [] response := by
      rintro response ⟨i, current, hcurrent, -⟩
      cases hcurrent
    constructor
    · exact fun error h => h
    · intro raw
      change raw ∈ (startQueue web source base locs errors).2.discovered ↔ _
      rw [startQueue, hdiscovered]
      constructor
      · intro h
        exact absurd h List.not_mem_nil
      · rintro ⟨response, hresponse, -⟩
        exact absurd hresponse (hread response)
    · intro response hresponse
      exact absurd hresponse (hread response)
  obtain ⟨start, hstart'⟩ : ∃ start : Crawl Text Found, start =
    ⟨[], (startQueue web source base locs errors).1, (startQueue web source base locs errors).2⟩ :=
    ⟨_, rfl⟩
  rw [← hstart'] at hstart hcrawl
  have hend : Accounted web servers source base (startQueue web source base locs errors).2.errors
      (drain (visitSitemap web servers source base) source.maxSitemaps start) :=
    drain_invariant (fun c queue h => ⟨h.kept, h.discovered, h.recorded⟩)
      (fun c item rest _ h => h.visit item rest) hstart
  have hlength : (drain (visitSitemap web servers source base) source.maxSitemaps start).visited.length
      ≤ start.visited.length + source.maxSitemaps := length_visited_le
  simp only [hcrawl]
  refine ⟨nodup_visited ?_, ?_, ⟨fun error h => absurd h List.not_mem_nil, hend.discovered,
    hend.recorded⟩, ?_⟩
  · rw [hstart']
    exact List.nodup_nil
  · simpa [hstart'] using hlength
  · intro raw hraw message hmessage
    exact hend.kept _ (hrecorded raw (hnamed raw hraw) message hmessage)

/-! ### The discovery -/

/-- The sitemaps that a discovery requests, in order. -/
def requestedSitemaps (web : Web) (servers : Servers) (source : CampaignSource) (base : Url) :
    List Text :=
  if source.mode = .exactUrlList then [] else (crawlSitemaps web servers source base).2.visited

/-- The entries that a discovery selects from before it falls back to the base URL. -/
def pageEntries (web : Web) (servers : Servers) (source : CampaignSource) (base : Url) : List Text :=
  match source.mode with
  | .exactUrlList => source.exactUrls
  | .linkCrawl => [source.baseUrl]
  | .sitemap => (crawlSitemaps web servers source base).2.found.discovered

/-- A discovery chooses what is eligible among the entries; where nothing is, the base URL, if that is
    eligible. -/
def Chosen (web : Web) (source : CampaignSource) (base : Url) (entries : List Text) (url : Text) :
    Prop :=
  (∃ raw ∈ entries, Eligible web source base raw url) ∨
    ((¬∃ raw ∈ entries, ∃ other, Eligible web source base raw other) ∧
      Eligible web source base source.baseUrl url)

section Chosen

variable {entries : List Text} {url : Text}

theorem chosen_some (h : ∃ raw ∈ entries, ∃ url, Eligible web source base raw url) :
    Chosen web source base entries url ↔ ∃ raw ∈ entries, Eligible web source base raw url :=
  ⟨fun hchosen => hchosen.resolve_right fun hnone => hnone.1 h, Or.inl⟩

theorem chosen_none (h : ¬∃ raw ∈ entries, ∃ url, Eligible web source base raw url) :
    Chosen web source base entries url ↔ Eligible web source base source.baseUrl url := by
  constructor
  · rintro (⟨raw, hraw, heligible⟩ | ⟨-, heligible⟩)
    · exact absurd ⟨raw, hraw, url, heligible⟩ h
    · exact heligible
  · intro heligible
    exact Or.inr ⟨h, heligible⟩

theorem chosen_base : Chosen web source base [source.baseUrl] url ↔
    Eligible web source base source.baseUrl url := by
  constructor
  · rintro (⟨raw, hraw, heligible⟩ | ⟨-, heligible⟩)
    · rw [← List.mem_singleton.mp hraw]
      exact heligible
    · exact heligible
  · intro heligible
    exact Or.inl ⟨source.baseUrl, List.mem_singleton_self _, heligible⟩

end Chosen

/-- The error for an entry that is dropped as malformed: a sitemap that the source or its robots.txt
    names, or an entry of a sitemap index. -/
def Dropped (web : Web) (servers : Servers) (source : CampaignSource) (base : Url) (error : Text) :
    Prop :=
  source.mode ≠ .exactUrlList ∧ ∃ raw message, Malformed web source base raw message ∧
    ((raw ∈ namedSitemaps web servers source base ∧ error = "sitemap-url:".toList ++ message) ∨
      ∃ response, Read web servers (requestedSitemaps web servers source base) response ∧
        isSitemapIndex response.text = true ∧ raw ∈ xmlLocs response.text ∧
        error = "sitemap-loc:".toList ++ message)

theorem batch_empty {selected : Selection} {entries : List Text}
    (hbatch : selected.batchUrls = selected.eligibleUrls.take source.maxPages)
    (hmem : ∀ url, url ∈ selected.eligibleUrls ↔
      ∃ raw ∈ entries, Eligible web source base raw url) (hpages : 1 ≤ source.maxPages) :
    selected.batchUrls = [] ↔ ¬∃ raw ∈ entries, ∃ url, Eligible web source base raw url := by
  have hnil : selected.batchUrls = [] ↔ selected.eligibleUrls = [] := by
    rw [hbatch, List.take_eq_nil_iff]
    constructor
    · rintro (h | h)
      · omega
      · exact h
    · exact Or.inr
  rw [hnil, List.eq_nil_iff_forall_not_mem]
  constructor
  · rintro h ⟨raw, hraw, url, heligible⟩
    exact h url ((hmem url).mpr ⟨raw, hraw, heligible⟩)
  · intro h url hurl
    obtain ⟨raw, hraw, heligible⟩ := (hmem url).mp hurl
    exact h ⟨raw, hraw, url, heligible⟩

/-- What a discovery promises of the inventory it returns. -/
structure Tolerated (web : Web) (servers : Servers) (source : CampaignSource) (base : Url)
    (inventory : Inventory) : Prop where
  requested : inventory.sitemapUrls = requestedSitemaps web servers source base
  nodup : inventory.eligibleUrls.Nodup
  chosen : ∀ url, url ∈ inventory.eligibleUrls ↔
    Chosen web source base (pageEntries web servers source base) url
  recorded : ∀ error, Dropped web servers source base error → error ∈ inventory.errors

theorem dropped_recorded (hmode : source.mode ≠ .exactUrlList) {error : Text}
    (h : Dropped web servers source base error) :
    error ∈ (crawlSitemaps web servers source base).2.found.errors := by
  obtain ⟨-, -, haccounted, hnamed⟩ := crawl_accounted web servers source base
  obtain ⟨-, raw, message, hmalformed, ⟨hraw, rfl⟩ | ⟨response, hread, hindex, hraw, rfl⟩⟩ := h
  · exact hnamed raw hraw message hmalformed
  · rw [requestedSitemaps, if_neg hmode] at hread
    exact haccounted.recorded response hread hindex raw hraw message hmalformed

/-- A discovery of given URLs. -/
theorem discover_exact (hweb : web.Reparses) (hmode : source.mode = .exactUrlList)
    (hpages : 1 ≤ source.maxPages) (hbase : web.parse source.baseUrl = some base)
    (h : ∀ raw ∈ pageEntries web servers source base, WellFormed web raw) :
    ((¬∃ raw ∈ pageEntries web servers source base, ∃ url, Eligible web source base raw url) →
      discoverWebAcquisitionInventory web servers source =
        .error (source.key ++ " exact URL inventory is empty".toList)) ∧
    ((∃ raw ∈ pageEntries web servers source base, ∃ url, Eligible web source base raw url) →
      ∃ inventory, discoverWebAcquisitionInventory web servers source = .ok inventory ∧
        Tolerated web servers source base inventory) := by
  have hentries : pageEntries web servers source base = source.exactUrls := by
    rw [pageEntries, hmode]
  rw [hentries] at h ⊢
  obtain ⟨selected, hselected, hbatch, hnodup, hmem⟩ :=
    selectedUrls_of_wellFormed source base hweb h
  have hempty := batch_empty hbatch hmem hpages
  unfold discoverWebAcquisitionInventory
  rw [newUrl_eq_ok.mpr hbase, ok_bind, if_pos hmode, hselected, ok_bind]
  constructor
  · intro hnone
    have hnot : ¬(selected.batchUrls ≠ []) := fun h => h (hempty.mpr hnone)
    rw [require, if_neg hnot]
    rfl
  · intro hsome
    have hbatch' : selected.batchUrls ≠ [] := fun h => hempty.mp h hsome
    refine ⟨inventoryOf web source base .exactUrlList none [] source.exactUrls.length selected [],
      ?_, ?_⟩
    · rw [require, if_pos hbatch']
      rfl
    · constructor
      · rw [requestedSitemaps, if_pos hmode]
        rfl
      · exact hnodup
      · intro url
        rw [hentries]
        exact (hmem url).trans (chosen_some hsome).symm
      · intro error hdropped
        exact absurd hmode hdropped.1

/-- A discovery that reads sitemaps, or only the base URL. -/
theorem discover_crawl (hweb : web.Reparses) (hmode : source.mode ≠ .exactUrlList)
    (hpages : 1 ≤ source.maxPages) (hbase : web.parse source.baseUrl = some base)
    (hpublic : isPublicHttp web base = true)
    (h : ∀ raw ∈ pageEntries web servers source base, WellFormed web raw) :
    ∃ inventory, discoverWebAcquisitionInventory web servers source = .ok inventory ∧
      Tolerated web servers source base inventory := by
  have hbaseEntry : ∀ raw ∈ [source.baseUrl], WellFormed web raw := by
    intro raw hraw
    rw [List.mem_singleton.mp hraw]
    exact ⟨_, canonicalizeCampaignUrl_eq_ok.mpr ⟨base, hbase, hpublic, rfl⟩⟩
  obtain ⟨fallback, hfallback, -, hfallbackNodup, hfallbackMem⟩ :=
    selectedUrls_of_wellFormed source base hweb hbaseEntry
  have hfallbackMem' : ∀ url, url ∈ fallback.eligibleUrls ↔
      Eligible web source base source.baseUrl url := by
    intro url
    rw [hfallbackMem]
    simp only [List.mem_singleton, exists_eq_left]
  have hrequested : requestedSitemaps web servers source base =
      (crawlSitemaps web servers source base).2.visited := by rw [requestedSitemaps, if_neg hmode]
  unfold discoverWebAcquisitionInventory
  rw [newUrl_eq_ok.mpr hbase, ok_bind, if_neg hmode]
  cases hmode' : source.mode with
  | exactUrlList => exact absurd hmode' hmode
  | linkCrawl =>
    rw [pageEntries, hmode'] at h
    simp only [true_or, if_true, hfallback, ok_bind]
    refine ⟨_, rfl, hrequested.symm, hfallbackNodup, fun url => ?_,
      fun error hdropped => dropped_recorded hmode hdropped⟩
    rw [pageEntries, hmode']
    exact (hfallbackMem' url).trans chosen_base.symm
  | sitemap =>
    have hentries : pageEntries web servers source base =
        (crawlSitemaps web servers source base).2.found.discovered := by rw [pageEntries, hmode']
    rw [hentries] at h
    simp only [reduceCtorEq, false_or]
    by_cases hnone : (crawlSitemaps web servers source base).2.found.discovered = []
    · rw [if_pos hnone, hfallback, ok_bind]
      refine ⟨_, rfl, hrequested.symm, hfallbackNodup, fun url => ?_,
        fun error hdropped => dropped_recorded hmode hdropped⟩
      refine (hfallbackMem' url).trans (chosen_none ?_).symm
      rw [hentries, hnone]
      rintro ⟨raw, hraw, -⟩
      exact absurd hraw List.not_mem_nil
    · obtain ⟨selected, hselected, hbatch, hnodup, hmem⟩ :=
        selectedUrls_of_wellFormed source base hweb h
      have hempty := batch_empty hbatch hmem hpages
      rw [if_neg hnone, hselected, ok_bind]
      by_cases hbatch' : selected.batchUrls = []
      · rw [if_pos hbatch', hfallback, ok_bind]
        refine ⟨_, rfl, hrequested.symm, hfallbackNodup, fun url => ?_,
          fun error hdropped => List.mem_append_left _ (dropped_recorded hmode hdropped)⟩
        rw [hentries]
        exact (hfallbackMem' url).trans (chosen_none (hempty.mp hbatch')).symm
      · rw [if_neg hbatch']
        refine ⟨_, rfl, hrequested.symm, hnodup, fun url => ?_,
          fun error hdropped => dropped_recorded hmode hdropped⟩
        rw [hentries]
        exact (hmem url).trans (chosen_some (not_not.mp (mt hempty.mpr hbatch'))).symm

/-! ### The discovery as a whole -/

/-- Whatever the servers answer, a discovery requests each sitemap once and no more than allowed; and
    where each entry it selects from is a public URL, it returns an inventory of what is eligible and
    records what it drops, unless it was given URLs none of which is eligible. -/
theorem discovery_tolerates (web : Web) (servers : Servers) (source : CampaignSource)
    (hweb : web.Reparses) (hbase : ∃ raw, canonicalizeCampaignUrl web raw = .ok source.baseUrl)
    (hpages : 1 ≤ source.maxPages) :
    ∃ base, web.parse source.baseUrl = some base ∧
      (requestedSitemaps web servers source base).Nodup ∧
      (requestedSitemaps web servers source base).length ≤ source.maxSitemaps ∧
      (source.mode = .sitemap → ∀ raw, raw ∈ pageEntries web servers source base ↔
        ∃ response, Read web servers (requestedSitemaps web servers source base) response ∧
          isSitemapIndex response.text = false ∧ raw ∈ xmlLocs response.text) ∧
      ((∀ raw ∈ pageEntries web servers source base, WellFormed web raw) →
        (source.mode = .exactUrlList ∧
          (¬∃ raw ∈ pageEntries web servers source base, ∃ url,
            Eligible web source base raw url) ∧
          discoverWebAcquisitionInventory web servers source =
            .error (source.key ++ " exact URL inventory is empty".toList)) ∨
        ∃ inventory, discoverWebAcquisitionInventory web servers source = .ok inventory ∧
          Tolerated web servers source base inventory) := by
  obtain ⟨raw, hraw⟩ := hbase
  obtain ⟨base, hparse, hpublic⟩ := hweb.canonical hraw
  obtain ⟨hnodup, hlength, haccounted, -⟩ := crawl_accounted web servers source base
  refine ⟨base, hparse, ?_, ?_, ?_, ?_⟩
  · by_cases hmode : source.mode = .exactUrlList
    · rw [requestedSitemaps, if_pos hmode]
      exact List.nodup_nil
    · rw [requestedSitemaps, if_neg hmode]
      exact hnodup
  · by_cases hmode : source.mode = .exactUrlList
    · rw [requestedSitemaps, if_pos hmode]
      exact Nat.zero_le _
    · rw [requestedSitemaps, if_neg hmode]
      exact hlength
  · intro hmode raw
    have hexact : source.mode ≠ .exactUrlList := by
      rw [hmode]
      decide
    rw [pageEntries, hmode, requestedSitemaps, if_neg hexact]
    exact haccounted.discovered raw
  · intro hentries
    by_cases hmode : source.mode = .exactUrlList
    · obtain ⟨hnone, hsome⟩ := discover_exact hweb hmode hpages hparse hentries
      by_cases heligible : ∃ raw ∈ pageEntries web servers source base, ∃ url,
          Eligible web source base raw url
      · exact Or.inr (hsome heligible)
      · exact Or.inl ⟨hmode, heligible, hnone heligible⟩
    · exact Or.inr (discover_crawl hweb hmode hpages hparse hpublic hentries)

/-! ### A source with two sitemaps -/

def sampleUrl (hostname pathname : String) (searchParams : List (Text × Text)) : Url :=
  ⟨"https:".toList, [], [], hostname.toList, [], pathname.toList, searchParams, []⟩

def sampleUrls : List (Text × Url) :=
  [("https://a.test/".toList, sampleUrl "a.test" "/" []),
    ("https://a.test/robots.txt".toList, sampleUrl "a.test" "/robots.txt" []),
    ("https://a.test/sitemap.xml".toList, sampleUrl "a.test" "/sitemap.xml" []),
    ("https://a.test/pages.xml".toList, sampleUrl "a.test" "/pages.xml" []),
    ("https://a.test/p".toList, sampleUrl "a.test" "/p" []),
    ("https://a.test/p?ref=x".toList, sampleUrl "a.test" "/p" [("ref".toList, "x".toList)]),
    ("https://b.test/".toList, sampleUrl "b.test" "/" [])]

/-- A platform that knows the URLs above, and the digests of two of them. -/
def sampleWeb : Web where
  parse raw := (sampleUrls.find? (·.1 = raw)).map (·.2)
  serialize url := ((sampleUrls.find? (·.2 = url)).map (·.1)).getD []
  onOrigin path url := url.protocol ++ "//".toList ++ url.hostname ++ path
  lower text := text.map Char.toLower
  collates left right := left.map Char.toNat ≤ right.map Char.toNat
  sha256 text :=
    if text = "https://a.test/".toList then
      "72745e75dfc5db5e0ba5b2c2e00a1aab8e6bae2dd8142303c2ae005769b41664".toList
    else if text = "https://a.test/p".toList then
      "c3b3730ace467bd5e800787a273a6df6610d6b190295361d9d71a6388be6d59a".toList
    else []

def sampleSource : CampaignSource where
  key := "a".toList
  baseUrl := "https://a.test/".toList
  allowedHosts := []
  mode := .sitemap
  sitemapUrls := []
  exactUrls := []
  maxSitemaps := 2
  includePatterns := []
  excludePatterns := []
  maxPages := 5

def sampleBase : Url := sampleUrl "a.test" "/" []

/-- Servers whose sitemap lists one entry. -/
def listing (entry : String) : Servers where
  robots := .ok ⟨404, []⟩
  sitemap _ _ := .ok ⟨200, "<loc>".toList ++ entry.toList ++ "</loc>".toList⟩

def sampleIndex : Text :=
  ("<sitemapindex><loc>https://a.test/pages.xml</loc><loc>/more.xml</loc>" ++
    "<loc>https://a.test/sitemap.xml</loc></sitemapindex>").toList

/-- Servers whose sitemap is an index of the sitemap of pages, of a relative URL and of itself. -/
def nestedSitemaps : Servers where
  robots := .ok ⟨404, []⟩
  sitemap _ url :=
    .ok ⟨200, if url = "https://a.test/sitemap.xml".toList then sampleIndex
      else ("<loc>https://a.test/p?ref=x</loc><loc>https://b.test/</loc>" ++
        "<loc>https://a.test/p</loc>").toList⟩

theorem sampleWeb_reparses : sampleWeb.Reparses := by
  intro raw url hparse _
  have hmem : url ∈ sampleUrls.map (·.2) := by
    obtain ⟨entry, hentry, rfl⟩ := Option.map_eq_some_iff.mp hparse
    exact List.mem_map_of_mem (List.mem_of_find?_eq_some hentry)
  have hall : ∀ url ∈ sampleUrls.map (·.2),
      sampleWeb.parse (sampleWeb.serialize (canonicalUrl sampleWeb url)) =
        some (canonicalUrl sampleWeb url) := by decide +kernel
  exact hall url hmem

/-- The page is found through the index and eligible once, the page of another host is not, and the
    relative entry of the index is recorded. -/
theorem discovery_tolerates_nested :
    (requestedSitemaps sampleWeb nestedSitemaps sampleSource sampleBase).length ≤ 2 ∧
      ∃ inventory, discoverWebAcquisitionInventory sampleWeb nestedSitemaps sampleSource = .ok inventory ∧
        inventory.eligibleUrls.Nodup ∧ "https://a.test/p".toList ∈ inventory.eligibleUrls ∧
        "https://b.test/".toList ∉ inventory.eligibleUrls ∧
        "sitemap-loc:url must be an absolute HTTP(S) URL".toList ∈ inventory.errors := by
  obtain ⟨base, hparse, -, hlength, -, htolerates⟩ := discovery_tolerates sampleWeb nestedSitemaps
    sampleSource sampleWeb_reparses ⟨"https://a.test/".toList, by decide +kernel⟩ (by decide)
  have hbase : sampleWeb.parse sampleSource.baseUrl = some sampleBase := by decide +kernel
  obtain rfl : sampleBase = base := Option.some.inj (hbase.symm.trans hparse)
  have hentries : pageEntries sampleWeb nestedSitemaps sampleSource sampleBase =
      ["https://a.test/p?ref=x".toList, "https://b.test/".toList, "https://a.test/p".toList] := by
    decide +kernel
  have hwellFormed : ∀ raw ∈ pageEntries sampleWeb nestedSitemaps sampleSource sampleBase,
      WellFormed sampleWeb raw := by
    rw [hentries]
    intro raw hraw
    simp only [List.mem_cons, List.not_mem_nil, or_false] at hraw
    rcases hraw with rfl | rfl | rfl
    · exact ⟨"https://a.test/p".toList, by decide +kernel⟩
    · exact ⟨"https://b.test/".toList, by decide +kernel⟩
    · exact ⟨"https://a.test/p".toList, by decide +kernel⟩
  have hforeign : ∀ raw,
      ¬ Eligible sampleWeb sampleSource sampleBase raw "https://b.test/".toList := by
    intro raw heligible
    obtain ⟨parsed, hparsed, hhost⟩ := heligible.host
    have hother : sampleWeb.parse "https://b.test/".toList = some (sampleUrl "b.test" "/" []) := by
      decide +kernel
    obtain rfl : sampleUrl "b.test" "/" [] = parsed := Option.some.inj (hother.symm.trans hparsed)
    exact absurd hhost (by decide +kernel)
  refine ⟨hlength, ?_⟩
  rcases htolerates hwellFormed with ⟨hmode, -⟩ | ⟨inventory, hinventory, htolerated⟩
  · cases hmode
  · refine ⟨inventory, hinventory, htolerated.nodup, ?_, fun hmem => ?_, ?_⟩
    · rw [htolerated.chosen, hentries]
      exact Or.inl ⟨"https://a.test/p?ref=x".toList, List.mem_cons_self, by decide +kernel,
        ⟨sampleUrl "a.test" "/p" [], by decide +kernel, by decide +kernel⟩, by decide +kernel⟩
    · rcases (htolerated.chosen _).mp hmem with ⟨raw, -, heligible⟩ | ⟨-, heligible⟩
      · exact hforeign raw heligible
      · exact hforeign _ heligible
    · have hread : Read sampleWeb nestedSitemaps
          (requestedSitemaps sampleWeb nestedSitemaps sampleSource sampleBase) ⟨200, sampleIndex⟩ :=
        ⟨0, "https://a.test/sitemap.xml".toList, by decide +kernel, by decide +kernel, by decide,
          by decide⟩
      have hmalformed : Malformed sampleWeb sampleSource sampleBase "/more.xml".toList
          "url must be an absolute HTTP(S) URL".toList :=
        (by decide +kernel : sitemapCandidate sampleWeb sampleSource sampleBase _ = .error _)
      exact htolerated.recorded _ ⟨by decide, _, _, hmalformed,
        Or.inr ⟨_, hread, by decide +kernel, by decide +kernel, by decide +kernel⟩⟩

/-- The only page that the sitemap lists is on another host, and the base URL, which it does not list,
    is what is eligible; a page entry that is no URL ends the discovery with an error. -/
theorem foreign_page_falls_back :
    (discoverWebAcquisitionInventory sampleWeb (listing "https://b.test/") sampleSource).toOption.map
        (fun inventory => (inventory.sitemapUrls, inventory.eligibleUrls)) =
      some (["https://a.test/sitemap.xml".toList], ["https://a.test/".toList]) ∧
    ¬ Eligible sampleWeb sampleSource
      ⟨"https:".toList, [], [], "a.test".toList, [], ['/'], [], []⟩ "https://b.test/".toList
      "https://a.test/".toList ∧
    (discoverWebAcquisitionInventory sampleWeb (listing "/b") sampleSource).toOption.isNone = true := by
  refine ⟨by decide +kernel, fun h => ?_, by decide +kernel⟩
  have hcanonical := h.canonical
  exact absurd hcanonical (by decide +kernel)

end MarkorbitKnowledge.Campaign
