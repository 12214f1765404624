import MarkorbitKnowledge.Campaign.Urls
import MarkorbitKnowledge.Lib.Markup
import MarkorbitKnowledge.Lib.Worklist

/-!
# Discovering the inventory of a web acquisition campaign

`discoverWebAcquisitionInventory` reads robots.txt and the sitemaps of a source and selects from what
they list.  What the servers answer is given with the call (`Servers`): the answer to the robots
request, and to each sitemap request by its number and URL.
-/

namespace MarkorbitKnowledge.Campaign

open Contracts Fallible Worklist

inductive DiscoveryMode where
  | sitemap
  | linkCrawl
  | exactUrlList
deriving DecidableEq

structure CampaignSource where
  key : Text
  baseUrl : Text
  allowedHosts : List Text
  mode : DiscoveryMode
  sitemapUrls : List Text
  exactUrls : List Text
  maxSitemaps : Nat
  includePatterns : List Text
  excludePatterns : List Text
  maxPages : Nat

structure Response where
  status : Nat
  text : Text
deriving DecidableEq

/-- What the servers answer: a response, or the message of the error that `fetch` throws. -/
structure Servers where
  robots : Except Text Response
  sitemap : Nat → Text → Except Text Response

/-! ### Reading documents -/

/-- `value.replaceAll(pattern, replacement)`, past the given number of characters. -/
def replaceAllFrom (pattern replacement : Text) : Nat → Text → Text
  | _, [] => []
  | skip + 1, _ :: text => replaceAllFrom pattern replacement skip text
  | 0, c :: text =>
    if pattern.isPrefixOf (c :: text) then
      replacement ++ replaceAllFrom pattern replacement (pattern.length - 1) text
    else c :: replaceAllFrom pattern replacement 0 text

def replaceAll (pattern replacement : String) (text : Text) : Text :=
  replaceAllFrom pattern.toList replacement.toList 0 text

def decodeXml (value : Text) : Text :=
  replaceAll "&#39;" "'" (replaceAll "&quot;" "\"" (replaceAll "&gt;" ">"
    (replaceAll "&lt;" "<" (replaceAll "&amp;" "&" value))))

/-- Equality of characters under the flags `i` and `u`. -/
def sameFolded (c d : Char) : Bool :=
  let fold (c : Char) : Char :=
    if c.toNat = 0x17F then 's' else if c.toNat = 0x212A then 'k' else c.toLower
  fold c = fold d

/-- `\w` under the flags `i` and `u`. -/
def isWordFolded (c : Char) : Bool :=
  c.isAlphanum || c = '_' || c.toNat = 0x17F || c.toNat = 0x212A

def xmlLocs (xml : Text) : List Text :=
  ((Markup.elements sameFolded isWordFolded "loc".toList xml).map fun element =>
    decodeXml (trimText element.2)).filter (· ≠ [])

/-- `/<sitemapindex\b/iu.test(text)`. -/
def isSitemapIndex : Text → Bool
  | [] => false
  | c :: text =>
    ((Markup.dropLiteral sameFolded "<sitemapindex".toList (c :: text)).any
      fun rest => !rest.head?.any isWordFolded) || isSitemapIndex text

/-- The lines of a text, split at LF or CRLF. -/
def splitLines (text : Text) : List Text :=
  (text.splitOn '\n').mapIdx fun index line =>
    if index + 1 < (text.splitOn '\n').length ∧ line.getLast? = some '\r' then line.dropLast else line

/-- `line.match(/^\s*Sitemap\s*:\s*(\S+)\s*$/iu)?.[1]`. -/
def robotsSitemap (line : Text) : Option Text :=
  match Markup.dropLiteral sameFolded "sitemap".toList (trimStart line) with
  | none => none
  | some rest =>
    match trimStart rest with
    | ':' :: value =>
      let value := trimText value
      if value ≠ [] ∧ value.all (fun c => !isJsSpace c) then some value else none
    | _ => none

def robotsSitemaps (text : Text) : List Text :=
  (splitLines text).filterMap robotsSitemap

/-! ### Selecting URLs -/

/-- `patternRegex(pattern).test(url)`: `*` stands for any text in one line, all else for itself. -/
def patternMatches : Text → Text → Bool
  | [], url => url.isEmpty
  | c :: pattern, url =>
    if c = '*' then anySuffix pattern url
    else
      match url with
      | [] => false
      | d :: rest => c = d && patternMatches pattern rest
where
  /-- The pattern matches what is left after some characters of one line. -/
  anySuffix (pattern : Text) : Text → Bool
    | [] => patternMatches pattern []
    | d :: rest =>
      patternMatches pattern (d :: rest) || (!isLineTerminator d && anySuffix pattern rest)

def matchesPatterns (source : CampaignSource) (url : Text) : Bool :=
  (source.includePatterns = [] || source.includePatterns.any (patternMatches · url)) &&
    !source.excludePatterns.any (patternMatches · url)

variable (web : Web)

/-- `new URL(raw)`, where no catch has a message of its own for it. -/
def newUrl (raw : Text) : Except Text Url := orThrow (web.parse raw) "Invalid URL".toList

def allowedPageHost (source : CampaignSource) (base url : Url) : Bool :=
  web.lower url.hostname ∈ web.lower base.hostname :: source.allowedHosts.map web.lower

/-- The order of a selection: shallow paths first, then short ones. -/
def ranks (left right : Text × Url) : Bool :=
  let depth (url : Url) : Nat := ((url.pathname.splitOn '/').filter (· ≠ [])).length
  if depth left.2 ≠ depth right.2 then depth left.2 < depth right.2
  else if left.2.pathname.length ≠ right.2.pathname.length then
    left.2.pathname.length < right.2.pathname.length
  else web.collates left.1 right.1

structure Selection where
  batchUrls : List Text
  catalogUrls : List Text
  eligibleUrls : List Text
  excludedCount : Nat
  duplicateCount : Nat

def selectedUrls (source : CampaignSource) (base : Url) (discovered : List Text) :
    Except Text Selection := do
  let canonical ← discovered.mapM (canonicalizeCampaignUrl web)
  let located ← canonical.eraseDups.mapM fun raw => do return (raw, ← newUrl web raw)
  let ranked := located.insertionSort fun left right => ranks web left right
  let checked ← ranked.mapM fun entry => do
    return (entry.1, ← assertPublicHttpUrl web entry.1 "url".toList)
  let catalogUrls := (checked.filter fun entry => allowedPageHost web source base entry.2).map (·.1)
  let eligibleUrls := catalogUrls.filter (matchesPatterns source)
  return {
    batchUrls := eligibleUrls.take source.maxPages
    catalogUrls := catalogUrls
    eligibleUrls := eligibleUrls
    excludedCount := ranked.length - eligibleUrls.length
    duplicateCount := canonical.length - ranked.length }

/-! ### The crawl of sitemaps -/

/-- What the crawl has found: page entries, and the errors it has recorded. -/
structure Found where
  discovered : List Text
  errors : List Text

def Found.record (found : Found) (error : Text) : Found :=
  { found with errors := found.errors ++ [error] }

def fetchText (rawUrl : Text) (answer : Except Text Response) : Except Text Response := do
  let _ ← assertPublicHttpUrl web rawUrl "url".toList
  answer

/-- A URL of a sitemap, as it enters the queue: its canonical text, on an allowed host. -/
def sitemapCandidate (source : CampaignSource) (base : Url) (raw : Text) :
    Except Text (Text × Bool) := do
  let candidate ← canonicalizeCampaignUrl web raw
  let url ← newUrl web candidate
  return (candidate, allowedPageHost web source base url)

/-- An entry goes into the queue, or into the errors under the given label. -/
def enqueue (source : CampaignSource) (base : Url) (label : String) (visited : List Text)
    (state : List Text × Found) (raw : Text) : List Text × Found :=
  match sitemapCandidate web source base raw with
  | .error message => (state.1, state.2.record (label.toList ++ message))
  | .ok (candidate, false) =>
    (state.1, state.2.record ("sitemap-host-not-allowed:".toList ++ candidate))
  | .ok (candidate, true) =>
    if candidate ∈ visited ∨ candidate ∈ state.1 then state else (state.1 ++ [candidate], state.2)

def decimal (n : Nat) : Text := (toString n).toList

def visitSitemap (servers : Servers) (source : CampaignSource) (base : Url) (visited : List Text)
    (current : Text) (state : List Text × Found) : List Text × Found :=
  match fetchText web current (servers.sitemap (visited.length - 1) current) with
  | .error message =>
    (state.1, state.2.record ("sitemap:".toList ++ current ++ ":".toList ++ message))
  | .ok response =>
    if response.status < 200 ∨ 300 ≤ response.status then
      (state.1, state.2.record
        ("sitemap:".toList ++ current ++ ":HTTP_".toList ++ decimal response.status))
    else if isSitemapIndex response.text then
      (xmlLocs response.text).foldl (enqueue web source base "sitemap-loc:" visited) state
    else (state.1, { state.2 with discovered := state.2.discovered ++ xmlLocs response.text })

/-! ### The inventory -/

structure Inventory where
  sourceKey : Text
  baseUrl : Text
  requestedMode : DiscoveryMode
  modeUsed : DiscoveryMode
  robotsUrl : Text
  robotsStatus : Option Nat
  sitemapUrls : List Text
  discoveredCount : Nat
  selectedUrls : List Text
  catalogCount : Nat
  eligibleCount : Nat
  catalogUrls : List Text
  eligibleUrls : List Text
  excludedCount : Nat
  duplicateCount : Nat
  errors : List Text
  inventorySha256 : Text
  eligibleInventorySha256 : Text

def inventoryHash (urls : List Text) : Text := web.sha256 (List.intercalate ['\n'] urls)

/-- The robots request of a SITEMAP source: its status, the sitemaps it names, and its error. -/
def readRobots (servers : Servers) (source : CampaignSource) (base : Url) :
    Option Nat × List Text × List Text :=
  match fetchText web (web.onOrigin "/robots.txt".toList base) servers.robots with
  | .error message => (none, source.sitemapUrls, ["robots:".toList ++ message])
  | .ok response =>
    (some response.status,
      source.sitemapUrls ++
        (if 200 ≤ response.status ∧ response.status < 300 then robotsSitemaps response.text else []),
      [])

/-- The crawl of a source's sitemaps, and the status of its robots request. -/
def crawlSitemaps (servers : Servers) (source : CampaignSource) (base : Url) :
    Option Nat × Crawl Text Found :=
  let (robotsStatus, sitemapUrls, errors) :=
    if source.mode = .sitemap then readRobots web servers source base
    else (none, source.sitemapUrls, [])
  let sitemapUrls :=
    if source.mode = .sitemap ∧ sitemapUrls = [] then [web.onOrigin "/sitemap.xml".toList base]
    else sitemapUrls
  let (queue, found) :=
    sitemapUrls.foldl (enqueue web source base "sitemap-url:" []) ([], ⟨[], errors⟩)
  (robotsStatus, drain (visitSitemap web servers source base) source.maxSitemaps ⟨[], queue, found⟩)

/-- The fields of an inventory that a selection decides. -/
def inventoryOf (source : CampaignSource) (base : Url) (modeUsed : DiscoveryMode)
    (robotsStatus : Option Nat) (sitemapUrls : List Text) (discoveredCount : Nat)
    (selected : Selection) (errors : List Text) : Inventory :=
  { sourceKey := source.key
    baseUrl := source.baseUrl
    requestedMode := source.mode
    modeUsed := modeUsed
    robotsUrl := web.onOrigin "/robots.txt".toList base
    robotsStatus := robotsStatus
    sitemapUrls := sitemapUrls
    discoveredCount := discoveredCount
    selectedUrls := selected.batchUrls
    catalogCount := selected.catalogUrls.length
    eligibleCount := selected.eligibleUrls.length
    catalogUrls := selected.catalogUrls
    eligibleUrls := selected.eligibleUrls
    excludedCount := selected.excludedCount
    duplicateCount := selected.duplicateCount
    errors := errors
    inventorySha256 := inventoryHash web selected.catalogUrls
    eligibleInventorySha256 := inventoryHash web selected.eligibleUrls }

def discoverWebAcquisitionInventory (servers : Servers) (source : CampaignSource) :
    Except Text Inventory := do
  let base ← newUrl web source.baseUrl
  if source.mode = .exactUrlList then
    let selected ← selectedUrls web source base source.exactUrls
    require (selected.batchUrls ≠ []) (source.key ++ " exact URL inventory is empty".toList)
    return inventoryOf web source base .exactUrlList none [] source.exactUrls.length selected []
  else
    let (robotsStatus, crawl) := crawlSitemaps web servers source base
    let discovered := crawl.found.discovered
    let errors := crawl.found.errors
    if source.mode = .linkCrawl ∨ discovered = [] then
      let selected ← selectedUrls web source base [source.baseUrl]
      return inventoryOf web source base .linkCrawl robotsStatus crawl.visited discovered.length
        selected errors
    else
      let selected ← selectedUrls web source base discovered
      if selected.batchUrls = [] then
        let fallback ← selectedUrls web source base [source.baseUrl]
        return inventoryOf web source base .linkCrawl robotsStatus crawl.visited discovered.length
          { fallback with
            catalogUrls := (selected.catalogUrls ++ fallback.catalogUrls).eraseDups
            excludedCount := selected.excludedCount
            duplicateCount := selected.duplicateCount }
          (errors ++ ["sitemap-approved-empty:fallback-link-crawl".toList])
      else
        return inventoryOf web source base .sitemap robotsStatus crawl.visited discovered.length
          selected errors

end MarkorbitKnowledge.Campaign
