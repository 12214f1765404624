import MarkorbitKnowledge.Contracts.Text
import MarkorbitKnowledge.Lib.Fallible
import Mathlib.Data.List.Sort

/-!
# Campaign URLs

`new URL` and the serialization of a URL come with the platform (`Web`).  A campaign reaches public
HTTP(S) URLs only, and knows each by its canonical text: no fragment, no tracking parameters, the
others sorted, and no empty path segments.
-/

namespace MarkorbitKnowledge.Campaign

open Contracts Fallible

/-- A parsed URL. -/
structure Url where
  protocol : Text
  username : Text
  password : Text
  hostname : Text
  port : Text
  pathname : Text
  searchParams : List (Text × Text)
  hash : Text
deriving DecidableEq

/-- The platform: URLs, `toLowerCase`, `localeCompare` and SHA-256. -/
structure Web where
  parse : Text → Option Url
  serialize : Url → Text
  /-- `new URL(path, url.origin).toString()`. -/
  onOrigin : Text → Url → Text
  lower : Text → Text
  /-- `left.localeCompare(right) <= 0`. -/
  collates : Text → Text → Bool
  sha256 : Text → Text

variable (web : Web)

/-- A number of one to three digits, as `\d{1,3}` matches it. -/
def octet (digits : Text) : Option Nat :=
  if 1 ≤ digits.length ∧ digits.length ≤ 3 ∧ digits.all Char.isDigit then
    some (digits.foldl (fun value c => value * 10 + (c.toNat - 48)) 0)
  else none

def privateIpv4 (hostname : Text) : Bool :=
  match (hostname.splitOn '.').map octet with
  | [some a, some b, some c, some d] =>
    [a, b, c, d].any (255 < ·) || a = 10 || a = 127 || (a = 169 && b = 254) ||
      (a = 172 && 16 ≤ b && b ≤ 31) || (a = 192 && b = 168)
  | _ => false

/-- The URLs a campaign may reach. -/
def isPublicHttp (url : Url) : Bool :=
  let hostname := web.lower url.hostname
  (url.protocol = "http:".toList || url.protocol = "https:".toList) &&
    !(hostname = "localhost".toList || ".local".toList.isSuffixOf hostname ||
      hostname = "::1".toList || "fc".toList.isPrefixOf hostname ||
      "fd".toList.isPrefixOf hostname || privateIpv4 hostname || url.username ≠ [] ||
      url.password ≠ [])

def assertPublicHttpUrl (raw : Text) (field : Text) : Except Text Url := do
  let url ← orThrow (web.parse raw) (field ++ " must be an absolute HTTP(S) URL".toList)
  require (isPublicHttp web url)
    (field ++ " must remain on a public HTTP(S) origin without embedded credentials".toList)
  return url

def trackingParameters : List Text :=
  ["gclid".toList, "fbclid".toList, "mc_cid".toList, "mc_eid".toList, "msclkid".toList, "ref".toList]

def isTracking (key : Text) : Bool :=
  let normalized := web.lower key
  "utm_".toList.isPrefixOf normalized || normalized ∈ trackingParameters

/-- `pathname.replace(/\/{2,}/gu, "/")`. -/
def collapseSlashes : Text → Text
  | [] => []
  | c :: rest =>
    if c = '/' ∧ rest.head? = some '/' then collapseSlashes rest else c :: collapseSlashes rest

def canonicalUrl (url : Url) : Url :=
  { url with
    hash := []
    searchParams := (url.searchParams.filter fun pair => !isTracking web pair.1).insertionSort
      fun left right => left.1.units.map UInt16.toNat ≤ right.1.units.map UInt16.toNat
    pathname := if url.pathname = ['/'] then url.pathname else collapseSlashes url.pathname }

def canonicalizeCampaignUrl (raw : Text) : Except Text Text := do
  let url ← assertPublicHttpUrl web raw "url".toList
  return web.serialize (canonicalUrl web url)

/-- What `new URL` promises: the text of a canonical URL is parsed to that URL. -/
def Web.Reparses : Prop :=
  ∀ raw url, web.parse raw = some url → isPublicHttp web url = true →
    web.parse (web.serialize (canonicalUrl web url)) = some (canonicalUrl web url)

variable {web}

theorem assertPublicHttpUrl_eq_ok {raw field : Text} {url : Url} :
    assertPublicHttpUrl web raw field = .ok url ↔
      web.parse raw = some url ∧ isPublicHttp web url = true := by
  simp only [assertPublicHttpUrl, bind_eq_ok, orThrow_eq_ok, require_eq_ok, pure_eq_ok]
  constructor
  · rintro ⟨url', hparse, _, hpublic, rfl⟩
    exact ⟨hparse, hpublic⟩
  · rintro ⟨hparse, hpublic⟩
    exact ⟨url, hparse, (), hpublic, rfl⟩

theorem canonicalizeCampaignUrl_eq_ok {raw text : Text} :
    canonicalizeCampaignUrl web raw = .ok text ↔
      ∃ url, web.parse raw = some url ∧ isPublicHttp web url = true ∧
        web.serialize (canonicalUrl web url) = text := by
  simp only [canonicalizeCampaignUrl, bind_eq_ok, assertPublicHttpUrl_eq_ok, pure_eq_ok, and_assoc]

/-- A canonical text is that of a public URL with the same host. -/
theorem Web.Reparses.canonical (h : web.Reparses) {raw text : Text}
    (htext : canonicalizeCampaignUrl web raw = .ok text) :
    ∃ url, web.parse text = some url ∧ isPublicHttp web url = true := by
  obtain ⟨url, hparse, hpublic, rfl⟩ := canonicalizeCampaignUrl_eq_ok.mp htext
  exact ⟨canonicalUrl web url, h raw url hparse hpublic, hpublic⟩

end MarkorbitKnowledge.Campaign
