import MarkorbitKnowledge.Contracts.Conversion
import MarkorbitKnowledge.Contracts.Text
import MarkorbitKnowledge.Lib.Fallible

/-!
# Source pages of the CNIPA gazette

The first half of `cnipa-gazette-browser-stream.ts`: the session of a browser stream, and the page of
rows read from one response of the gazette's list endpoint.  An error is its message.  JSON numbers are
integers.
-/

namespace MarkorbitKnowledge.Gazette

open Contracts Fallible

/-- A value `JSON.parse` gives; of its numbers there are the integers only. -/
inductive Json where
  | null
  | bool (value : Bool)
  | number (value : Int)
  | text (value : String)
  | array (items : List Json)
  | object (fields : List (String × Json))

abbrev JsonRecord := List (String × Json)

/-! ### Reading fields -/

section Fields

variable (value : Option Json) (label : String)

def record : Except String JsonRecord :=
  match value with
  | some (.object fields) => pure fields
  | _ => throw (label ++ " must be an object")

/-- `String(value)` of a text or a number. -/
def printed : Option Json → Option String
  | some (.text value) => some value
  | some (.number value) => some (toString value)
  | _ => none

/-- `Number(text)` of a text that has digits only. -/
def digitsValue (text : String) : Option Nat :=
  if text ≠ "" ∧ text.toList.all Char.isDigit = true then
    some (text.toList.foldl (fun n c => n * 10 + (c.toNat - '0'.toNat)) 0)
  else none

def numberOf : Option Json → Option Int
  | some (.number value) => some value
  | some (.text value) => (digitsValue (trim value)).map Int.ofNat
  | _ => none

def integer (minimum : Nat) : Except String Nat := do
  let parsed ← orThrow (numberOf value) (label ++ " must be an integer >= " ++ toString minimum)
  require ((minimum : Int) ≤ parsed ∧ isSafeInteger parsed.toNat = true)
    (label ++ " must be an integer >= " ++ toString minimum)
  pure parsed.toNat

def requiredText (maximum : Nat) : Except String String := do
  let text ← orThrow (printed value) (label ++ " must be text/number")
  require (trim text ≠ "" ∧ jsLength (trim text) ≤ maximum)
    (label ++ " must be non-empty and at most " ++ toString maximum ++ " characters")
  pure (trim text)

def optionalText (maximum : Nat) : Except String String :=
  match value with
  | none | some .null => pure ""
  | some json => do
    let text ← orThrow (printed (some json)) (label ++ " must be text/number when supplied")
    require (jsLength (trim text) ≤ maximum) (label ++ " is too long")
    pure (trim text)

def positiveIntegerOrNull : Except String (Option Nat) :=
  match value with
  | none | some .null | some (.text "") => pure none
  | some json => do
    let parsed ← integer (some json) label 0
    pure (if parsed = 0 then none else some parsed)

/-- `/^\d{4}-\d{2}-\d{2}$/u`. -/
def isDateText (text : String) : Bool :=
  match text.toList with
  | [y, y', y'', y''', dash, m, m', dash', d, d'] =>
    [y, y', y'', y''', m, m', d, d'].all Char.isDigit && dash == '-' && dash' == '-'
  | _ => false

/-- What the platform decides: which texts `Date.parse` reads, and which `URL` reads as the list endpoint
    without query and hash. -/
structure Platform where
  dateParses : String → Bool
  isListEndpoint : String → Bool

variable (platform : Platform)

def isoInstant : Except String String := do
  let normalized ← requiredText value label 128
  require (platform.dateParses normalized = true) (label ++ " must be ISO-8601")
  pure normalized

/-- The test of a calendar date. -/
def Platform.isDate (text : String) : Bool :=
  isDateText text && platform.dateParses (text ++ "T00:00:00Z")

def isoDateOrNull : Except String (Option String) :=
  match value with
  | some .null => pure none
  | _ => do
    let normalized ← requiredText value label 32
    require (platform.isDate normalized = true) (label ++ " must be YYYY-MM-DD or null")
    pure (some normalized)

end Fields

/-! ### Sessions -/

structure CnipaGazetteBrowserStreamSession where
  sessionId : String
  announcementIssue : Nat
  sourceUrl : String
  sourcePageSize : Nat
  sourceTotal : Nat
  sourcePages : Nat
  announcementDate : Option String
  capturedQuery : JsonRecord
  startedAt : String

/-- `Math.ceil(left / right)`. -/
def ceilDiv (left right : Nat) : Nat := (left + right - 1) / right

def FORBIDDEN_QUERY_KEYS : List String :=
  ["fecu", "cookie", "credential", "bearer", "token", "captcha", "sso"]

def isForbiddenQueryKey (key : String) : Bool :=
  FORBIDDEN_QUERY_KEYS.any fun word => decide (word.toList <:+: key.toList.map Char.toLower)

def ALLOWED_QUERY_KEYS : List String :=
  ["anncIssue", "anncType", "regNo", "tmName", "intlCls", "registerCnName", "coowner", "agentName",
    "tmType", "tmDescType", "startDate", "endDate", "pageIndex", "pageSize"]

def EMPTY_SCOPE_QUERY_KEYS : List String :=
  ["regNo", "tmName", "intlCls", "registerCnName", "coowner", "agentName", "tmType", "startDate",
    "endDate"]

def isText : Option Json → Bool
  | some (.text _) => true
  | _ => false

/-- `String(value ?? "").trim()`. -/
def scopeText (value : Option Json) : String := trim ((printed value).getD "")

def capturedQuery (value : Option Json) (announcementIssue : Nat) : Except String JsonRecord := do
  let query ← record value "capturedQuery"
  for (key, child) in query do
    require (isForbiddenQueryKey key = false)
      ("capturedQuery." ++ key ++ " is forbidden in durable browser-stream evidence")
    require (key ∈ ALLOWED_QUERY_KEYS)
      ("capturedQuery." ++ key ++ " is outside the frozen Gazette issue/ALL scope")
    require ((printed (some child)).isSome) ("capturedQuery." ++ key ++ " must be string/number")
  require (scopeText (query.lookup "anncIssue") = toString announcementIssue ∧
      isText (query.lookup "anncType") = true ∧ printed (query.lookup "anncType") = some "")
    "capturedQuery must target the session issue with announcement type ALL"
  for key in EMPTY_SCOPE_QUERY_KEYS do
    require (scopeText (query.lookup key) = "")
      ("capturedQuery." ++ key ++ " must be empty for full-issue Gazette acquisition")
  require (query.lookup "tmDescType" |>.all fun child => scopeText (some child) == "0")
    "capturedQuery.tmDescType must equal 0 when supplied"
  require (isText (query.lookup "pageIndex") = false ∧ numberOf (query.lookup "pageIndex") = some 1)
    "capturedQuery.pageIndex must equal 1"
  let pageSize ← integer (query.lookup "pageSize") "capturedQuery.pageSize" 1
  require (pageSize ≤ 100) "capturedQuery.pageSize must be between 1 and 100"
  pure query

structure BrowserStreamSessionInput where
  sessionId : String
  announcementIssue : Nat
  sourceUrl : String
  capturedQuery : Json
  sourceTotal : Nat
  sourcePages : Nat
  announcementDate : Option String
  startedAt : String

/-- `/^[A-Za-z0-9._:-]+$/u`. -/
def isSessionId (text : String) : Bool :=
  text.toList.all fun c => isAlnum c || c == '.' || c == '_' || c == ':' || c == '-'

def dateJson : Option String → Json
  | none => .null
  | some date => .text date

def createCnipaGazetteBrowserStreamSession (platform : Platform) (input : BrowserStreamSessionInput) :
    Except String CnipaGazetteBrowserStreamSession := do
  let sessionId ← requiredText (some (.text input.sessionId)) "sessionId" 128
  require (isSessionId sessionId = true) "sessionId contains unsupported characters"
  let announcementIssue ← integer (some (.number input.announcementIssue)) "announcementIssue" 1
  let query ← capturedQuery (some input.capturedQuery) announcementIssue
  let sourcePageSize ← integer (query.lookup "pageSize") "capturedQuery.pageSize" 1
  let sourceTotal ← integer (some (.number input.sourceTotal)) "sourceTotal" 0
  let sourcePages ← integer (some (.number input.sourcePages)) "sourcePages" 1
  require (sourcePages = max 1 (ceilDiv sourceTotal sourcePageSize))
    "sourcePages does not match sourceTotal/captured pageSize"
  let announcementDate ←
    isoDateOrNull (some (dateJson input.announcementDate)) "announcementDate" platform
  require (sourceTotal = 0 ∨ announcementDate ≠ none)
    "non-empty Gazette session requires announcementDate"
  let sourceUrl ← requiredText (some (.text input.sourceUrl)) "sourceUrl" 4096
  require (platform.isListEndpoint sourceUrl = true)
    "sourceUrl must be the canonical CNIPA Gazette LIST endpoint without query/hash"
  let startedAt ← isoInstant (some (.text input.startedAt)) "startedAt" platform
  pure
    { sessionId, announcementIssue, sourceUrl, sourcePageSize, sourceTotal, sourcePages
      announcementDate, capturedQuery := query, startedAt }

/-! ### Rows -/

structure CnipaGazetteRuntimeRow where
  sourceRowId : String
  sourceSearchId : String
  registrationNumber : String
  announcementIssue : Nat
  announcementTypeCode : String
  announcementTypeName : String
  detailPageNo : Option Nat
  announcementPageCount : Option Nat
  detailFileId : String
  detailAssetPath : String
  announcementDetailUrl : String
deriving DecidableEq

def normalizeRow (platform : Platform) (value : Json) (session : CnipaGazetteBrowserStreamSession)
    (pageIndex rowIndex : Nat) : Except String CnipaGazetteRuntimeRow := do
  let label := "page " ++ toString pageIndex ++ ".list[" ++ toString rowIndex ++ "]"
  let row ← record (some value) label
  let sourceRowId ← requiredText (row.lookup "id") (label ++ ".id") 256
  let sourceSearchId ← optionalText (row.lookup "searchId") (label ++ ".searchId") 256
  require (sourceSearchId = "" ∨ sourceSearchId = sourceRowId) (label ++ ".searchId does not match id")
  let rowIssue ← integer (row.lookup "anncIssue") (label ++ ".anncIssue") 1
  require (rowIssue = session.announcementIssue) (label ++ " belongs to issue " ++ toString rowIssue)
  let rowDate ← isoDateOrNull (row.lookup "anncDate") (label ++ ".anncDate") platform
  require (rowDate = session.announcementDate) (label ++ ".anncDate drifted from session")
  let registrationNumber ← requiredText (row.lookup "regNo") (label ++ ".regNo") 128
  let announcementTypeCode ← requiredText (row.lookup "anncType") (label ++ ".anncType") 128
  let announcementTypeName ← optionalText (row.lookup "anncTypeName") (label ++ ".anncTypeName") 512
  let detailPageNo ← positiveIntegerOrNull (row.lookup "pageNo") (label ++ ".pageNo")
  let announcementPageCount ← positiveIntegerOrNull (row.lookup "anncPageNum") (label ++ ".anncPageNum")
  let detailFileId ← optionalText (row.lookup "fileId") (label ++ ".fileId") 256
  let detailAssetPath ← optionalText (row.lookup "imgDir") (label ++ ".imgDir") 4096
  pure
    { sourceRowId, sourceSearchId, registrationNumber, announcementIssue := rowIssue
      announcementTypeCode, announcementTypeName, detailPageNo, announcementPageCount, detailFileId
      detailAssetPath, announcementDetailUrl := "" }

/-! ### Source pages -/

/-- The digests the program takes, of the canonical JSON of a value or of bytes. -/
structure Hashes where
  ofSession : CnipaGazetteBrowserStreamSession → Digest
  ofIds : List String → Digest
  ofBytes : List UInt8 → Digest

structure CnipaGazetteBrowserSourcePage where
  sessionId : String
  sourcePageIndex : Nat
  sourcePageSize : Nat
  sourceTotal : Nat
  sourcePages : Nat
  announcementDate : Option String
  observedAt : String
  pageSignatureSha256 : Digest
  rows : List CnipaGazetteRuntimeRow

/-- The business code of a response. -/
def businessCode : Option Json → Option Int
  | some (.number code) => some code
  | some (.text code) =>
    match (trim code).toList with
    | '-' :: digits => (digitsValue (String.ofList digits)).map fun n => -(n : Int)
    | _ => (digitsValue (trim code)).map Int.ofNat
  | _ => none

def arrayOf : Option Json → Option (List Json)
  | some (.array items) => some items
  | _ => none

/-- The number of rows of a source page. -/
def expectedRows (total size pages index : Nat) : Nat :=
  if total = 0 then 0 else if index < pages then size
  else if total % size = 0 then size else total % size

def parseCnipaGazetteBrowserSourcePage (platform : Platform) (hashes : Hashes)
    (session : CnipaGazetteBrowserStreamSession) (requestedPageIndex : Nat) (observedAt : String)
    (httpStatus : Nat) (payload : Json) : Except String CnipaGazetteBrowserSourcePage := do
  let requestedPageIndex ← integer (some (.number requestedPageIndex)) "requestedPageIndex" 1
  require (requestedPageIndex ≤ session.sourcePages) "requestedPageIndex exceeds session sourcePages"
  require (200 ≤ httpStatus ∧ httpStatus < 300)
    ("CNIPA Gazette LIST HTTP " ++ toString httpStatus)
  let envelope ← record (some payload) "response"
  let code ← orThrow (businessCode (envelope.lookup "code")) "response.code must be numeric"
  require (code ≠ 401) "CNIPA Gazette browser session expired"
  require (code = 0) ("CNIPA Gazette source returned business code " ++ toString code)
  let data ← record (envelope.lookup "data") "response.data"
  let list ← orThrow (arrayOf (data.lookup "list")) "response.data.list must be an array"
  let sourcePageIndex ← integer (data.lookup "pageIndex") "response.data.pageIndex" 1
  let sourcePageSize ← integer (data.lookup "pageSize") "response.data.pageSize" 1
  let sourceTotal ← integer (data.lookup "total") "response.data.total" 0
  let sourcePages ← integer (data.lookup "pages") "response.data.pages" 1
  require (sourcePageIndex = requestedPageIndex) "response pageIndex drifted"
  require (sourcePageSize = session.sourcePageSize) "response pageSize drifted"
  require (sourceTotal = session.sourceTotal ∧ sourcePages = session.sourcePages)
    "response total/pages drifted from browser-stream session"
  let expectedLength := expectedRows sourceTotal sourcePageSize sourcePages sourcePageIndex
  require (list.length = expectedLength)
    ("source page " ++ toString sourcePageIndex ++ " returned " ++ toString list.length ++
      " rows; expected " ++ toString expectedLength)
  let rows ← list.zipIdx.mapM fun (row, rowIndex) =>
    normalizeRow platform row session sourcePageIndex rowIndex
  let ids := rows.map (·.sourceRowId)
  require ids.Nodup
    ("source page " ++ toString sourcePageIndex ++ " contains duplicate official row ids")
  let observedAt ← isoInstant (some (.text observedAt)) "observedAt" platform
  pure
    { sessionId := session.sessionId, sourcePageIndex, sourcePageSize, sourceTotal, sourcePages
      announcementDate := session.announcementDate, observedAt
      pageSignatureSha256 := hashes.ofIds ids, rows }

end MarkorbitKnowledge.Gazette
