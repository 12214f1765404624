import MarkorbitKnowledge.Contracts.Formats

/-!
# Schema v1: plans, sources and connectors

The three documents a dispatch snapshots into a run and its jobs, with the fields the execution
ledger, the worker registry, the scheduler and the execution repository read, and the validators
of the schema over those fields.
-/

namespace MarkorbitKnowledge.Contracts

inductive SourceType where
  | web | api | email | localFolder | database | github | rss | manualUpload
deriving DecidableEq

def SourceType.text : SourceType → String
  | .web => "WEB"
  | .api => "API"
  | .email => "EMAIL"
  | .localFolder => "LOCAL_FOLDER"
  | .database => "DATABASE"
  | .github => "GITHUB"
  | .rss => "RSS"
  | .manualUpload => "MANUAL_UPLOAD"

inductive SourceStatus where
  | draft | active | paused | error | archived
deriving DecidableEq

inductive JobType where
  | webDiscovery | webCrawl | pageUpdateCheck | apiCollection | emailImport | localFileScan
  | documentConversion | vaultExport | vaultImport | packageBuild
deriving DecidableEq

def JobType.text : JobType → String
  | .webDiscovery => "WEB_DISCOVERY"
  | .webCrawl => "WEB_CRAWL"
  | .pageUpdateCheck => "PAGE_UPDATE_CHECK"
  | .apiCollection => "API_COLLECTION"
  | .emailImport => "EMAIL_IMPORT"
  | .localFileScan => "LOCAL_FILE_SCAN"
  | .documentConversion => "DOCUMENT_CONVERSION"
  | .vaultExport => "VAULT_EXPORT"
  | .vaultImport => "VAULT_IMPORT"
  | .packageBuild => "PACKAGE_BUILD"

inductive ConnectorCapability where
  | testConnection | discover | preview | collect | checkUpdate | deepCrawl | renderJavascript
  | fetchAttachments | watch | import
deriving DecidableEq

inductive ConnectorStatus where
  | active | deprecated | disabled
deriving DecidableEq

inductive CollectionPlanStatus where
  | active | paused | archived
deriving DecidableEq

inductive CollectionPriority where
  | critical | high | normal | low
deriving DecidableEq

inductive ArtifactKind where
  | html | pdf | docx | xlsx | csv | json | xml | email | image | audio | video | text | markdown
  | other
deriving DecidableEq

inductive CollectionSchedule where
  | manual
  | interval (intervalSeconds : Nat)
  | cron (expression : String) (timezone : String)
  | changeWatch (pollIntervalSeconds : Nat)
deriving DecidableEq

/-- `schedule.mode`. -/
inductive ScheduleMode where
  | manual | interval | cron | changeWatch
deriving DecidableEq

def CollectionSchedule.mode : CollectionSchedule → ScheduleMode
  | .manual => .manual
  | .interval _ => .interval
  | .cron _ _ => .cron
  | .changeWatch _ => .changeWatch

/-- An exact connector version, the `connector` field of sources, jobs, leases and attempts. -/
structure ConnectorRef where
  connectorId : String
  version : String
deriving DecidableEq

structure RetryPolicy where
  maxAttempts : Nat
  backoffSeconds : Nat
deriving DecidableEq

structure CollectionPolicy where
  renderJavascript : Bool
  fetchAttachments : Bool
  rateLimitPerMinute : Nat
  retry : RetryPolicy
deriving DecidableEq

structure CollectionPlan where
  id : Id
  workspaceId : Id
  sourceId : Id
  status : CollectionPlanStatus
  schedule : CollectionSchedule
  priority : CollectionPriority
  policy : CollectionPolicy
  /-- `output.artifactKinds` -/
  artifactKinds : List ArtifactKind
  createdAt : Timestamp
  updatedAt : Timestamp
  extensions : Option Extensions
deriving DecidableEq

structure SourceDefinition where
  id : Id
  workspaceId : Id
  sourceType : SourceType
  status : SourceStatus
  connector : ConnectorRef
  canonicalUri : Option String
  /-- The `uri` of each entrypoint. -/
  entrypoints : List String
  createdAt : Timestamp
  updatedAt : Timestamp

structure ConnectorManifest where
  connectorId : String
  version : String
  sourceTypes : List SourceType
  capabilities : List ConnectorCapability
  supportedJobTypes : List JobType
  outputArtifactKinds : List ArtifactKind
  status : ConnectorStatus

/-! ### Validators -/

def ConnectorRef.isValid (connector : ConnectorRef) : Bool :=
  isSlug connector.connectorId && isSemver connector.version

/-- The number of words of `expression.trim().split(/\s+/)`. -/
def wordCount (expression : String) : Nat :=
  ((trim expression).toList.splitOnP isJsSpace).countP (fun word => !word.isEmpty)

def isCollectionSchedule : CollectionSchedule → Bool
  | .manual => true
  | .interval intervalSeconds => decide (0 < intervalSeconds)
  | .cron expression timezone => decide (5 ≤ wordCount expression) && decide (timezone ≠ "")
  | .changeWatch pollIntervalSeconds => decide (0 < pollIntervalSeconds)

def isCollectionPlan (plan : CollectionPlan) : Bool :=
  isCollectionSchedule plan.schedule && decide (0 < plan.policy.rateLimitPerMinute) &&
    decide (0 < plan.policy.retry.maxAttempts) && !plan.artifactKinds.isEmpty &&
    isRfc3339 plan.createdAt && isRfc3339 plan.updatedAt &&
    (plan.extensions.getD []).all fun member => isExtensionKey member.1

def isSourceDefinition (source : SourceDefinition) : Bool :=
  source.connector.isValid && source.canonicalUri.all isUri && !source.entrypoints.isEmpty &&
    source.entrypoints.all isUri && isRfc3339 source.createdAt && isRfc3339 source.updatedAt

def isConnectorManifest (connector : ConnectorManifest) : Bool :=
  isSlug connector.connectorId && isSemver connector.version && !connector.sourceTypes.isEmpty

end MarkorbitKnowledge.Contracts
