import PluginRegistry.Python.Sqlalchemy
import PluginRegistry.Services.PluginService
import PluginRegistry.Services.ZipUtils

namespace PluginRegistry
open Lib

abbrev TagId := Nat

structure PluginI18n where
  pluginId : PluginId
  locale : String
  data : Json

/-- The rows of the service, with the tags and the translations of its plugins.
All ids come from the one counter. -/
structure Catalog where
  rows : Db
  tags : Table TagId String
  pluginTags : List (PluginId × TagId)
  i18n : List PluginI18n

def Catalog.empty (config : RuntimeConfig) : Catalog :=
  ⟨.empty config, ∅, [], []⟩

/-- The constraints of `tags`, `plugin_tags` and `plugin_i18n`, and those of the
other tables. -/
structure Catalog.Constraints (c : Catalog) : Prop where
  rows : c.rows.Constraints
  tagNames : ∀ i a, c.tags.lookup i = some a → ∀ j b, c.tags.lookup j = some b → a = b → i = j
  pluginTags : c.pluginTags.Nodup
  tagged : ∀ e ∈ c.pluginTags,
    (c.rows.plugins.lookup e.1).isSome ∧ (c.tags.lookup e.2).isSome
  locales : (c.i18n.map fun t => (t.pluginId, t.locale)).Nodup
  translated : ∀ t ∈ c.i18n, (c.rows.plugins.lookup t.pluginId).isSome

instance Catalog.decidableConstraints (c : Catalog) : Decidable c.Constraints :=
  decidable_of_iff
    (c.rows.Constraints ∧
      (∀ i a, c.tags.lookup i = some a → ∀ j b, c.tags.lookup j = some b → a = b → i = j) ∧
      c.pluginTags.Nodup ∧
      (∀ e ∈ c.pluginTags, (c.rows.plugins.lookup e.1).isSome ∧ (c.tags.lookup e.2).isSome) ∧
      (c.i18n.map fun t => (t.pluginId, t.locale)).Nodup ∧
      ∀ t ∈ c.i18n, (c.rows.plugins.lookup t.pluginId).isSome)
    ⟨fun h => ⟨h.1, h.2.1, h.2.2.1, h.2.2.2.1, h.2.2.2.2.1, h.2.2.2.2.2⟩,
      fun h => ⟨h.1, h.2, h.3, h.4, h.5, h.6⟩⟩

instance : Schema PyErr Catalog where
  admits := Catalog.Constraints
  decidable := inferInstance
  refused := ⟨.integrityError, "constraint violated", 0⟩
  inactive := ⟨.pendingRollbackError, "session is not active", 0⟩

abbrev CatalogOp := Work PyErr Catalog Outside

namespace Catalog

/-- The tag that `existing` holds under a name. -/
def tagNamed (c : Catalog) (name : String) : Option TagId :=
  (c.tags.first fun _ tag => tag = name).map (·.1)

def addTag (c : Catalog) (name : String) : Catalog :=
  { c with
    rows := { c.rows with nextId := c.rows.nextId + 1 }
    tags := AList.insert c.rows.nextId name c.tags }

/-- The loop of `_ensure_tags`: the tag of each name, and the rows with the new ones. -/
def addTags (existing : String → Option TagId) : Catalog → List String → List TagId × Catalog
  | c, [] => ([], c)
  | c, name :: rest =>
    match existing name with
    | some tag => ((tag :: (c.addTags existing rest).1), (c.addTags existing rest).2)
    | none =>
      ((c.rows.nextId :: ((c.addTag name).addTags existing rest).1),
        ((c.addTag name).addTags existing rest).2)

def addPlugin (c : Catalog) (plugin : Plugin) (tags : List TagId) : Catalog :=
  { c with
    rows := c.rows.addPlugin plugin
    pluginTags := c.pluginTags ++ tags.map fun tag => (c.rows.nextId, tag) }

/-- `plugin.tags = tags`: the session inserts a row for each tag of the list that the
plugin has not had, and deletes those of the tags that are not in the list. -/
def setTags (c : Catalog) (pluginId : PluginId) (tags : List TagId) : Catalog :=
  { c with
    pluginTags := (c.pluginTags.filter fun e => e.1 ≠ pluginId || tags.contains e.2) ++
      (tags.filter fun tag => !c.pluginTags.contains (pluginId, tag)).map fun tag =>
        (pluginId, tag) }

def addTranslations (c : Catalog) (pluginId : PluginId) (i18n : JsonObject) : Catalog :=
  { c with i18n := c.i18n ++ i18n.map fun entry => ⟨pluginId, entry.1, entry.2⟩ }

end Catalog

structure UploadedMetadata where
  metadata : PluginMetadata
  tags : List String
  i18n : JsonObject

def textItems : Option Json → List String
  | some (.arr items) => items.filterMap fun item => match item with | .str s => some s | _ => none
  | _ => []

def mappingItems : Option Json → JsonObject
  | some (.obj fields) => fields
  | _ => []

def UploadedMetadata.modelValidate (data : JsonObject) : Except PyErr UploadedMetadata := do
  let metadata ← PluginMetadata.modelValidate data
  return ⟨metadata, textItems (data.get "tags"), mappingItems (data.get "i18n")⟩

/-- `_process_uploaded_zip`, with all that `create_plugin` reads of the metadata. -/
def uploadedMetadata (yaml : Yaml) (limits : UploadLimits) (archive : ZipArchive) :
    Except PyErr UploadedMetadata := do
  if limits.maxUploadBytes < archive.byteSize then
    throw ⟨.validationError, "Uploaded zip is too large", 413⟩
  else
    inspectZip limits archive
    let files ← safeUnzip archive
    let data ← loadMapping yaml (← files.read (← findMetadataYaml files))
    UploadedMetadata.modelValidate data

inductive UploadCall
  | process | selectPlugin | selectTags | flushTags | flushPlugin | refreshPlugin | commitPlugin
  | reloadPlugin | refreshAfterPlugin | readSettings | uploadFile | commitVersion | reloadVersion
  | refreshAfterVersion | enqueue
  deriving DecidableEq

abbrev UploadFaults := UploadCall → Option PyErr

structure PluginUpload where
  limits : UploadLimits
  archive : ZipArchive
  content : Blob

/-- The names that `_ensure_tags` looks for. -/
def tagNames (env : Env) (names : List String) : List String :=
  (names.filter fun name => !(strip name).isEmpty).map fun name => env.lower (strip name)

/-- A name that is not there yet and that the column of `tags` cannot hold. -/
def overlong (existing : String → Option TagId) (name : String) : Bool :=
  (existing name).isNone && 100 < name.length

def overlongError : PyErr :=
  ⟨.dataError, "value too long for type character varying(100)", 0⟩

/-- `db.add` for the names that have no tag. -/
def addTags (existing : String → Option TagId) (names : List String) : CatalogOp (List TagId) :=
  fun s =>
    .ok (s.pending.addTags existing names).1
      { s with pending := (s.pending.addTags existing names).2 }

/-- `db.add` of a plugin with its tags. -/
def addPlugin (plugin : Plugin) (tags : List TagId) : CatalogOp PluginId := fun s =>
  .ok s.pending.rows.nextId { s with pending := s.pending.addPlugin plugin tags }

/-- `db.add` of a version. -/
def addVersion (version : PluginVersion) : CatalogOp VersionId := fun s =>
  .ok s.pending.rows.nextId
    { s with pending := { s.pending with rows := s.pending.rows.addVersion version } }

section
variable (env : Env) (faults : UploadFaults)

def ensureTags (names : List String) : CatalogOp (List TagId) := do
  if (tagNames env names).isEmpty then return []
  else
    Work.raiseAny (faults .selectTags)
    Work.refuse ((tagNames env names).any hasNul) nulError
    let existing ← Work.query fun c => c.tagNamed
    let tags ← addTags existing (tagNames env names)
    Work.raiseAny (faults .flushTags)
    Work.refuse ((tagNames env names).any (overlong existing)) overlongError
    Work.flush
    return tags

/-- `create_plugin` up to its commit: the id and the row of the new plugin. -/
def createPluginRows (m : UploadedMetadata) (repoUrl : String) :
    CatalogOp (PluginId × Plugin) := do
  let pluginKey := inferPluginKey env m.metadata.name
  Work.raiseAny (faults .selectPlugin)
  let existing ← Work.query fun c => c.rows.plugins.first fun _ p => p.pluginKey = pluginKey
  Work.refuse existing.isSome (conflict ("Plugin key already exists: " ++ pluginKey))
  let plugin := Plugin.new pluginKey m.metadata repoUrl
  let tags ← ensureTags env faults m.tags
  let pluginId ← addPlugin plugin tags
  Work.raiseAny (faults .flushPlugin)
  Work.flush
  Work.raiseAny (faults .refreshPlugin)
  Work.change (·.addTranslations pluginId m.i18n)
  Work.raiseAny (faults .commitPlugin)
  Work.commit
  return (pluginId, plugin)

def createPluginUnder (m : UploadedMetadata) (repoUrl : String) :
    CatalogOp (PluginId × Plugin) := do
  let created ← createPluginRows env faults m repoUrl
  Work.raiseAny (faults .reloadPlugin)
  Work.raiseAny (faults .refreshAfterPlugin)
  return created

/-- The turn of the loop of `update_plugin` for the tags. -/
def updateTags (pluginId : PluginId) (names : List String) : CatalogOp Unit := do
  Work.raiseAny (faults .refreshPlugin)
  let plugin ← Work.query fun c => c.rows.plugins.lookup pluginId
  Work.refuse plugin.isNone ⟨.invalidRequestError, "Could not refresh instance", 0⟩
  let tags ← ensureTags env faults names
  Work.change (·.setTags pluginId tags)

/-- The loop of `update_plugin`. The other fields of `PluginUpdate` are columns that
nothing reads here. -/
def updateFields (pluginId : PluginId) : Option (List String) → CatalogOp Unit
  | none => pure ()
  | some names => updateTags env faults pluginId names

def updatePluginUnder (pluginId : PluginId) (tags : Option (List String)) : CatalogOp Unit := do
  updateFields env faults pluginId tags
  Work.raiseAny (faults .commitPlugin)
  Work.commit
  Work.raiseAny (faults .reloadPlugin)
  Work.raiseAny (faults .refreshAfterPlugin)

/-- `create_version_from_upload`. -/
def createVersionFromUploadUnder (pluginId : PluginId) (plugin : Plugin)
    (metadata : PluginMetadata) (content : Blob) (version : String) : CatalogOp VersionId := do
  Work.lift (assertMetadataMatchesPlugin env metadata plugin)
  Work.raiseAny (faults .readSettings)
  let cfg ← Work.query (·.rows.config)
  let s3Key := buildS3KeyWithLayout plugin version .manualUpload none cfg.s3Layout
  Work.raiseAny (faults .uploadFile)
  Work.emit fun x => { x with bucket := AList.insert s3Key content x.bucket }
  let versionId ← addVersion (.new env.now pluginId version (some s3Key)
    (some (buildPublicUrlWithBase s3Key cfg.s3PublicUrl)) .manualUpload none .success)
  Work.raiseAny (faults .commitVersion)
  Work.commit
  Work.raiseAny (faults .reloadVersion)
  Work.raiseAny (faults .refreshAfterVersion)
  return versionId

def uploadPlugin (yaml : Yaml) (upload : PluginUpload) : CatalogOp Unit := do
  Work.raiseAny (faults .process)
  let m ← Work.lift (uploadedMetadata yaml upload.limits upload.archive)
  let (pluginId, plugin) ← createPluginUnder env faults m (m.metadata.repo.getD "")
  let versionId ← createVersionFromUploadUnder env faults pluginId plugin m.metadata
    upload.content m.metadata.version
  Work.raiseAny (faults .enqueue)
  Work.when env.redis do
    Work.emit fun x => { x with tasks := x.tasks ++ [⟨"scan", versionId, 0⟩] }

end

end PluginRegistry
