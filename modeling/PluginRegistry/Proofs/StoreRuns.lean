import PluginRegistry.Proofs.Results

namespace PluginRegistry
open Lib

variable {env : Env} {db : Db} {x : Outside}

structure Stores {α : Type} (w : Op α) (db : Db) (x : Outside) (db' : Db) (bucket : Bucket) :
    Prop where
  rows : (w.after (Session.start db x)).committed = db'
  refused : (w.after (Session.start db x)).rejected = false
  bucket : (w.after (Session.start db x)).outside.bucket = bucket
  zipFiles : (w.after (Session.start db x)).outside.zipFiles = x.zipFiles

theorem Ends.stores {α : Type} {w : Op α} {db' : Db} (h : Ends w db x db' false) :
    Stores w db x db' x.bucket :=
  ⟨h.rows, h.refused, congrArg Prod.fst h.files, congrArg Prod.snd h.files⟩

theorem Stores.of_ok {α : Type} {w : Op α} {a : α} {s : Session Db Outside}
    (h : w.run (Session.start db x) = .ok a s) (hr : s.rejected = false)
    (hz : s.outside.zipFiles = x.zipFiles) : Stores w db x s.committed s.outside.bucket := by
  have hs : w.after (Session.start db x) = s := Work.after_of_run (.inl ⟨a, h⟩)
  exact ⟨by rw [hs], by rw [hs, hr], by rw [hs], by rw [hs, hz]⟩

theorem Stores.of_error {α : Type} {w : Op α} {e : PyErr} {s : Session Db Outside}
    (h : w.run (Session.start db x) = .error e s) (hr : s.rejected = false)
    (hz : s.outside.zipFiles = x.zipFiles) : Stores w db x s.committed s.outside.bucket := by
  have hs : w.after (Session.start db x) = s := Work.after_of_run (.inr ⟨e, h⟩)
  exact ⟨by rw [hs], by rw [hs, hr], by rw [hs], by rw [hs, hz]⟩

theorem Stores.of_run {α : Type} {w w' : Op α} {db₁ db' : Db} {x₁ : Outside} {bucket : Bucket}
    (h : w.run (Session.start db x) = w'.run (Session.start db₁ x₁))
    (hz : x₁.zipFiles = x.zipFiles) (he : Stores w' db₁ x₁ db' bucket) :
    Stores w db x db' bucket := by
  have hs : w.after (Session.start db x) = w'.after (Session.start db₁ x₁) := by
    simp only [Work.after, h]
  exact ⟨by rw [hs]; exact he.rows, by rw [hs]; exact he.refused, by rw [hs]; exact he.bucket,
    by rw [hs]; exact he.zipFiles.trans hz⟩

def Db.afterCreate (db : Db) (env : Env) (metadata : PluginMetadata) (repoUrl : String) : Db :=
  if (db.plugins.first fun _ p => p.pluginKey = inferPluginKey env metadata.name).isSome then db
  else db.addPlugin (.new (inferPluginKey env metadata.name) metadata repoUrl)

theorem createPlugin_ends (h : db.Sound) (metadata : PluginMetadata) (repoUrl : String) :
    Ends (discard (createPlugin env metadata repoUrl)) db x (db.afterCreate env metadata repoUrl)
      false := by
  have hrun := Work.discard_run (createPlugin env metadata repoUrl) (Session.start db x)
  rw [createPlugin_run h] at hrun
  unfold Db.afterCreate
  by_cases hk : (db.plugins.first fun _ p => p.pluginKey = inferPluginKey env metadata.name).isSome
  · rw [if_pos hk] at hrun ⊢
    exact .of_error hrun rfl
  · rw [if_neg hk] at hrun ⊢
    cases hf : env.fault (.refresh .createPlugin) with
    | none =>
      rw [hf] at hrun
      exact .of_ok hrun rfl
    | some e =>
      rw [hf] at hrun
      exact .of_error hrun rfl

/-- What a manual upload learns before it stores anything: the plugin and the label. -/
def Db.uploadInputs (db : Db) (env : Env) (pluginId : PluginId) (metadata : PluginMetadata)
    (version : String) : Except PyErr (Plugin × String) :=
  match db.plugins.lookup pluginId with
  | none => .error (notFound "Plugin not found")
  | some plugin => match assertMetadataMatchesPlugin env metadata plugin with
    | .error e => .error e
    | .ok _ => .ok (plugin, if version.isEmpty then metadata.version else version)

def Db.manualKey (db : Db) (plugin : Plugin) (version : String) : String :=
  buildS3KeyWithLayout plugin version .manualUpload none db.config.s3Layout

def Db.manualVersion (db : Db) (now : Time) (pluginId : PluginId) (plugin : Plugin)
    (version : String) : PluginVersion :=
  .new now pluginId version (some (db.manualKey plugin version))
    (some (buildPublicUrlWithBase (db.manualKey plugin version) db.config.s3PublicUrl))
    .manualUpload none .success

theorem Db.uploadInputs_plugin {pluginId : PluginId} {metadata : PluginMetadata} {version : String}
    {plugin : Plugin} {label : String}
    (h : db.uploadInputs env pluginId metadata version = .ok (plugin, label)) :
    db.plugins.lookup pluginId = some plugin := by
  unfold Db.uploadInputs at h
  cases ha : db.plugins.lookup pluginId with
  | none =>
    rw [ha] at h
    cases h
  | some a =>
    rw [ha] at h
    dsimp only at h
    cases hm : assertMetadataMatchesPlugin env metadata a with
    | error e =>
      rw [hm] at h
      cases h
    | ok _ =>
      rw [hm] at h
      cases h
      rfl

theorem Db.Sound.manualVersion (h : db.Sound) {pluginId : PluginId} {plugin : Plugin}
    (ha : db.plugins.lookup pluginId = some plugin) (now : Time) (version : String) :
    (db.addVersion (db.manualVersion now pluginId plugin version)).Sound := by
  refine h.addVersion (by simp [Db.manualVersion, PluginVersion.new, ha]) ?_ rfl rfl
  rw [PluginVersion.hasArtifact, Bool.and_eq_true]
  exact ⟨truthy_s3Key .., truthy_publicUrl ..⟩

def Db.afterUpload (db : Db) (env : Env) (bucket : Bucket) (pluginId : PluginId)
    (metadata : PluginMetadata) (content : Blob) (version : String) : Db × Bucket :=
  match db.uploadInputs env pluginId metadata version, env.fault .uploadFile with
  | .ok (plugin, label), none =>
    (db.addVersion (db.manualVersion env.now pluginId plugin label),
      AList.insert (db.manualKey plugin label) content bucket)
  | _, _ => (db, bucket)

/-- The upload of a version as one run: the object is stored before the row is added. -/
theorem uploadVersion_run (env : Env) (x : Outside) (h : db.Sound) (pluginId : PluginId)
    (metadata : PluginMetadata) (content : Blob) (version : String) :
    (uploadVersion env pluginId metadata content version).run (Session.start db x) =
      match db.uploadInputs env pluginId metadata version with
      | .error e => .error e (Session.start db x)
      | .ok (plugin, label) => match env.fault .uploadFile with
        | some e => .error e (Session.start db x)
        | none => (call env (.refresh .createVersion)).run
            (Session.start (db.addVersion (db.manualVersion env.now pluginId plugin label))
              { x with bucket := AList.insert (db.manualKey plugin label) content x.bucket }) := by
  simp only [uploadVersion, Work.bind_run, Session.start, getPlugin_run h.constraints,
    Db.uploadInputs]
  cases ha : db.plugins.lookup pluginId with
  | none => rfl
  | some a =>
    simp only [Work.discard_run, createVersionFromUpload, Work.bind_run]
    cases hm : assertMetadataMatchesPlugin env metadata a with
    | error e => rfl
    | ok _ =>
      simp only [Work.lift_ok, runtimeConfig_run h.constraints, uploadFile_run]
      cases env.fault .uploadFile with
      | some e => rfl
      | none =>
        dsimp only
        rw [← Session.start, createVersion_run h pluginId _ _ _ _ _ (by simp [ha])
          ⟨truthy_s3Key .., truthy_publicUrl ..⟩]
        simp only [call_run]
        cases env.fault (.refresh .createVersion) <;> rfl

theorem uploadVersion_stores (h : db.Sound) (pluginId : PluginId) (metadata : PluginMetadata)
    (content : Blob) (version : String) :
    Stores (uploadVersion env pluginId metadata content version) db x
      (db.afterUpload env x.bucket pluginId metadata content version).1
      (db.afterUpload env x.bucket pluginId metadata content version).2 := by
  have hrun := uploadVersion_run env x h pluginId metadata content version
  unfold Db.afterUpload
  cases hi : db.uploadInputs env pluginId metadata version with
  | error e =>
    rw [hi] at hrun
    exact .of_error hrun rfl rfl
  | ok inputs =>
    rw [hi] at hrun
    dsimp only at hrun
    cases hf : env.fault .uploadFile with
    | some e =>
      rw [hf] at hrun
      exact .of_error hrun rfl rfl
    | none =>
      rw [hf] at hrun
      exact .of_run hrun rfl (call_ends _).stores

def Db.afterDeleteVersion (db : Db) (env : Env) (bucket : Bucket) (pluginId : PluginId)
    (versionId : VersionId) : Db × Bucket :=
  match (db.versions.lookup versionId).filter fun v => v.pluginId = pluginId with
  | none => (db, bucket)
  | some v =>
    let s3Key := v.s3Key.getD ""
    if env.fault (.deleteFile s3Key) = none then
      (db.deleteVersionRow versionId, AList.erase s3Key bucket)
    else (db, bucket)

theorem deleteVersion_stores (h : db.Sound) (pluginId : PluginId) (versionId : VersionId) :
    Stores (deleteVersion env pluginId versionId) db x
      (db.afterDeleteVersion env x.bucket pluginId versionId).1
      (db.afterDeleteVersion env x.bucket pluginId versionId).2 := by
  have hrun := deleteVersion_run env x h pluginId versionId
  unfold Db.afterDeleteVersion
  cases hv : (db.versions.lookup versionId).filter fun v => v.pluginId = pluginId with
  | none =>
    rw [hv] at hrun
    exact .of_error hrun rfl rfl
  | some v =>
    rw [hv] at hrun
    simp only [Session.start, deleteFile_run] at hrun ⊢
    cases hf : env.fault (.deleteFile (v.s3Key.getD "")) with
    | some e =>
      rw [hf] at hrun
      exact .of_error hrun rfl rfl
    | none =>
      rw [hf] at hrun
      exact .of_run hrun rfl (call_ends _).stores

/-- The rows and the bucket after a plugin has been deleted. An object that
cannot be deleted ends the operation before it touches a row. -/
def Db.afterDeletePlugin (db : Db) (env : Env) (bucket : Bucket) (pluginId : PluginId) :
    Db × Bucket :=
  if (db.plugins.lookup pluginId).isNone then (db, bucket)
  else
    let s3Keys := db.s3Keys pluginId
    let done := s3Keys.findSome? fun k => env.fault (.deleteFile k)
    (if done = none then db.withoutPlugin pluginId else db,
      bucket.without (env.deletedKeys s3Keys))

theorem deletePlugin_stores (h : db.Sound) (pluginId : PluginId) :
    Stores (deletePlugin env pluginId) db x
      (db.afterDeletePlugin env x.bucket pluginId).1
      (db.afterDeletePlugin env x.bucket pluginId).2 := by
  have hrun := deletePlugin_run env x h pluginId
  unfold Db.afterDeletePlugin
  cases ha : db.plugins.lookup pluginId with
  | none =>
    rw [ha] at hrun
    exact .of_error hrun rfl rfl
  | some a =>
    rw [ha] at hrun
    simp only [Option.isNone_some, Bool.false_eq_true, if_false]
    cases hf : (db.s3Keys pluginId).findSome? fun k => env.fault (.deleteFile k) with
    | some e =>
      rw [hf] at hrun
      exact .of_error hrun rfl rfl
    | none =>
      rw [hf] at hrun
      exact .of_run hrun rfl (call_ends _).stores

end PluginRegistry
