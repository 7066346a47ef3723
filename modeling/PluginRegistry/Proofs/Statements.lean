import PluginRegistry.Services.BuildService

namespace PluginRegistry
open Lib

section
variable {env : Env} {p c : Db} {x : Outside} {r : Bool}

theorem commit_run (h : p.Constraints) :
    (Work.commit : Op Unit).run ⟨p, c, x, false, r⟩ = .ok () ⟨p, p, x, false, r⟩ :=
  Work.commit_run h

theorem flush_run (h : p.Constraints) :
    (Work.flush : Op Unit).run ⟨p, c, x, false, r⟩ = .ok () ⟨p, c, x, false, r⟩ :=
  Work.flush_run h

theorem query_run {α : Type} (f : Db → α) (h : p.Constraints) :
    (Work.query f : Op α).run ⟨p, c, x, false, r⟩ = .ok (f p) ⟨p, c, x, false, r⟩ :=
  Work.query_run f h

theorem getPlugin_run (h : p.Constraints) (id : PluginId) :
    (getPlugin id).run ⟨p, c, x, false, r⟩ = .ok (p.plugins.lookup id) ⟨p, c, x, false, r⟩ :=
  query_run _ h

theorem getVersion_run (h : p.Constraints) (id : VersionId) :
    (getVersion id).run ⟨p, c, x, false, r⟩ = .ok (p.versions.lookup id) ⟨p, c, x, false, r⟩ :=
  query_run _ h

theorem getVersionOf_run (h : p.Constraints) (pluginId : PluginId) (id : VersionId) :
    (getVersionOf pluginId id).run ⟨p, c, x, false, r⟩ =
      .ok ((p.versions.lookup id).filter fun v => v.pluginId = pluginId) ⟨p, c, x, false, r⟩ :=
  query_run _ h

theorem runtimeConfig_run (h : p.Constraints) :
    runtimeConfig.run ⟨p, c, x, false, r⟩ = .ok p.config ⟨p, c, x, false, r⟩ :=
  query_run _ h

theorem updateVersion_run (id : VersionId) (f : PluginVersion → PluginVersion) :
    (updateVersion id f).run ⟨p, c, x, false, r⟩ =
      .ok () ⟨p.modifyVersion id f, c, x, false, r⟩ := rfl

theorem updatePlugin_run (id : PluginId) (f : Plugin → Plugin) :
    (updatePlugin id f).run ⟨p, c, x, false, r⟩ =
      .ok () ⟨p.modifyPlugin id f, c, x, false, r⟩ := rfl

theorem execute_run (g : Db → Db) (h : p.Constraints) :
    (execute g).run ⟨p, c, x, false, r⟩ = .ok () ⟨g p, c, x, false, r⟩ := by
  rw [execute, Work.bind_run, flush_run h]
  rfl

theorem add_run (insert : Db → Db) :
    (add insert).run ⟨p, c, x, false, r⟩ = .ok p.nextId ⟨insert p, c, x, false, r⟩ := rfl

theorem call_run (env : Env) (site : Site) (s : Session Db Outside) :
    (call env site).run s = match env.fault site with
      | none => .ok () s
      | some e => .error e s := by
  unfold call
  cases env.fault site <;> rfl

theorem of_call_ok {site : Site} {s t : Session Db Outside}
    (h : (call env site).run s = .ok () t) : t = s := by
  rw [call_run] at h
  cases hf : env.fault site with
  | none =>
    rw [hf] at h
    cases h
    rfl
  | some e =>
    rw [hf] at h
    cases h

theorem uploadFile_run (content : Blob) (s3Key : String) :
    (uploadFile env content s3Key).run ⟨p, c, x, false, r⟩ = match env.fault .uploadFile with
      | none => .ok () ⟨p, c, { x with bucket := AList.insert s3Key content x.bucket }, false, r⟩
      | some e => .error e ⟨p, c, x, false, r⟩ := by
  rw [uploadFile, Work.bind_run, call_run]
  cases env.fault .uploadFile <;> rfl

theorem deleteFile_run (s3Key : String) :
    (deleteFile env s3Key).run ⟨p, c, x, false, r⟩ =
      match env.fault (.deleteFile s3Key) with
      | none => .ok () ⟨p, c, { x with bucket := AList.erase s3Key x.bucket }, false, r⟩
      | some e => .error e ⟨p, c, x, false, r⟩ := by
  rw [deleteFile, Work.bind_run, call_run]
  cases env.fault (.deleteFile s3Key) <;> rfl

def Outside.queued (x : Outside) (env : Env) (task : QueuedTask) : Outside :=
  if env.redis then { x with tasks := x.tasks ++ [task] } else x

theorem enqueueTask_run (taskType : String) (versionId : VersionId) (delay : Time) :
    (enqueueTask env taskType versionId delay).run ⟨p, c, x, false, r⟩ =
      match env.fault .enqueueTask with
      | none => .ok () ⟨p, c, x.queued env ⟨taskType, versionId, delay⟩, false, r⟩
      | some e => .error e ⟨p, c, x, false, r⟩ := by
  rw [enqueueTask, Work.bind_run, call_run]
  cases env.fault .enqueueTask with
  | some e => rfl
  | none =>
    simp only [Work.when_run, Work.emit_run, Outside.queued]
    split <;> rfl

end

/-- Two writes to one row are one write. -/
theorem Db.modifyVersion_modifyVersion (db : Db) (id : VersionId)
    (f g : PluginVersion → PluginVersion) :
    (db.modifyVersion id f).modifyVersion id g = db.modifyVersion id (g ∘ f) := by
  simp only [Db.modifyVersion, Table.modify_modify]

end PluginRegistry
