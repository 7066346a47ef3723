import PluginRegistry.Proofs.BuildSteps

namespace PluginRegistry
open Lib

variable {env : Env} {db : Db} {x : Outside}

namespace Operation

def rows (env : Env) (db : Db) : Operation → Db
  | .createPlugin metadata repoUrl => db.afterCreate env metadata repoUrl
  | .setPluginStatus pluginId status reviewStatus =>
    db.afterPluginStatus pluginId status reviewStatus
  | .deletePlugin pluginId => (db.afterDeletePlugin env ∅ pluginId).1
  | .uploadVersion pluginId metadata content version =>
    (db.afterUpload env ∅ pluginId metadata content version).1
  | .deleteVersion pluginId versionId => (db.afterDeleteVersion env ∅ pluginId versionId).1
  | .setVersionStatus versionId status => db.afterVersionStatus versionId status
  | .setLatestVersion pluginId versionId => db.afterLatest pluginId versionId
  | .publishPluginVersion pluginId versionId reviewStatus =>
    db.afterPublish env.now pluginId versionId reviewStatus
  | .scanVersion versionId providers => db.scanResult env versionId providers
  | .markScanPending versionId providers => db.afterMarkPending env.now versionId providers
  | .markScanSkipped versionId providers => db.afterMarkSkipped env.now versionId providers
  | .pollVirustotalAnalysis versionId => db.pollResult env versionId
  | .setConfig config => { db with config }

def bucket (env : Env) (db : Db) (bucket : Bucket) : Operation → Bucket
  | .deletePlugin pluginId => (db.afterDeletePlugin env bucket pluginId).2
  | .uploadVersion pluginId metadata content version =>
    (db.afterUpload env bucket pluginId metadata content version).2
  | .deleteVersion pluginId versionId => (db.afterDeleteVersion env bucket pluginId versionId).2
  | _ => bucket

def refused (env : Env) (db : Db) : Operation → Bool
  | .scanVersion versionId providers => db.scanRefused env versionId providers
  | .pollVirustotalAnalysis versionId => db.pollRefused env versionId
  | _ => false

end Operation

theorem afterUpload_fst (b b' : Bucket) (pluginId : PluginId) (metadata : PluginMetadata)
    (content : Blob) (version : String) :
    (db.afterUpload env b pluginId metadata content version).1 =
      (db.afterUpload env b' pluginId metadata content version).1 := by
  unfold Db.afterUpload
  split <;> rfl

theorem afterDeleteVersion_fst (b b' : Bucket) (pluginId : PluginId) (versionId : VersionId) :
    (db.afterDeleteVersion env b pluginId versionId).1 =
      (db.afterDeleteVersion env b' pluginId versionId).1 := by
  unfold Db.afterDeleteVersion
  split
  · rfl
  · dsimp only
    split <;> rfl

theorem afterDeletePlugin_fst (b b' : Bucket) (pluginId : PluginId) :
    (db.afterDeletePlugin env b pluginId).1 = (db.afterDeletePlugin env b' pluginId).1 := by
  unfold Db.afterDeletePlugin
  split <;> rfl

/-- What an operation leaves, as its rows, its refusals, the bucket and the archives. -/
structure Performs (op : Operation) (env : Env) (db : Db) (x : Outside) : Prop where
  rows : (op.perform env db x).db = op.rows env db
  refused : (op.perform env db x).rejected = op.refused env db
  bucket : (op.perform env db x).outside.bucket = op.bucket env db x.bucket
  zipFiles : (op.perform env db x).outside.zipFiles = x.zipFiles

theorem Performs.of_ends {op : Operation} (hb : op.bucket env db x.bucket = x.bucket)
    (he : Ends (op.work env) db x (op.rows env db) (op.refused env db)) :
    Performs op env db x where
  rows := (Work.perform_db _ _ _).trans he.rows
  refused := (Work.perform_rejected _ _ _).trans he.refused
  bucket := by
    rw [hb, Operation.perform, Work.perform_outside]
    exact congrArg Prod.fst he.files
  zipFiles := by
    rw [Operation.perform, Work.perform_outside]
    exact congrArg Prod.snd he.files

theorem Performs.of_stores {op : Operation} {b : Bucket} (hr : op.refused env db = false)
    (hb : op.bucket env db x.bucket = b)
    (he : Stores (op.work env) db x (op.rows env db) b) : Performs op env db x where
  rows := (Work.perform_db _ _ _).trans he.rows
  refused := ((Work.perform_rejected _ _ _).trans he.refused).trans hr.symm
  bucket := by
    rw [hb, Operation.perform, Work.perform_outside]
    exact he.bucket
  zipFiles := by
    rw [Operation.perform, Work.perform_outside]
    exact he.zipFiles

/-- One equation for every operation. -/
theorem Operation.performs (env : Env) (x : Outside) (h : db.Sound) (op : Operation) :
    Performs op env db x := by
  cases op with
  | createPlugin metadata repoUrl => exact .of_ends rfl (createPlugin_ends h metadata repoUrl)
  | setPluginStatus pluginId status reviewStatus =>
    exact .of_ends rfl (setPluginStatus_ends h pluginId status reviewStatus)
  | deletePlugin pluginId =>
    refine .of_stores rfl rfl ?_
    rw [Operation.rows, afterDeletePlugin_fst ∅ x.bucket]
    exact deletePlugin_stores h pluginId
  | uploadVersion pluginId metadata content version =>
    refine .of_stores rfl rfl ?_
    rw [Operation.rows, afterUpload_fst ∅ x.bucket]
    exact uploadVersion_stores h pluginId metadata content version
  | deleteVersion pluginId versionId =>
    refine .of_stores rfl rfl ?_
    rw [Operation.rows, afterDeleteVersion_fst ∅ x.bucket]
    exact deleteVersion_stores h pluginId versionId
  | setVersionStatus versionId status =>
    exact .of_ends rfl (setVersionStatus_ends h versionId status)
  | setLatestVersion pluginId versionId =>
    exact .of_ends rfl (setLatestVersion_ends h pluginId versionId)
  | publishPluginVersion pluginId versionId reviewStatus =>
    exact .of_ends rfl (publishPluginVersion_ends h pluginId versionId reviewStatus)
  | scanVersion versionId providers => exact .of_ends rfl (scanVersion_ends h versionId providers)
  | markScanPending versionId providers =>
    exact .of_ends rfl (markScanPending_ends h versionId providers)
  | markScanSkipped versionId providers =>
    exact .of_ends rfl (markScanSkipped_ends h versionId providers)
  | pollVirustotalAnalysis versionId => exact .of_ends rfl (pollVirustotalAnalysis_ends h versionId)
  | setConfig config => exact .of_ends rfl (setConfig_ends h config)

namespace Db.Sound

theorem afterCreate (h : db.Sound) (metadata : PluginMetadata) (repoUrl : String) :
    (db.afterCreate env metadata repoUrl).Sound := by
  unfold Db.afterCreate
  split
  · exact h
  · rename_i hk
    refine h.addPlugin fun p b hp hkey => ?_
    rw [Option.not_isSome_iff_eq_none] at hk
    exact absurd hkey (of_decide_eq_false (Table.first_none.mp hk p b hp))

theorem afterPluginStatus (h : db.Sound) (pluginId : PluginId) (status : PluginStatus)
    (reviewStatus : Option ReviewStatus) :
    (db.afterPluginStatus pluginId status reviewStatus).Sound := by
  unfold Db.afterPluginStatus
  split
  · exact h.pluginStatusSet pluginId status reviewStatus
  · exact h

theorem afterVersionStatus (h : db.Sound) (versionId : VersionId) (status : VersionStatus) :
    (db.afterVersionStatus versionId status).Sound := by
  unfold Db.afterVersionStatus
  cases hv : db.versions.lookup versionId with
  | none => exact h
  | some v =>
    dsimp only
    split
    · exact h
    · rename_i hgo
      refine h.versionStatusSet fun hs w hw => ?_
      obtain rfl := Option.some.inj (hv.symm.trans hw)
      simpa [hs] using hgo

theorem afterLatest (h : db.Sound) (pluginId : PluginId) (versionId : VersionId) :
    (db.afterLatest pluginId versionId).Sound := by
  unfold Db.afterLatest
  split
  · rename_i hgo
    rw [Option.isNone_iff_eq_none] at hgo
    obtain ⟨a, v, ha, hs, hv, hown, hst, hp⟩ := Db.latestRefusal_eq_none.mp hgo
    exact h.latestSet ha hs hv hown hst hp
  · exact h

theorem afterPublish (h : db.Sound) (now : Time) (pluginId : PluginId) (versionId : VersionId)
    (reviewStatus : ReviewStatus) :
    (db.afterPublish now pluginId versionId reviewStatus).Sound := by
  unfold Db.afterPublish
  split
  · rename_i hgo
    rw [Option.isNone_iff_eq_none] at hgo
    obtain ⟨_, _, v, hv, hown, hp⟩ := Db.publishRefusal_eq_none.mp hgo
    exact h.published now reviewStatus hv hown hp
  · exact h

theorem afterMarkPending (h : db.Sound) (now : Time) (versionId : VersionId)
    (providers : Option (List String)) : (db.afterMarkPending now versionId providers).Sound := by
  unfold Db.afterMarkPending
  split
  · exact h.markedPending ..
  · exact h

theorem afterMarkSkipped (h : db.Sound) (now : Time) (versionId : VersionId)
    (providers : Option (List String)) : (db.afterMarkSkipped now versionId providers).Sound := by
  unfold Db.afterMarkSkipped
  split
  · exact h.markedSkipped ..
  · exact h

theorem scanResult (h : db.Sound) (versionId : VersionId) (providers : Option (List String)) :
    (db.scanResult env versionId providers).Sound := by
  unfold Db.scanResult
  split
  · rename_i selected v _ hv
    split
    · exact h.scanOpened env.now versionId v
    · rename_i outcomes _
      split
      · exact h.scanOpened env.now versionId v
      · rename_i hlate
        exact (h.scanned _ hv outcomes hlate).afterScan _ versionId outcomes
  · exact h

theorem afterPoll (h : db.Sound) (caller : Caller) (versionId : VersionId)
    (outcome : ScanOutcome) : (db.afterPoll env caller versionId outcome).Sound := by
  unfold Db.afterPoll
  split
  · exact h.autoPublished env.now versionId
  · exact h

theorem pollResult (h : db.Sound) (versionId : VersionId) :
    (db.pollResult env versionId).Sound := by
  unfold Db.pollResult
  cases hv : db.versions.lookup versionId with
  | none => exact h
  | some v =>
    dsimp only
    cases hd : v.pollDecision env db.config with
    | idle => exact h
    | failed e => exact h
    | complete o =>
      have ho := PluginVersion.complete_not_pending hd
      exact (h.polled _ hv o _ fun hc => ho hc.2).afterPoll ..
    | recorded o =>
      dsimp only
      split
      · exact h
      · rename_i hlate
        exact (h.polled _ hv o _ hlate).afterPoll ..

theorem afterUpload (h : db.Sound) (b : Bucket) (pluginId : PluginId) (metadata : PluginMetadata)
    (content : Blob) (version : String) :
    (db.afterUpload env b pluginId metadata content version).1.Sound := by
  unfold Db.afterUpload
  split
  · rename_i plugin label hi _
    exact h.manualVersion (Db.uploadInputs_plugin hi) env.now label
  · exact h

theorem afterDeleteVersion (h : db.Sound) (b : Bucket) (pluginId : PluginId)
    (versionId : VersionId) : (db.afterDeleteVersion env b pluginId versionId).1.Sound := by
  unfold Db.afterDeleteVersion
  split
  · exact h
  · dsimp only
    split
    · exact h.deleteVersionRow versionId
    · exact h

theorem afterDeletePlugin (h : db.Sound) (b : Bucket) (pluginId : PluginId) :
    (db.afterDeletePlugin env b pluginId).1.Sound := by
  unfold Db.afterDeletePlugin
  split
  · exact h
  · dsimp only
    split
    · exact h.withoutPlugin pluginId
    · exact h

/-- Every operation leaves sound rows. -/
theorem operation (h : db.Sound) (op : Operation) : (op.rows env db).Sound := by
  cases op with
  | createPlugin metadata repoUrl => exact h.afterCreate metadata repoUrl
  | setPluginStatus pluginId status reviewStatus =>
    exact h.afterPluginStatus pluginId status reviewStatus
  | deletePlugin pluginId => exact h.afterDeletePlugin ∅ pluginId
  | uploadVersion pluginId metadata content version =>
    exact h.afterUpload ∅ pluginId metadata content version
  | deleteVersion pluginId versionId => exact h.afterDeleteVersion ∅ pluginId versionId
  | setVersionStatus versionId status => exact h.afterVersionStatus versionId status
  | setLatestVersion pluginId versionId => exact h.afterLatest pluginId versionId
  | publishPluginVersion pluginId versionId reviewStatus =>
    exact h.afterPublish env.now pluginId versionId reviewStatus
  | scanVersion versionId providers => exact h.scanResult versionId providers
  | markScanPending versionId providers => exact h.afterMarkPending env.now versionId providers
  | markScanSkipped versionId providers => exact h.afterMarkSkipped env.now versionId providers
  | pollVirustotalAnalysis versionId => exact h.pollResult versionId
  | setConfig config => exact h.setConfig config

end Db.Sound

def BuildJob.rows (job : BuildJob) (env : Env) (db : Db) (x : Outside) : BuildStep → Db
  | .pack => (job.packError env).elim db (db.handled db job.versionId)
  | .upload => (job.uploadError env x).elim db (db.handled db job.versionId)
  | .update => job.updateRows env db
  | .scan => job.scanRows env db

def BuildJob.files (job : BuildJob) (env : Env) (x : Outside) :
    BuildStep → Bucket × Table String Blob
  | .pack => (job.packFiles env x).files
  | .upload => (job.uploadBucket env x, x.zipFiles)
  | .update | .scan => x.files

def BuildJob.ok (job : BuildJob) (env : Env) (db : Db) (x : Outside) : BuildStep → Bool
  | .pack => (job.packError env).isNone
  | .upload => (job.uploadError env x).isNone
  | .update => job.updateOk env db
  | .scan => false

theorem BuildJob.advances (env : Env) (x : Outside) (h : db.Sound) (job : BuildJob) (step : BuildStep) :
    ∃ ok refused, Advances (job.guarded env step) db x (job.rows env db x step)
      (job.files env x step) ok refused ∧ (step ≠ .scan → ok = job.ok env db x step) := by
  cases step with
  | pack => exact ⟨_, _, packStep_advances h, fun _ => rfl⟩
  | upload => exact ⟨_, _, uploadStep_advances h, fun _ => rfl⟩
  | update =>
    obtain ⟨refused, hadv⟩ := updateStep_advances env job x h
    exact ⟨_, refused, hadv, fun _ => rfl⟩
  | scan =>
    obtain ⟨ok, refused, hadv⟩ := scanStep_advances env job x h
    exact ⟨ok, refused, hadv, fun hne => absurd rfl hne⟩

theorem BuildJob.rows_sound (h : db.Sound) (job : BuildJob) (step : BuildStep) :
    (job.rows env db x step).Sound := by
  cases step with
  | pack =>
    unfold BuildJob.rows
    cases job.packError env with
    | none => exact h
    | some e => exact h.handled h job.versionId e
  | upload =>
    unfold BuildJob.rows
    cases job.uploadError env x with
    | none => exact h
    | some e => exact h.handled h job.versionId e
  | update => exact job.updateRows_sound h
  | scan => exact job.scanRows_sound h

namespace World

variable {w : World}

theorem perform_db (h : w.db.Sound) (op : Operation) (env : Env) :
    (w.perform op env).db = op.rows env w.db :=
  (op.performs _ _ h).rows

def started (w : World) (env : Env) (pluginId : PluginId) (plugin : Plugin)
    (inputs : String × CommitSha) : World :=
  { w with
    db := w.db.buildStarted env.now pluginId plugin inputs.1
    builds :=
      if (env.fault (.refresh .createVersion)).isNone then
        AList.insert w.db.nextId ⟨w.db.buildJob env pluginId plugin inputs, .pack⟩ w.builds
      else w.builds }

theorem startBuild_eq (h : w.db.Sound) (pluginId : PluginId) (version : Option String)
    (env : Env) :
    w.startBuild pluginId version env = match w.db.plugins.lookup pluginId with
      | none => w
      | some plugin => match w.db.buildInputs env pluginId plugin version with
        | .error _ => w
        | .ok inputs => w.started env pluginId plugin inputs := by
  unfold startBuild
  cases ha : w.db.plugins.lookup pluginId with
  | none => rfl
  | some plugin =>
    have hrun := startBuild_run env w.outside h plugin
      (by rw [ha]; rfl) version
    simp only [Work.perform, hrun]
    cases w.db.buildInputs env pluginId plugin version with
    | error e => rfl
    | ok inputs =>
      simp only [started]
      cases env.fault (.refresh .createVersion) <;> rfl

def buildsAfter (w : World) (db : Db) (versionId : VersionId) (build : Build) (ok : Bool) :
    Table VersionId Build :=
  match ok, build.next.next with
  | true, some next => AList.insert versionId ⟨build.job.after build.next db, next⟩ w.builds
  | _, _ => AList.erase versionId w.builds

def uploadedAfter (w : World) (env : Env) (versionId : VersionId) (build : Build) :
    Table VersionId Artifact :=
  match build.next, build.job.archive w.outside, env.fault .uploadFile with
  | .upload, some content, none =>
    AList.insert versionId ⟨build.job.s3Key, content⟩ w.uploaded
  | _, _, _ => w.uploaded

theorem advance_none {versionId : VersionId} (hb : w.builds.lookup versionId = none) (env : Env) :
    w.advance versionId env = w := by
  simp only [advance, hb]

theorem buildsAfter_eq {db : Db} {versionId : VersionId} {build : Build}
    {outcome : Except PyErr Unit} {ok : Bool} : (build.next ≠ .scan → outcome.isOk = ok) →
    (match outcome, build.next.next with
      | .ok _, some next => AList.insert versionId ⟨build.job.after build.next db, next⟩ w.builds
      | _, _ => AList.erase versionId w.builds) = w.buildsAfter db versionId build ok := by
  intro hok
  unfold buildsAfter
  cases hn : build.next with
  | scan => cases outcome <;> cases ok <;> rfl
  | pack =>
    rw [← hok (by simp [hn])]
    cases outcome <;> rfl
  | upload =>
    rw [← hok (by simp [hn])]
    cases outcome <;> rfl
  | update =>
    rw [← hok (by simp [hn])]
    cases outcome <;> rfl

theorem uploadedAfter_eq {versionId : VersionId} {build : Build} {outcome : Except PyErr Unit} :
    (build.next = .upload → outcome.isOk = (build.job.uploadError env w.outside).isNone) →
    (match outcome, build.next, w.outside.zipFiles.lookup build.job.zipPath with
      | .ok _, .upload, some content =>
        AList.insert versionId ⟨build.job.s3Key, content⟩ w.uploaded
      | _, _, _ => w.uploaded) = w.uploadedAfter env versionId build := by
  intro hok
  unfold uploadedAfter BuildJob.archive
  cases hn : build.next with
  | upload =>
    have ho := hok hn
    unfold BuildJob.uploadError BuildJob.archive at ho
    cases hz : w.outside.zipFiles.lookup build.job.zipPath with
    | none => cases outcome <;> rfl
    | some content =>
      rw [hz] at ho
      dsimp only at ho
      cases hf : env.fault .uploadFile with
      | none =>
        rw [hf] at ho
        cases outcome with
        | error e => cases ho
        | ok _ => rfl
      | some e =>
        rw [hf] at ho
        cases outcome with
        | error e => rfl
        | ok _ => cases ho
  | pack => cases outcome <;> rfl
  | update => cases outcome <;> rfl
  | scan => cases outcome <;> rfl

theorem advance_some (h : w.db.Sound) {versionId : VersionId} {build : Build}
    (hb : w.builds.lookup versionId = some build) (env : Env) :
    ∃ x', x'.files = build.job.files env w.outside build.next ∧
      w.advance versionId env =
        { db := build.job.rows env w.db w.outside build.next
          outside := x'
          builds := w.buildsAfter (build.job.rows env w.db w.outside build.next) versionId build
            (build.job.ok env w.db w.outside build.next)
          uploaded := w.uploadedAfter env versionId build } := by
  obtain ⟨ok, refused, hadv, hok⟩ :=
    build.job.advances env w.outside h build.next
  refine ⟨_, (congrArg Outside.files (Work.perform_outside ..)).trans hadv.files, ?_⟩
  have hrows := (Work.perform_db ..).trans hadv.rows
  have hout := hadv.ok
  unfold advance
  simp only [hb, World.mk.injEq, true_and]
  rw [hrows]
  refine ⟨rfl, buildsAfter_eq fun hne => hout.trans (hok hne), uploadedAfter_eq fun hn => ?_⟩
  rw [hout, hok (by simp [hn]), hn]
  rfl

/-- The invariant that every other module starts from. -/
theorem step_sound (h : w.db.Sound) (e : Event) : (w.step e).db.Sound := by
  cases e with
  | perform op env =>
    rw [step, perform_db h]
    exact h.operation op
  | startBuild pluginId version env =>
    rw [step, startBuild_eq h]
    cases ha : w.db.plugins.lookup pluginId with
    | none => exact h
    | some plugin =>
      dsimp only
      cases w.db.buildInputs env pluginId plugin version with
      | error e => exact h
      | ok inputs => exact h.buildStarted plugin (by rw [ha]; rfl) env.now inputs.1
  | advance versionId env =>
    rw [step]
    cases hb : w.builds.lookup versionId with
    | none =>
      rw [advance_none hb]
      exact h
    | some build =>
      obtain ⟨x', -, heq⟩ := advance_some h hb env
      rw [heq]
      exact build.job.rows_sound h build.next

end World

/-- The rows are sound in every state any run reaches. -/
theorem reachable_sound {config : RuntimeConfig} {w : World} (h : (service config).Reachable w) :
    w.db.Sound :=
  Machine.Reachable.induct (fun w => w.db.Sound) (Db.Sound.empty config)
    (fun _ e hs => World.step_sound hs e) h

end PluginRegistry
