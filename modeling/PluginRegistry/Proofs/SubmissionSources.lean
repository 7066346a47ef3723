import PluginRegistry.Proofs.SubmittedBuilds

namespace PluginRegistry
open Lib

variable {db : Db} {x : Outside} {settings : GitSettings} {yaml : Yaml} {request : SubmitRequest}
  {first second : Moment} {metadata : PluginMetadata} {repoUrl : String}

/-- The first clone of a submission goes through: its normalised URL, and the
metadata found there. -/
structure FirstClone (settings : GitSettings) (yaml : Yaml) (hosts : GitHosts)
    (request : SubmitRequest) (repoUrl : String) (metadata : PluginMetadata) : Prop where
  provider : getGitProviderForUrl settings request.repoUrl = .ok ()
  normalized : ∃ normalized, normalizeUrl settings request.repoUrl = .ok normalized ∧
    normalized.repoUrl = repoUrl
  metadata : ∃ clone, cloneRepo settings hosts repoUrl request.ref = .ok clone ∧
    clone.metadata yaml = .ok metadata

structure SubmitTarget where
  db : Db
  pluginId : PluginId
  plugin : Plugin

def Db.pluginFor (db : Db) (env : Env) (metadata : PluginMetadata) : Option (PluginId × Plugin) :=
  db.plugins.first fun _ p => p.pluginKey = inferPluginKey env metadata.name

def Db.submitTarget (db : Db) (env : Env) (metadata : PluginMetadata) (repoUrl : String) :
    Except PyErr SubmitTarget :=
  match db.pluginFor env metadata with
  | none =>
    let plugin := .new (inferPluginKey env metadata.name) metadata repoUrl
    .ok ⟨db.addPlugin plugin, db.nextId, plugin⟩
  | some (pluginId, plugin) =>
    (assertMetadataMatchesPlugin env metadata plugin).map fun _ => ⟨db, pluginId, plugin⟩

theorem submitTarget_sound (h : db.Sound) {env : Env} {target : SubmitTarget}
    (ht : db.submitTarget env metadata repoUrl = .ok target) :
    target.db.Sound ∧ (target.db.plugins.lookup target.pluginId).isSome := by
  unfold Db.submitTarget at ht
  cases hp : db.pluginFor env metadata with
  | none =>
    rw [hp] at ht
    cases ht
    refine ⟨h.addPlugin fun p b hb hkey => ?_, by simp [Db.addPlugin]⟩
    exact absurd hkey (of_decide_eq_false (Table.first_none.mp hp p b hb))
  | some found =>
    obtain ⟨pluginId, plugin⟩ := found
    rw [hp] at ht
    dsimp only at ht
    cases hm : assertMetadataMatchesPlugin env metadata plugin with
    | error e =>
      rw [hm] at ht
      cases ht
    | ok _ =>
      rw [hm] at ht
      cases ht
      exact ⟨h, by rw [(Table.first_some hp).1]; rfl⟩

/-- The plugin of a submission: the one under its key, or a new one. -/
theorem submittedPlugin_run (h : db.Sound) (env : Env) (metadata : PluginMetadata)
    (repoUrl : String) :
    (submittedPlugin env metadata repoUrl).run (Session.start db x) =
      match db.submitTarget env metadata repoUrl with
      | .error e => .error e (Session.start db x)
      | .ok target =>
        match if (db.pluginFor env metadata).isSome then none
          else env.fault (.refresh .createPlugin) with
        | none => .ok (target.pluginId, target.plugin) (Session.start target.db x)
        | some e => .error e (Session.start target.db x) := by
  have hread : (getPluginByKey (inferPluginKey env metadata.name)).run (Session.start db x) =
      .ok (db.pluginFor env metadata) (Session.start db x) :=
    query_run _ h.constraints
  unfold Db.submitTarget
  rw [submittedPlugin, Work.bind_run, hread]
  cases hp : db.pluginFor env metadata with
  | none =>
    have hfirst : (db.plugins.first fun _ p =>
        p.pluginKey = inferPluginKey env metadata.name) = none := hp
    simp only [Work.bind_run, createPlugin_run h, hfirst, Option.isSome_none, Bool.false_eq_true,
      if_false]
    cases env.fault (.refresh .createPlugin) <;> rfl
  | some found =>
    obtain ⟨pluginId, plugin⟩ := found
    simp only [Option.isSome_some, if_true, Work.bind_run]
    cases assertMetadataMatchesPlugin env metadata plugin <;> rfl

theorem submittedPlugin_ok (h : db.Sound) {env : Env} {found : PluginId × Plugin}
    {s : Session Db Outside}
    (hrun : (submittedPlugin env metadata repoUrl).run (Session.start db x) = .ok found s) :
    ∃ target, db.submitTarget env metadata repoUrl = .ok target ∧
      found = (target.pluginId, target.plugin) ∧ s = Session.start target.db x := by
  rw [submittedPlugin_run h] at hrun
  cases ht : db.submitTarget env metadata repoUrl with
  | error e =>
    rw [ht] at hrun
    cases hrun
  | ok target =>
    rw [ht] at hrun
    dsimp only at hrun
    cases hf : (if (db.pluginFor env metadata).isSome then none
        else env.fault (.refresh .createPlugin)) with
    | some e =>
      rw [hf] at hrun
      cases hrun
    | none =>
      rw [hf] at hrun
      cases hrun
      exact ⟨target, rfl, rfl, rfl⟩

structure Opened (settings : GitSettings) (yaml : Yaml) (db : Db) (first : Moment)
    (request : SubmitRequest) (repoUrl : String) (metadata : PluginMetadata)
    (target : SubmitTarget) : Prop where
  clone : FirstClone settings yaml first.hosts request repoUrl metadata
  target : db.submitTarget first.env metadata repoUrl = .ok target

theorem openSubmission_ok (h : db.Sound) {result : PluginId × Plugin × String}
    {s : Session Db Outside}
    (hrun : (openSubmission settings yaml first request).run (Session.start db x) =
      .ok result s) :
    ∃ repoUrl metadata target, Opened settings yaml db first request repoUrl metadata target ∧
      result = (target.pluginId, target.plugin, request.versionFor metadata) ∧
      s = Session.start target.db x := by
  have hcfg : runtimeConfig.run (Session.start db x) = .ok db.config (Session.start db x) :=
    runtimeConfig_run h.constraints
  obtain ⟨cfg, s₁, h₁, hrun⟩ := Work.bind_ok hrun
  rw [hcfg] at h₁
  cases h₁
  obtain ⟨_, s₂, h₂, hrun⟩ := Work.bind_ok hrun
  obtain ⟨hprovider, rfl⟩ := Work.of_lift_ok h₂
  obtain ⟨normalized, s₃, h₃, hrun⟩ := Work.bind_ok hrun
  obtain ⟨hnormal, rfl⟩ := Work.of_lift_ok h₃
  obtain ⟨_, s₄, h₄, hrun⟩ := Work.bind_ok hrun
  obtain rfl := of_call_ok h₄
  obtain ⟨_, s₅, h₅, hrun⟩ := Work.bind_ok hrun
  obtain rfl := of_call_ok h₅
  obtain ⟨clone, s₆, h₆, hrun⟩ := Work.bind_ok hrun
  obtain ⟨hclone, rfl⟩ := Work.of_lift_ok h₆
  obtain ⟨metadata, s₇, h₇, hrun⟩ := Work.bind_ok hrun
  obtain ⟨hm, rfl⟩ := Work.of_lift_ok h₇
  obtain ⟨found, s₈, h₈, hrun⟩ := Work.bind_ok hrun
  obtain ⟨target, ht, rfl, rfl⟩ := submittedPlugin_ok h h₈
  cases hrun
  exact ⟨normalized.repoUrl, metadata, target,
    ⟨⟨hprovider, ⟨normalized, hnormal, rfl⟩, ⟨clone, hclone, hm⟩⟩, ht⟩, rfl, rfl⟩

/-- With no failure outside, a submission comes to its build. -/
theorem openSubmission_smooth (h : db.Sound) (hfaults : ∀ site, first.env.fault site = none)
    {target : SubmitTarget}
    (ho : Opened settings yaml db first request repoUrl metadata target) :
    (openSubmission settings yaml first request).run (Session.start db x) =
      .ok (target.pluginId, target.plugin, request.versionFor metadata)
        (Session.start target.db x) := by
  have hcfg : runtimeConfig.run (Session.start db x) = .ok db.config (Session.start db x) :=
    runtimeConfig_run h.constraints
  obtain ⟨⟨hprovider, ⟨normalized, hnormal, rfl⟩, clone, hclone, hm⟩, ht⟩ := ho
  simp only [openSubmission, Work.bind_run, hcfg, hprovider, hnormal, Work.lift_ok, call_run,
    hfaults, hclone, hm, submittedPlugin_run h, ht, ite_self]
  rfl

/-- A submission that returns has built the plugin of its target. -/
theorem submitRepo_ok (h : db.Sound) {versionId : VersionId}
    (hok : ((submitRepo settings yaml first second request).perform db x).outcome =
      .ok versionId) :
    ∃ repoUrl metadata target, Opened settings yaml db first request repoUrl metadata target ∧
      (submitRepo settings yaml first second request).perform db x =
        (buildFromClone settings yaml second target.pluginId target.plugin
          (some (request.versionFor metadata)) request.ref).perform target.db x := by
  cases hopen : (openSubmission settings yaml first request).run (Session.start db x) with
  | error e s =>
    simp only [Work.perform, submitRepo, Work.bind_run, hopen] at hok
    cases hok
  | ok result s =>
    obtain ⟨repoUrl, metadata, target, ho, rfl, rfl⟩ := openSubmission_ok h hopen
    refine ⟨repoUrl, metadata, target, ho, ?_⟩
    simp only [Work.perform, submitRepo, Work.bind_run, hopen]

theorem submitRepo_smooth (h : db.Sound) (hfaults : ∀ site, first.env.fault site = none)
    {target : SubmitTarget}
    (ho : Opened settings yaml db first request repoUrl metadata target) :
    (submitRepo settings yaml first second request).perform db x =
      (buildFromClone settings yaml second target.pluginId target.plugin
        (some (request.versionFor metadata)) request.ref).perform target.db x := by
  simp only [Work.perform, submitRepo, Work.bind_run, openSubmission_smooth h hfaults ho]

def GitSettings.calm (settings : GitSettings) : Env :=
  { Env.calm 0 with lower := settings.tables.lower }

theorem GitSettings.calm_fault (settings : GitSettings) (site : Site) :
    settings.calm.fault site = none := rfl

theorem GitSettings.calm_answers (settings : GitSettings) (p : Provider) :
    ∃ o, settings.calm.scanAnswer p = .ok o := ⟨_, rfl⟩

/-- If a submission returns, its version was built from a clone of the
repository that was submitted, at the ref that was submitted. -/
def BuiltAsSubmitted (settings : GitSettings) (yaml : Yaml) (db : Db) (later : GitHosts)
    (request : SubmitRequest) (report : Report PyErr Db Outside VersionId) : Prop :=
  ∀ versionId, report.outcome = .ok versionId → ∃ normalized clone version v,
    normalizeUrl settings request.repoUrl = .ok normalized ∧
      cloneRepo settings later normalized.repoUrl request.ref = .ok clone ∧
      BuiltFrom yaml db.config.maxReleaseZipBytes version report versionId v clone

/-- A plugin that already has the key of the submission is registered for the
submitted repository, unless no clone at all could be built for it. -/
def Db.RegisteredFor (db : Db) (settings : GitSettings) (yaml : Yaml) (hosts : GitHosts)
    (request : SubmitRequest) : Prop :=
  ∀ repoUrl metadata pluginId plugin, FirstClone settings yaml hosts request repoUrl metadata →
    db.pluginFor settings.calm metadata = some (pluginId, plugin) →
    assertMetadataMatchesPlugin settings.calm metadata plugin = .ok () →
    repoIdentity settings (plugin.repoUrl.getD "") = repoIdentity settings repoUrl ∨
      ∀ clone, ¬ Buildable settings yaml settings.calm db pluginId plugin
        (some (request.versionFor metadata)) clone

theorem pluginFor_congr {env env' : Env} (h : env.lower = env'.lower) (metadata : PluginMetadata) :
    db.pluginFor env metadata = db.pluginFor env' metadata := by
  simp only [Db.pluginFor, inferPluginKey, h]
  rfl

theorem Buildable.congr {env env' : Env} (h : env.lower = env'.lower) {pluginId : PluginId}
    {plugin : Plugin} {version : Option String} {clone : Clone}
    (hb : Buildable settings yaml env db pluginId plugin version clone) :
    Buildable settings yaml env' db pluginId plugin version clone := by
  obtain ⟨metadata, checkout, hprepare, hmatch, hfits⟩ := hb.packs
  rw [assertMetadata_congr h] at hmatch
  exact ⟨hb.repoUrl, hb.url, hb.commit, metadata, checkout, hprepare, hmatch, hfits⟩

/-- A clone depends on the repository that its URL names. -/
theorem cloneRepo_congr {url url' : String}
    (h : repoIdentity settings url = repoIdentity settings url') (hosts : GitHosts)
    (ref : Option String) : cloneRepo settings hosts url ref = cloneRepo settings hosts url' ref := by
  rw [cloneRepo, cloneRepo, h]

theorem normalizeUrl_ne_empty {url : String} {normalized : NormalizedRepo}
    (h : normalizeUrl settings url = .ok normalized) : normalized.repoUrl ≠ "" := by
  obtain ⟨parsed, -, h⟩ := except_bind_ok h
  split at h
  · cases h
  · split at h
    · obtain ⟨_, -, h⟩ := except_bind_ok h
      cases h
      intro hempty
      have hchars := congrArg String.toList hempty
      simp at hchars
    · cases h

theorem submitTarget_config {env : Env} {target : SubmitTarget}
    (ht : db.submitTarget env metadata repoUrl = .ok target) : target.db.config = db.config := by
  unfold Db.submitTarget at ht
  split at ht
  · cases ht
    rfl
  · rename_i plugin _
    cases hm : assertMetadataMatchesPlugin env metadata plugin with
    | error e =>
      rw [hm] at ht
      cases ht
    | ok _ =>
      rw [hm] at ht
      cases ht
      rfl

/-- The rows of a target and what its plugin is cloned from. -/
theorem submitTarget_cases {env : Env} {target : SubmitTarget}
    (ht : db.submitTarget env metadata repoUrl = .ok target) (hurl : repoUrl ≠ "") :
    (db.pluginFor env metadata = none ∧ target.plugin.repoUrl = some repoUrl) ∨
      (db.pluginFor env metadata = some (target.pluginId, target.plugin) ∧
        assertMetadataMatchesPlugin env metadata target.plugin = .ok () ∧ target.db = db) := by
  unfold Db.submitTarget at ht
  cases hp : db.pluginFor env metadata with
  | none =>
    rw [hp] at ht
    cases ht
    exact .inl ⟨rfl, by simp [Plugin.new, hurl]⟩
  | some found =>
    obtain ⟨pluginId, plugin⟩ := found
    rw [hp] at ht
    dsimp only at ht
    cases hm : assertMetadataMatchesPlugin env metadata plugin with
    | error e =>
      rw [hm] at ht
      cases ht
    | ok _ =>
      rw [hm] at ht
      cases ht
      exact .inr ⟨rfl, hm, rfl⟩

/-- A submission whose key is registered for the repository builds from it. -/
theorem registered_builds (h : db.Sound) (hyaml : yaml.RoundTrips)
    (hfirst : first.env.lower = settings.tables.lower)
    (hsecond : second.env.lower = settings.tables.lower)
    (hreg : db.RegisteredFor settings yaml first.hosts request) :
    BuiltAsSubmitted settings yaml db second.hosts request
      ((submitRepo settings yaml first second request).perform db x) := by
  intro versionId hok
  have hfirst' : first.env.lower = settings.calm.lower := hfirst
  have hsecond' : second.env.lower = settings.calm.lower := hsecond
  obtain ⟨repoUrl, metadata, target, ho, heq⟩ := submitRepo_ok h hok
  obtain ⟨hsound, hown⟩ := submitTarget_sound h ho.target
  rw [heq] at hok ⊢
  obtain ⟨clone, found, v, hclone, -, -, hbuildable, hbuilt⟩ :=
    buildFromClone_ok hsound hyaml hown hok
  rw [submitTarget_config ho.target] at hbuilt
  obtain ⟨normalized, hnormal, rfl⟩ := ho.clone.normalized
  refine ⟨normalized, clone, some (request.versionFor metadata), v, hnormal, ?_, hbuilt⟩
  rcases submitTarget_cases ho.target (normalizeUrl_ne_empty hnormal) with
    ⟨-, hrepo⟩ | ⟨hp, hmatch, hdb⟩
  · rw [hrepo] at hclone
    exact hclone
  · rw [pluginFor_congr hfirst'] at hp
    rw [assertMetadata_congr hfirst'] at hmatch
    rcases hreg _ _ _ _ ho.clone hp hmatch with hsame | hnone
    · rw [← hclone]
      exact (cloneRepo_congr hsame _ _).symm
    · rw [hdb] at hbuildable
      exact absurd (hbuildable.congr hsecond') (hnone clone)

/-- Where the key belongs to another repository, the build takes that one. -/
theorem unregistered_builds_other (h : db.Sound) {hosts : GitHosts} {pluginId : PluginId}
    {plugin : Plugin} {clone : Clone}
    (hfirst : FirstClone settings yaml hosts request repoUrl metadata)
    (hp : db.pluginFor settings.calm metadata = some (pluginId, plugin))
    (hmatch : assertMetadataMatchesPlugin settings.calm metadata plugin = .ok ())
    (hother : repoIdentity settings (plugin.repoUrl.getD "") ≠ repoIdentity settings repoUrl)
    (hb : Buildable settings yaml settings.calm db pluginId plugin
      (some (request.versionFor metadata)) clone) :
    ∃ later : GitHosts, ¬ BuiltAsSubmitted settings yaml db later request
      ((submitRepo settings yaml ⟨settings.calm, hosts⟩ ⟨settings.calm, later⟩ request).perform
        db x) := by
  have hurl : ∃ id, repoIdentity settings (plugin.repoUrl.getD "") = .ok id := by
    have hrefusal := hb.url
    unfold urlRefusal at hrefusal
    unfold repoIdentity
    cases hparse : parseGithubUrl settings (plugin.repoUrl.getD "") with
    | ok id => exact ⟨_, rfl⟩
    | error e =>
      rw [hparse] at hrefusal
      cases hprovider : getGitProviderForUrl settings (plugin.repoUrl.getD "") <;>
        rw [hprovider] at hrefusal <;> cases hrefusal
  obtain ⟨id, hid⟩ := hurl
  obtain ⟨later, hlater⟩ : ∃ later : GitHosts, ∀ repo ref, later repo ref =
      if repo = id then .ok clone else .error (gitError "repository not found") :=
    ⟨fun repo _ => if repo = id then .ok clone else .error (gitError "repository not found"),
      fun _ _ => rfl⟩
  refine ⟨later, fun hbuilt => ?_⟩
  have htarget : db.submitTarget settings.calm metadata repoUrl =
      .ok ⟨db, pluginId, plugin⟩ := by
    unfold Db.submitTarget
    rw [hp]
    dsimp only
    rw [hmatch]
    rfl
  have hclone : cloneRepo settings later (plugin.repoUrl.getD "") request.ref = .ok clone := by
    simp only [cloneRepo, hid, bind, Except.bind, hlater, if_true]
  have hopened : Opened settings yaml db ⟨settings.calm, hosts⟩ request repoUrl metadata
      ⟨db, pluginId, plugin⟩ := ⟨hfirst, htarget⟩
  obtain ⟨-, hown⟩ := submitTarget_sound h htarget
  have hrun : (submitRepo settings yaml ⟨settings.calm, hosts⟩ ⟨settings.calm, later⟩
      request).perform db x = (buildFromClone settings yaml ⟨settings.calm, later⟩ pluginId plugin
        (some (request.versionFor metadata)) request.ref).perform db x := by
    rw [submitRepo_smooth h settings.calm_fault hopened]
  obtain ⟨versionId, hok⟩ : ∃ versionId, ((buildFromClone settings yaml ⟨settings.calm, later⟩
      pluginId plugin (some (request.versionFor metadata)) request.ref).perform db x).outcome =
        .ok versionId :=
    buildFromClone_smooth h hown hclone hb settings.calm_fault settings.calm_answers
  rw [← hrun] at hok
  obtain ⟨normalized, found, -, -, hnormal, hfound, -⟩ := hbuilt versionId hok
  obtain ⟨normalized', hnormal', rfl⟩ := hfirst.normalized
  rw [hnormal] at hnormal'
  cases hnormal'
  obtain ⟨repo, hrepo, hgiven⟩ := except_bind_ok hfound
  have hne : repo ≠ id := by
    rintro rfl
    exact hother (hid.trans hrepo.symm)
  rw [hlater, if_neg hne] at hgiven
  cases hgiven

/-- A submission whose key belongs to a plugin is built from the repository that
was submitted exactly when the plugin is registered for it. -/
theorem submission_builds_submitted_iff (db : Db) (h : db.Sound) (x : Outside)
    (settings : GitSettings) (yaml : Yaml) (hyaml : yaml.RoundTrips) (hosts : GitHosts)
    (request : SubmitRequest) :
    (∀ (first second : Env) (later : GitHosts), first.lower = settings.tables.lower →
      second.lower = settings.tables.lower →
      BuiltAsSubmitted settings yaml db later request
        ((submitRepo settings yaml ⟨first, hosts⟩ ⟨second, later⟩ request).perform db x)) ↔
      db.RegisteredFor settings yaml hosts request := by
  constructor
  · intro hbuilt repoUrl metadata pluginId plugin hfirst hp hmatch
    by_contra hno
    rw [not_or, not_forall] at hno
    obtain ⟨hother, clone, hb⟩ := hno
    rw [not_not] at hb
    obtain ⟨later, hlater⟩ := unregistered_builds_other (x := x) h hfirst hp hmatch hother hb
    exact hlater (hbuilt _ _ later rfl rfl)
  · intro hreg first second later hfirst hsecond
    exact registered_builds h hyaml hfirst hsecond hreg

def demoSettings : GitSettings :=
  ⟨⟨asciiLower, fun _ => true, id⟩, ["github.com"]⟩

def CommitSha.one : CommitSha :=
  ⟨"1111111111111111111111111111111111111111", by decide⟩

def forkRequest : SubmitRequest :=
  ⟨"https://github.com/mallory/demo", none, none⟩

def forkHosts : GitHosts := fun repo _ =>
  if repo = ("mallory".toList, "demo".toList) then .ok (demoClone "1.0.0" .one)
  else .error (gitError "repository not found")

def registeredRun : List Event :=
  [.perform (.createPlugin .demo "https://github.com/alice/demo") (.calm 0)]

theorem forkRequest_first :
    FirstClone demoSettings demoYaml forkHosts forkRequest "https://github.com/mallory/demo"
      ⟨"demo", "alice", "1.0.0", none⟩ := by
  have hrepo : repoIdentity demoSettings "https://github.com/mallory/demo" =
      .ok ("mallory".toList, "demo".toList) := by
    decide
  refine ⟨by decide, ⟨⟨"https://github.com/mallory/demo", "mallory", "demo", none⟩,
    by decide, rfl⟩, demoClone "1.0.0" .one, ?_, demoClone_metadata "1.0.0" .one⟩
  simp only [cloneRepo, hrepo, bind, Except.bind, forkHosts, if_true]

/-- The plugin of a run that registered it can be built from its author's clone. -/
theorem registered_buildable {plugin : Plugin}
    (hrepo : plugin.repoUrl = some "https://github.com/alice/demo")
    (hkey : plugin.pluginKey = "demo") (hauthor : plugin.author = "alice") :
    Buildable demoSettings demoYaml demoSettings.calm (World.run .default registeredRun).db 0 plugin
      (some "1.0.0") (demoClone "1.0.0" .one) := by
  have hmatch : assertMetadataMatchesPlugin demoSettings.calm ⟨"demo", "alice", "1.0.0", none⟩
      plugin = .ok () := by
    simp only [assertMetadataMatchesPlugin, hkey, hauthor]
    decide
  have hprepare : (demoClone "1.0.0" .one).prepare demoYaml (some "1.0.0") =
      .ok (⟨"demo", "alice", "1.0.0", none⟩, demoCheckout "1.0.0") := by
    simp only [Clone.prepare, demoClone_metadata, bind, Except.bind, if_true]
    rfl
  refine ⟨by rw [hrepo]; rfl, by rw [hrepo]; decide, ⟨.one, rfl, by decide +kernel⟩, _, _,
    hprepare, hmatch, by decide⟩

theorem registered_plugin : ∃ plugin,
    (World.run .default registeredRun).db.pluginFor demoSettings.calm
      ⟨"demo", "alice", "1.0.0", none⟩ = some (0, plugin) ∧
    plugin.repoUrl = some "https://github.com/alice/demo" ∧ plugin.pluginKey = "demo" ∧
    plugin.author = "alice" := by
  obtain ⟨⟨pluginId, plugin⟩, hp, hfacts⟩ : ∃ found,
      (World.run .default registeredRun).db.pluginFor demoSettings.calm
        ⟨"demo", "alice", "1.0.0", none⟩ = some found ∧
      decide (found.1 = 0 ∧ found.2.repoUrl = some "https://github.com/alice/demo" ∧
        found.2.pluginKey = "demo" ∧ found.2.author = "alice") = true :=
    (Option.any_eq_true ..).mp (by decide)
  obtain ⟨rfl, hfacts⟩ := of_decide_eq_true hfacts
  exact ⟨plugin, hp, hfacts⟩

/-- A fork under a registered key is read for its metadata, and then the
registered repository is built. -/
theorem fork_builds_registered :
    ¬ ∀ (db : Db), db.Sound → ∀ (x : Outside) (settings : GitSettings) (yaml : Yaml),
      yaml.RoundTrips → ∀ (hosts : GitHosts) (request : SubmitRequest) (first second : Env)
        (later : GitHosts), first.lower = settings.tables.lower →
        second.lower = settings.tables.lower →
        BuiltAsSubmitted settings yaml db later request
          ((submitRepo settings yaml ⟨first, hosts⟩ ⟨second, later⟩ request).perform db x) := by
  intro h
  have hsound := reachable_sound (World.run_reachable .default registeredRun)
  obtain ⟨plugin, hp, hrepo, hkey, hauthor⟩ := registered_plugin
  have hb := registered_buildable hrepo hkey hauthor
  have hmatch : assertMetadataMatchesPlugin demoSettings.calm ⟨"demo", "alice", "1.0.0", none⟩
      plugin = .ok () := by
    simp only [assertMetadataMatchesPlugin, hkey, hauthor]
    decide
  have hother : repoIdentity demoSettings (plugin.repoUrl.getD "") ≠
      repoIdentity demoSettings "https://github.com/mallory/demo" := by
    rw [hrepo]
    decide
  obtain ⟨later, hlater⟩ := unregistered_builds_other
    (x := (World.run .default registeredRun).outside) hsound forkRequest_first hp hmatch hother hb
  exact hlater (h _ hsound _ _ _ demoYaml_roundTrips _ _ _ _ later rfl rfl)

theorem submission_builds_submitted_iff_fork :
    (World.run .default registeredRun).db.Sound ∧ demoYaml.RoundTrips ∧
      ((∀ (first second : Env) (later : GitHosts), first.lower = demoSettings.tables.lower →
        second.lower = demoSettings.tables.lower →
        BuiltAsSubmitted demoSettings demoYaml (World.run .default registeredRun).db later
          forkRequest ((submitRepo demoSettings demoYaml ⟨first, forkHosts⟩ ⟨second, later⟩
            forkRequest).perform (World.run .default registeredRun).db
              (World.run .default registeredRun).outside)) ↔
        (World.run .default registeredRun).db.RegisteredFor demoSettings demoYaml forkHosts
          forkRequest) :=
  have hsound := reachable_sound (World.run_reachable .default registeredRun)
  ⟨hsound, demoYaml_roundTrips, submission_builds_submitted_iff _ hsound _ _ _ demoYaml_roundTrips
    _ _⟩

end PluginRegistry
