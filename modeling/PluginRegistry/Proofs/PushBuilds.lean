import PluginRegistry.Proofs.TagNames
import PluginRegistry.Services.Webhook

namespace PluginRegistry
open Lib

structure IsPush (payload : Json) (url ref : String) : Prop where
  fields : ∃ fields repository : JsonObject, payload = .obj fields ∧
    JsonObject.get fields "repository" = some (.obj repository) ∧
    JsonObject.get repository "html_url" = some (.str url) ∧
    JsonObject.get fields "ref" = some (.str ref)

structure Plain (payload : Json) (url ref : String) : Prop where
  url : url ≠ ""
  ref : headRef ref ≠ ""
  storable : payload.storable = true

section
variable (plugins : Table PluginId Plugin)

def Registered (url : String) : Prop :=
  ∃ id plugin, plugins.lookup id = some plugin ∧ plugin.repoUrl = some url

def SingleOwner (url : String) : Prop :=
  ∀ i p, plugins.lookup i = some p → ∀ j q, plugins.lookup j = some q →
    p.repoUrl = some url → q.repoUrl = some url → i = j

structure BuildsEach (autoVersion : String) (payload : Json) (url : String) : Prop where
  answers : (githubWebhook plugins autoVersion payload).answer.isOk = true
  once : ∀ id, ((githubWebhook plugins autoVersion payload).builds.countP
      fun build => build.pluginId = id) =
    if (plugins.lookup id).any (fun plugin => plugin.repoUrl = some url) then 1 else 0

end

section
variable {plugins : Table PluginId Plugin} {autoVersion url ref : String} {payload : Json}

theorem IsPush.read (h : IsPush payload url ref) :
    readPush payload = .ok (.str url, headRef ref) := by
  obtain ⟨fields, repository, rfl, hrepository, hurl, href⟩ := h.fields
  have hdict : (Json.obj fields).asDict = .ok fields := rfl
  have hinner : ((fields.get "repository").getD (.obj [])).asDict = .ok repository := by
    rw [hrepository]
    rfl
  have href' : ((fields.get "ref").getD (.str "")).asReplaceable = .ok ref := by
    rw [href]
    rfl
  unfold readPush
  rw [except_bind_eq hdict, except_bind_eq hinner, except_bind_eq href', hurl]
  rfl

/-- An answer without a build leaves out the plugin that has the URL. -/
theorem not_buildsEach (hown : Registered plugins url)
    (hnone : (githubWebhook plugins autoVersion payload).builds = []) :
    ¬BuildsEach plugins autoVersion payload url := by
  intro h
  obtain ⟨id, plugin, hid, hurl⟩ := hown
  have honce := h.once id
  rw [hnone, hid, Option.any_some, if_pos (by simpa using hurl)] at honce
  cases honce

theorem record_builds_nil {event : WebhookEvent} {builds : List BuildRequest} {answer : String}
    (h : builds = [] ∨ event.payload.storable = false) :
    (event.record builds answer).builds = [] := by
  unfold WebhookEvent.record
  split
  · rename_i hstorable
    rcases h with h | h
    · exact h
    · rw [h] at hstorable
      cases hstorable
  · rfl

/-- A push is built for exactly one plugin if it is built at all. -/
theorem buildPush_single {id : PluginId} {plugin : Plugin} (hid : plugins.lookup id = some plugin)
    (hurl : plugin.repoUrl = some url) (hsingle : SingleOwner plugins url) (branch : String) :
    buildPush plugins autoVersion payload url branch =
      WebhookEvent.record ⟨some id, payload, "success", none⟩ [⟨id, autoVersion, branch⟩]
        "queued" := by
  have hfound : scalarOneOrNone plugins (fun _ plugin => plugin.repoUrl = some url) =
      .ok (some (id, plugin)) :=
    scalarOneOrNone_some hid (by simpa using hurl) fun i p hi hp =>
      hsingle i p hi id plugin hid (by simpa using hp) hurl
  unfold buildPush
  rw [hfound]

theorem buildPush_several (h : ¬SingleOwner plugins url) (branch : String) :
    buildPush plugins autoVersion payload url branch = ⟨[], [], .error multipleResults⟩ := by
  simp only [SingleOwner, not_forall] at h
  obtain ⟨i, p, hi, j, q, hj, hp, hq, hne⟩ := h
  have hfound : scalarOneOrNone plugins (fun _ plugin => plugin.repoUrl = some url) =
      .error multipleResults :=
    scalarOneOrNone_error hi (by simpa using hp) hj (by simpa using hq) hne
  unfold buildPush
  rw [hfound]

/-- A push to the URL of some plugin is built exactly if it is plain and no other
plugin has the URL. -/
theorem buildsEach_iff (h : IsPush payload url ref) (hown : Registered plugins url) :
    BuildsEach plugins autoVersion payload url ↔
      Plain payload url ref ∧ SingleOwner plugins url := by
  have hrun : githubWebhook plugins autoVersion payload =
      if !(Json.str url).truthy || (headRef ref).isEmpty then
        WebhookEvent.record
          ⟨none, payload, "ignored", some "missing repository html_url or ref"⟩ [] "ignored"
      else buildPush plugins autoVersion payload url (headRef ref) := by
    unfold githubWebhook
    rw [h.read]
  by_cases hempty : url = "" ∨ headRef ref = ""
  · refine iff_of_false (not_buildsEach hown ?_) ?_
    · rw [hrun, if_pos (by simpa [Json.truthy] using hempty)]
      exact record_builds_nil (Or.inl rfl)
    · rintro ⟨hplain, -⟩
      rcases hempty with hurl | href
      · exact hplain.url hurl
      · exact hplain.ref href
  · rw [if_neg (by simpa [Json.truthy] using hempty)] at hrun
    obtain ⟨hurl, href⟩ := not_or.mp hempty
    by_cases hsingle : SingleOwner plugins url
    · obtain ⟨id, plugin, hid, hplugin⟩ := hown
      rw [buildPush_single hid hplugin hsingle] at hrun
      cases hstorable : payload.storable with
      | true =>
        refine iff_of_true ⟨?_, ?_⟩ ⟨⟨hurl, href, hstorable⟩, hsingle⟩
        · rw [hrun, WebhookEvent.record, if_pos hstorable]
          rfl
        · intro i
          rw [hrun, WebhookEvent.record, if_pos hstorable]
          by_cases hi : id = i
          · subst hi
            simp [hid, hplugin]
          · have hnone : ((plugins.lookup i).any fun p => p.repoUrl = some url) = false := by
              rw [Bool.eq_false_iff]
              intro hany
              obtain ⟨p, hp, hpurl⟩ := (Option.any_eq_true ..).mp hany
              exact hi (hsingle id plugin hid i p hp hplugin (of_decide_eq_true hpurl))
            simp [hi, hnone]
      | false =>
        refine iff_of_false (not_buildsEach ⟨id, plugin, hid, hplugin⟩ ?_) fun hc => ?_
        · rw [hrun]
          exact record_builds_nil (Or.inr hstorable)
        · cases hstorable.symm.trans hc.1.storable
    · rw [buildPush_several hsingle] at hrun
      refine iff_of_false (not_buildsEach hown ?_) fun hc => hsingle hc.2
      rw [hrun]

end

structure Db.KeepsRepos (db db' : Db) : Prop where
  rows : ∀ id p', db'.plugins.lookup id = some p' →
    ∃ p, db.plugins.lookup id = some p ∧ p'.repoUrl = p.repoUrl

section
variable {env : Env} {db mid db' : Db} {x : Outside} {versionId : VersionId}

namespace Db.KeepsRepos

theorem of_plugins (h : db'.plugins = db.plugins) : db.KeepsRepos db' := by
  refine ⟨fun id p hp => ⟨p, ?_, rfl⟩⟩
  rw [h] at hp
  exact hp

theorem refl (db : Db) : db.KeepsRepos db :=
  of_plugins rfl

theorem trans (h : db.KeepsRepos mid) (h' : mid.KeepsRepos db') : db.KeepsRepos db' := by
  refine ⟨fun id p'' hp'' => ?_⟩
  obtain ⟨p', hp', hto⟩ := h'.rows id p'' hp''
  obtain ⟨p, hp, hfrom⟩ := h.rows id p' hp'
  exact ⟨p, hp, hto.trans hfrom⟩

theorem rewritten {f : VersionId → PluginVersion → PluginVersion} {g : PluginId → Plugin → Plugin}
    (hw : db.Rewritten db' f g) (hg : ∀ id p, (g id p).repoUrl = p.repoUrl) :
    db.KeepsRepos db' := by
  refine ⟨fun id p' hp' => ?_⟩
  obtain ⟨p, hp, rfl⟩ := Option.map_eq_some_iff.mp (hw.plugins id ▸ hp')
  exact ⟨p, hp, hg id p⟩

theorem modifyVersion (db : Db) (versionId : VersionId) (f : PluginVersion → PluginVersion) :
    db.KeepsRepos (db.modifyVersion versionId f) :=
  of_plugins rfl

theorem published (db : Db) (now : Time) (pluginId : PluginId) (versionId : VersionId)
    (reviewStatus : ReviewStatus) :
    db.KeepsRepos (db.published now pluginId versionId reviewStatus) := by
  apply rewritten (Db.published_rewritten ..)
  intro id p
  split <;> rfl

theorem autoPublished (db : Db) (now : Time) (versionId : VersionId) :
    db.KeepsRepos (db.autoPublished now versionId) := by
  unfold Db.autoPublished
  split
  · exact refl db
  · split
    · exact published ..
    · exact refl db

theorem handled (hp : db.KeepsRepos mid) (hc : db.KeepsRepos db') (versionId : VersionId)
    (exc : PyErr) : db.KeepsRepos (mid.handled db' versionId exc) := by
  unfold Db.handled
  split
  · exact hc
  · split
    · exact hc
    · exact hp.trans (modifyVersion ..)

theorem scanOpened (db : Db) (now : Time) (versionId : VersionId) (v : PluginVersion) :
    db.KeepsRepos (db.scanOpened now versionId v) := by
  unfold Db.scanOpened
  split
  · exact modifyVersion ..
  · exact refl db

theorem afterScan (env : Env) (db : Db) (versionId : VersionId)
    (outcomes : List (Provider × ScanOutcome)) :
    db.KeepsRepos ((db.scanned env.now versionId outcomes).afterScan env versionId outcomes) := by
  have hscan : db.KeepsRepos (db.scanned env.now versionId outcomes) := modifyVersion ..
  unfold Db.afterScan
  split
  · exact hscan.trans (autoPublished ..)
  · exact hscan

theorem scanResult (env : Env) (db : Db) (versionId : VersionId)
    (providers : Option (List String)) :
    db.KeepsRepos (db.scanResult env versionId providers) := by
  unfold Db.scanResult
  split
  · split
    · exact scanOpened ..
    · split
      · exact scanOpened ..
      · exact afterScan ..
  · exact refl db

theorem pollResult (env : Env) (db : Db) (versionId : VersionId) :
    db.KeepsRepos (db.pollResult env versionId) := by
  have hpolled : ∀ o track caller, db.KeepsRepos
      ((db.polled env.now versionId o track).afterPoll env caller versionId o) := by
    intro o track caller
    have hpoll : db.KeepsRepos (db.polled env.now versionId o track) := modifyVersion ..
    unfold Db.afterPoll
    split
    · exact hpoll.trans (autoPublished ..)
    · exact hpoll
  unfold Db.pollResult
  split
  · exact refl db
  · split
    · exact refl db
    · exact refl db
    · exact hpolled ..
    · split
      · exact refl db
      · exact hpolled ..

/-- Every operation that adds no plugin. -/
theorem operation (env : Env) (db : Db) (op : Operation)
    (hop : ∀ metadata repoUrl, op ≠ .createPlugin metadata repoUrl) :
    db.KeepsRepos (op.rows env db) := by
  cases op with
  | createPlugin metadata repoUrl => exact absurd rfl (hop _ _)
  | setPluginStatus pluginId status reviewStatus =>
    rw [Operation.rows, Db.afterPluginStatus]
    split
    · apply rewritten (Db.pluginStatusSet_rewritten ..)
      intro id p
      split <;> rfl
    · exact refl db
  | deletePlugin pluginId =>
    rw [Operation.rows, Db.afterDeletePlugin]
    split
    · exact refl db
    · dsimp only
      split
      · refine ⟨fun id p hp => ?_⟩
        rw [Db.lookup_withoutPlugin_plugins] at hp
        split at hp
        · cases hp
        · exact ⟨p, hp, rfl⟩
      · exact refl db
  | uploadVersion pluginId metadata content version =>
    rw [Operation.rows, Db.afterUpload]
    split
    · exact of_plugins rfl
    · exact refl db
  | deleteVersion pluginId id =>
    rw [Operation.rows, Db.afterDeleteVersion]
    split
    · exact refl db
    · dsimp only
      split
      · exact of_plugins rfl
      · exact refl db
  | setVersionStatus id status =>
    rw [Operation.rows, Db.afterVersionStatus]
    split
    · exact refl db
    · split
      · exact refl db
      · exact rewritten (Db.versionStatusSet_rewritten ..) fun _ _ => rfl
  | setLatestVersion pluginId id =>
    rw [Operation.rows, Db.afterLatest]
    split
    · exact rewritten (Db.latestSet_rewritten ..) fun _ _ => rfl
    · exact refl db
  | publishPluginVersion pluginId id reviewStatus =>
    rw [Operation.rows, Db.afterPublish]
    split
    · exact published ..
    · exact refl db
  | scanVersion id providers => exact scanResult ..
  | markScanPending id providers =>
    rw [Operation.rows, Db.afterMarkPending]
    split
    · exact modifyVersion ..
    · exact refl db
  | markScanSkipped id providers =>
    rw [Operation.rows, Db.afterMarkSkipped]
    split
    · exact modifyVersion ..
    · exact refl db
  | pollVirustotalAnalysis id => exact pollResult ..
  | setConfig config => exact of_plugins rfl

theorem buildStep (env : Env) (db : Db) (x : Outside) (job : BuildJob) (step : BuildStep) :
    db.KeepsRepos (job.rows env db x step) := by
  have hself := refl db
  cases step with
  | pack =>
    unfold BuildJob.rows
    cases job.packError env with
    | none => exact hself
    | some e => exact hself.handled hself job.versionId e
  | upload =>
    unfold BuildJob.rows
    cases job.uploadError env x with
    | none => exact hself
    | some e => exact hself.handled hself job.versionId e
  | update =>
    have hbuilt : db.KeepsRepos (job.builtRows db) := modifyVersion ..
    rw [BuildJob.rows, BuildJob.updateRows]
    split
    · exact hself
    · cases env.fault (.refresh .updateVersionAfterBuild) with
      | none => exact hbuilt
      | some e => exact hbuilt.handled hbuilt job.versionId e
  | scan =>
    rw [BuildJob.rows, BuildJob.scanRows]
    cases db.versions.lookup job.versionId with
    | none => exact hself
    | some v =>
      have hsaved : db.KeepsRepos (db.scanOpened env.now job.versionId v) := scanOpened ..
      have hopen : db.KeepsRepos (db.modifyVersion job.versionId (·.beginScan env.now)) :=
        modifyVersion ..
      dsimp only
      cases scanSelectedProviders env db.config db.enabledProviders with
      | error e => exact hopen.handled hsaved job.versionId e
      | ok outcomes =>
        have hdone : db.KeepsRepos (db.scanned env.now job.versionId outcomes) :=
          modifyVersion ..
        have hafter := Db.afterBuildScan_keeps hdone (afterScan env db job.versionId outcomes)
        dsimp only
        split
        · exact hsaved
        · cases (db.scanned env.now job.versionId outcomes).afterBuildScanError env job
              outcomes with
          | none => exact hafter
          | some e => exact hafter.handled hafter job.versionId e

end Db.KeepsRepos

end

/-- The first clone of a submission: its normalised URL, and the metadata found there. -/
def firstClone (settings : GitSettings) (yaml : Yaml) (first : Moment)
    (request : SubmitRequest) : Except PyErr (String × PluginMetadata) := do
  getGitProviderForUrl settings request.repoUrl
  let normalized ← normalizeUrl settings request.repoUrl
  (first.env.fault .preflightRepoSize).elim (.ok ()) .error
  (first.env.fault .cloneRepo).elim (.ok ()) .error
  let clone ← cloneRepo settings first.hosts normalized.repoUrl request.ref
  let metadata ← clone.metadata yaml
  return (normalized.repoUrl, metadata)

def Db.withPlugin (db : Db) (env : Env) (metadata : PluginMetadata) (repoUrl : String) : Db :=
  if (db.pluginFor env metadata).isSome then db
  else db.addPlugin (.new (inferPluginKey env metadata.name) metadata repoUrl)

section
variable {db : Db} {x : Outside} {settings : GitSettings} {yaml : Yaml} {request : SubmitRequest}
  {first : Moment}

theorem submittedPlugin_committed (h : db.Sound) (env : Env) (metadata : PluginMetadata)
    (repoUrl : String) :
    ((submittedPlugin env metadata repoUrl).after (Session.start db x)).committed =
      db.withPlugin env metadata repoUrl := by
  unfold Work.after Db.withPlugin
  rw [submittedPlugin_run h]
  unfold Db.submitTarget
  cases hp : db.pluginFor env metadata with
  | none =>
    simp only [Option.isSome_none, Bool.false_eq_true, if_false]
    cases env.fault (.refresh .createPlugin) <;> rfl
  | some found =>
    simp only [Option.isSome_some, if_true]
    cases assertMetadataMatchesPlugin env metadata found.2 <;> rfl

theorem call_eq_lift (env : Env) (site : Site) :
    call env site = Work.lift ((env.fault site).elim (.ok ()) .error) := by
  unfold call
  cases env.fault site <;> rfl

/-- A submission is its first clone, and then its plugin. -/
theorem openSubmission_eq (settings : GitSettings) (yaml : Yaml) (first : Moment)
    (request : SubmitRequest) :
    openSubmission settings yaml first request = (do
      let _ ← runtimeConfig
      let (repoUrl, metadata) ← Work.lift (firstClone settings yaml first request)
      let (pluginId, plugin) ← submittedPlugin first.env metadata repoUrl
      return (pluginId, plugin, request.versionFor metadata)) := by
  simp only [openSubmission, firstClone, Work.lift_bind, call_eq_lift, bind_assoc]
  rfl

theorem openSubmission_db (h : db.Sound) :
    ((openSubmission settings yaml first request).perform db x).db =
      match firstClone settings yaml first request with
      | .error _ => db
      | .ok (repoUrl, metadata) => db.withPlugin first.env metadata repoUrl := by
  have hcfg : runtimeConfig.run (Session.start db x) = .ok db.config (Session.start db x) :=
    runtimeConfig_run h.constraints
  rw [Work.perform_db, openSubmission_eq, Work.after_bind_ok hcfg]
  cases hclone : firstClone settings yaml first request with
  | error e => rfl
  | ok found =>
    obtain ⟨repoUrl, metadata⟩ := found
    have hplugin := submittedPlugin_committed (x := x) h first.env metadata repoUrl
    rw [Work.after_bind_ok (Work.lift_ok ..)]
    dsimp only
    rw [← hplugin]
    unfold Work.after
    rw [Work.bind_run]
    cases (submittedPlugin first.env metadata repoUrl).run (Session.start db x) <;> rfl

end

structure PluginRequest where
  env : Env
  metadata : PluginMetadata
  repoUrl : String

def PluginRequest.url (r : PluginRequest) : String :=
  if r.repoUrl.isEmpty then r.metadata.repo.getD "" else r.repoUrl

def RegistryEvent.asks : RegistryEvent → Option PluginRequest
  | .service (.perform (.createPlugin metadata repoUrl) env) => some ⟨env, metadata, repoUrl⟩
  | .service _ => none
  | .submit settings yaml first request =>
    match firstClone settings yaml first request with
    | .error _ => none
    | .ok (repoUrl, metadata) => some ⟨first.env, metadata, repoUrl⟩

structure Usable (url : String) : Prop where
  nonempty : url ≠ ""
  storable : hasNul url = false

def World.AddsApart (w : World) (e : RegistryEvent) : Prop :=
  ∀ r, e.asks = some r → w.db.pluginFor r.env r.metadata = none → Usable r.url →
    ¬Registered w.db.plugins r.url

def World.Unshared (w : World) : Prop :=
  ∀ url, Usable url → SingleOwner w.db.plugins url

section
variable {w : World} {e : RegistryEvent} {r : PluginRequest} {config : RuntimeConfig}

theorem Db.Sound.withPlugin {db : Db} (h : db.Sound) (env : Env) (metadata : PluginMetadata)
    (repoUrl : String) : (db.withPlugin env metadata repoUrl).Sound := by
  unfold Db.withPlugin
  cases hp : db.pluginFor env metadata with
  | some found => exact h
  | none =>
    refine h.addPlugin fun p b hb hkey => ?_
    exact absurd hkey (of_decide_eq_false (Table.first_none.mp hp p b hb))

/-- What an event asks for is all that it does to the plugins' URLs. -/
theorem World.registryStep_asked (h : w.db.Sound) (hr : e.asks = some r) :
    (w.registryStep e).db = w.db.withPlugin r.env r.metadata r.repoUrl := by
  cases e with
  | service e =>
    cases e with
    | perform op env =>
      cases op with
      | createPlugin metadata repoUrl =>
        cases hr
        rw [registryStep, step, perform_db h]
        rfl
      | setPluginStatus | deletePlugin | uploadVersion | deleteVersion | setVersionStatus
      | setLatestVersion | publishPluginVersion | scanVersion | markScanPending
      | markScanSkipped | pollVirustotalAnalysis | setConfig => cases hr
    | startBuild | advance => cases hr
  | submit settings yaml first request =>
    have hdb : (w.submit settings yaml first request).db = _ := openSubmission_db h
    rw [RegistryEvent.asks] at hr
    cases hclone : firstClone settings yaml first request with
    | error exc =>
      rw [hclone] at hr
      cases hr
    | ok found =>
      rw [hclone] at hr hdb
      cases hr
      exact hdb

/-- An event that asks for no plugin changes no repository address. -/
theorem World.registryStep_kept (h : w.db.Sound) (hr : e.asks = none) :
    w.db.KeepsRepos (w.registryStep e).db := by
  cases e with
  | service e =>
    cases e with
    | perform op env =>
      rw [registryStep, step, perform_db h]
      apply Db.KeepsRepos.operation
      rintro metadata repoUrl rfl
      cases hr
    | startBuild pluginId version env =>
      rw [registryStep, step, startBuild_eq h]
      cases w.db.plugins.lookup pluginId with
      | none => exact .refl w.db
      | some plugin =>
        dsimp only
        cases w.db.buildInputs env pluginId plugin version with
        | error e => exact .refl w.db
        | ok inputs => exact .of_plugins rfl
    | advance versionId env =>
      rw [registryStep, step]
      cases hb : w.builds.lookup versionId with
      | none =>
        rw [advance_none hb]
        exact .refl w.db
      | some build =>
        obtain ⟨x', -, heq⟩ := advance_some h hb env
        rw [heq]
        exact .buildStep ..
  | submit settings yaml first request =>
    have hdb : (w.submit settings yaml first request).db = _ := openSubmission_db h
    rw [RegistryEvent.asks] at hr
    cases hclone : firstClone settings yaml first request with
    | error exc =>
      rw [hclone] at hdb
      exact .of_plugins (congrArg Db.plugins hdb)
    | ok found =>
      rw [hclone] at hr
      cases hr

theorem World.registryStep_sound (h : w.db.Sound) (e : RegistryEvent) :
    (w.registryStep e).db.Sound := by
  cases hr : e.asks with
  | some r =>
    rw [registryStep_asked h hr]
    exact h.withPlugin ..
  | none =>
    cases e with
    | service e => exact step_sound h e
    | submit settings yaml first request =>
      have hdb : (w.submit settings yaml first request).db = _ := openSubmission_db h
      rw [RegistryEvent.asks] at hr
      cases hclone : firstClone settings yaml first request with
      | error exc =>
        rw [hclone] at hdb
        rw [registryStep, hdb]
        exact h
      | ok found =>
        rw [hclone] at hr
        cases hr

theorem Db.KeepsRepos.singleOwner {db db' : Db} (h : db.KeepsRepos db') {url : String}
    (hs : SingleOwner db.plugins url) : SingleOwner db'.plugins url := by
  intro i p' hi j q' hj hp' hq'
  obtain ⟨p, hp, hpurl⟩ := h.rows i p' hi
  obtain ⟨q, hq, hqurl⟩ := h.rows j q' hj
  exact hs i p hp j q hq (hpurl.symm.trans hp') (hqurl.symm.trans hq')

/-- A new plugin leaves each URL with one plugin exactly if it has none of theirs. -/
theorem addPlugin_singleOwner {db : Db} (h : db.Sound) {plugin : Plugin} {url own : String}
    (hown : plugin.repoUrl = some own) (hs : SingleOwner db.plugins url) :
    SingleOwner (db.addPlugin plugin).plugins url ↔ url = own → ¬Registered db.plugins own := by
  have hnew : (db.addPlugin plugin).plugins.lookup db.nextId = some plugin := by
    rw [Db.lookup_addPlugin, if_pos rfl]
  have hold : ∀ id p, db.plugins.lookup id = some p → id ≠ db.nextId := by
    rintro id p hp rfl
    rw [(h.numbered db.nextId (le_refl _)).2] at hp
    cases hp
  constructor
  · rintro hs' rfl ⟨id, p, hp, hurl⟩
    have hkept : (db.addPlugin plugin).plugins.lookup id = some p := by
      rw [Db.lookup_addPlugin, if_neg (hold id p hp)]
      exact hp
    exact hold id p hp (hs' id p hkept db.nextId plugin hnew hurl hown)
  · intro hapart i p hp j q hq hpurl hqurl
    rw [Db.lookup_addPlugin] at hp hq
    split at hp <;> split at hq
    · rw [‹i = _›, ‹j = _›]
    · cases hp
      cases hown.symm.trans hpurl
      exact absurd ⟨j, q, hq, hqurl⟩ (hapart rfl)
    · cases hq
      cases hown.symm.trans hqurl
      exact absurd ⟨i, p, hp, hpurl⟩ (hapart rfl)
    · exact hs i p hp j q hq hpurl hqurl

/-- A step keeps the URLs apart exactly if the plugin that it adds, if any, has a
URL of its own. -/
theorem World.registryStep_unshared (h : w.db.Sound) (hw : w.Unshared) (e : RegistryEvent) :
    (w.registryStep e).Unshared ↔ w.AddsApart e := by
  unfold Unshared AddsApart
  cases hr : e.asks with
  | none =>
    refine iff_of_true ?_ fun r hc => by cases hc
    exact fun url husable => (registryStep_kept h hr).singleOwner (hw url husable)
  | some r =>
    rw [registryStep_asked h hr, Db.withPlugin]
    cases hp : w.db.pluginFor r.env r.metadata with
    | some found =>
      refine iff_of_true hw fun r' hr' hfree => ?_
      cases hr'
      cases hp.symm.trans hfree
    | none =>
      have hstep : ∀ url, Usable url → (SingleOwner (w.db.addPlugin (.new
          (inferPluginKey r.env r.metadata.name) r.metadata r.repoUrl)).plugins url ↔
            url = r.url → ¬Registered w.db.plugins r.url) :=
        fun url husable => addPlugin_singleOwner h rfl (hw url husable)
      simp only [Option.isSome_none, Bool.false_eq_true, if_false]
      constructor
      · intro hall r' hr' _ husable
        cases hr'
        exact (hstep r.url husable).mp (hall r.url husable) rfl
      · intro hapart url husable
        refine (hstep url husable).mpr fun heq => ?_
        subst heq
        exact hapart r rfl hp husable

/-- In every state of a run no URL is shared, exactly if every plugin was added
with a URL of its own. -/
theorem unshared_iff (config : RuntimeConfig) (events : List RegistryEvent) :
    (∀ t ∈ (registry config).states (registry config).init events, t.Unshared) ↔
      ∀ s ∈ (registry config).steps (registry config).init events, s.1.AddsApart s.2 := by
  refine Machine.run_iff (fun w => w.db.Sound) World.Unshared World.AddsApart
    (fun w e h => World.registryStep_sound h e)
    (fun w e h hw => World.registryStep_unshared h hw e) (Db.Sound.empty config) ?_
  intro url _ i p hp
  cases hp

end

/-- Every push to the URL of some plugin is built for each plugin that has it, if
it is plain, and otherwise not. -/
def World.BuildsPushes (w : World) : Prop :=
  ∀ autoVersion payload url ref, IsPush payload url ref → Registered w.db.plugins url →
    (BuildsEach w.db.plugins autoVersion payload url ↔ Plain payload url ref)

def pushTo (url : String) : Json :=
  .obj [("repository", .obj [("html_url", .str url)]), ("ref", .str "refs/heads/main")]

theorem pushTo_isPush (url : String) : IsPush (pushTo url) url "refs/heads/main" :=
  ⟨_, _, rfl, rfl, rfl, rfl⟩

theorem pushTo_plain {url : String} (h : Usable url) : Plain (pushTo url) url "refs/heads/main" := by
  refine ⟨h.nonempty, by decide, ?_⟩
  have hkeys : hasNul "repository" = false ∧ hasNul "html_url" = false ∧
      hasNul "ref" = false ∧ hasNul "refs/heads/main" = false := by decide
  simp [pushTo, Json.storable, Json.storableFields, hkeys, h.storable]

theorem storable_of_get {fields : JsonObject} {key : String} {value : Json}
    (h : Json.storableFields fields = true) (hget : fields.get key = some value) :
    value.storable = true := by
  induction fields with
  | nil => cases hget
  | cons field fields ih =>
    obtain ⟨k, v⟩ := field
    simp only [Json.storableFields, Bool.and_eq_true] at h
    unfold JsonObject.get at hget
    by_cases hk : k = key
    · rw [List.find?_cons_of_pos (by simpa using hk)] at hget
      cases hget
      exact h.1.2
    · rw [List.find?_cons_of_neg (by simpa using hk)] at hget
      exact ih h.2 hget

theorem IsPush.usable {payload : Json} {url ref : String} (h : IsPush payload url ref)
    (hplain : Plain payload url ref) : Usable url := by
  obtain ⟨fields, repository, rfl, hrepository, hurl, -⟩ := h.fields
  refine ⟨hplain.url, ?_⟩
  have houter := storable_of_get hplain.storable hrepository
  have hinner := storable_of_get houter hurl
  simpa [Json.storable] using hinner

theorem World.buildsPushes_iff (w : World) : w.BuildsPushes ↔ w.Unshared := by
  constructor
  · intro h url husable i p hi j q hj hp hq
    have hown : Registered w.db.plugins url := ⟨i, p, hi, hp⟩
    have hpush := pushTo_isPush url
    have hbuilt := (h "" _ _ _ hpush hown).mpr (pushTo_plain husable)
    exact ((buildsEach_iff hpush hown).mp hbuilt).2 i p hi j q hj hp hq
  · intro h autoVersion payload url ref hpush hown
    rw [buildsEach_iff hpush hown]
    exact and_iff_left_of_imp fun hplain => h url (hpush.usable hplain)

/-- In every run, every push to a registered URL is built as the plugins have it
exactly if no step adds a plugin with the URL of another. -/
theorem pushes_built_iff (config : RuntimeConfig) (events : List RegistryEvent) :
    (∀ t ∈ (registry config).states (registry config).init events, t.BuildsPushes) ↔
      ∀ s ∈ (registry config).steps (registry config).init events, s.1.AddsApart s.2 := by
  rw [← unshared_iff]
  exact forall₂_congr fun t _ => t.buildsPushes_iff

def uploadNamed (name : String) : RegistryEvent :=
  .service (.perform (.createPlugin { PluginMetadata.demo with name } "") (.calm 0))

theorem uploadNamed_plugins (config : RuntimeConfig) :
    ((registry config).runFrom (registry config).init
        [uploadNamed "demo", uploadNamed "other"]).db.plugins =
      AList.insert 1 (.new "other" PluginMetadata.demo "")
        (AList.insert 0 (.new "demo" PluginMetadata.demo "") ∅) := by
  have h₀ : (registry config).init.db.Sound := Db.Sound.empty config
  have h₁ := World.registryStep_sound h₀ (uploadNamed "demo")
  have hrun : (registry config).runFrom (registry config).init
      [uploadNamed "demo", uploadNamed "other"] =
        ((registry config).init.registryStep (uploadNamed "demo")).registryStep
          (uploadNamed "other") := rfl
  have hasks : ∀ name, (uploadNamed name).asks =
      some ⟨.calm 0, { PluginMetadata.demo with name }, ""⟩ := fun _ => rfl
  rw [hrun, World.registryStep_asked h₁ (hasks _), World.registryStep_asked h₀ (hasks _)]
  rfl

/-- The webhook finds both plugins of one repository, and fails. -/
theorem shared_url_not_built :
    let plugins := ((registry .default).runFrom (registry .default).init
      [uploadNamed "demo", uploadNamed "other"]).db.plugins
    IsPush (pushTo "https://git/demo") "https://git/demo" "refs/heads/main" ∧
      Registered plugins "https://git/demo" ∧
        ¬BuildsEach plugins "" (pushTo "https://git/demo") "https://git/demo" := by
  have hpush := pushTo_isPush "https://git/demo"
  rw [uploadNamed_plugins]
  have hown : Registered (AList.insert 1 (.new "other" PluginMetadata.demo "")
      (AList.insert 0 (.new "demo" PluginMetadata.demo "") ∅)) "https://git/demo" :=
    ⟨0, _, rfl, rfl⟩
  refine ⟨hpush, hown, fun hbuilt => ?_⟩
  have hsingle := ((buildsEach_iff hpush hown).mp hbuilt).2
  cases hsingle 0 _ rfl 1 _ rfl rfl rfl

end PluginRegistry
