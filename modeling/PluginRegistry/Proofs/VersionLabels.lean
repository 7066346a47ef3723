import PluginRegistry.Proofs.SubmissionSources

namespace PluginRegistry
open Lib

variable {db : Db} {x : Outside} {settings : GitSettings} {yaml : Yaml} {request : SubmitRequest}
  {pluginId : PluginId} {plugin : Plugin} {version ref : Option String}

/-- A version row and the `metadata.yaml` of its archive carry the version that
was asked for, or else the one in `metadata.yaml` at the recorded commit. -/
def LabelKept (yaml : Yaml) (asked : Option String) (clone : Except PyErr Clone)
    (report : Report PyErr Db Outside VersionId) (versionId : VersionId) : Prop :=
  ∃ found metadata commitSha v zip, clone = .ok found ∧ found.metadata yaml = .ok metadata ∧
    found.commitSha = .ok commitSha ∧ v.commitSha = some commitSha ∧
    Shipped report versionId v zip ∧ v.version = buildLabel asked metadata ∧
    (shippedMetadata yaml zip).map (·.version) = .ok (buildLabel asked metadata)

/-- The label and the packed version that a build gives a clone. -/
theorem labels_of_built (hyaml : yaml.RoundTrips) {report : Report PyErr Db Outside VersionId}
    {versionId : VersionId} {v : PluginVersion} {clone : Clone} {metadata : PluginMetadata}
    {maxReleaseZipBytes : Int} (hm : clone.metadata yaml = .ok metadata)
    (hfits : ∀ found checkout, clone.prepare yaml version = .ok (found, checkout) →
      (createZip checkout maxReleaseZipBytes).2 = none)
    (hb : BuiltFrom yaml maxReleaseZipBytes version report versionId v clone) :
    ∃ commitSha zip, clone.commitSha = .ok commitSha ∧ v.commitSha = some commitSha ∧
      Shipped report versionId v zip ∧
      (shippedMetadata yaml zip).map (·.version) = .ok (version.getD metadata.version) := by
  obtain ⟨commitSha, hsha, hcommit⟩ := hb.commit
  obtain ⟨found, checkout, hprepare, hshipped⟩ := hb.archive
  obtain ⟨packed, hpacked, hcontent⟩ := prepare_spec hyaml hm version
  rw [hprepare] at hpacked
  cases hpacked
  refine ⟨commitSha, _, hsha, hcommit, hshipped, ?_⟩
  rw [hcontent maxReleaseZipBytes (hfits _ _ hprepare)]
  rfl

theorem Buildable.fits {env : Env} {clone : Clone}
    (hb : Buildable settings yaml env db pluginId plugin version clone)
    {metadata : PluginMetadata} {checkout : Checkout}
    (hprepare : clone.prepare yaml version = .ok (metadata, checkout)) :
    (createZip checkout db.config.maxReleaseZipBytes).2 = none := by
  obtain ⟨found, packed, hfound, -, hfits⟩ := hb.packs
  rw [hprepare] at hfound
  cases hfound
  exact hfits

/-- What a build that returns has done with the version it was given. -/
theorem build_labels (h : db.Sound) (hyaml : yaml.RoundTrips) {moment : Moment}
    (hown : (db.plugins.lookup pluginId).isSome) {versionId : VersionId}
    (hok : ((buildFromClone settings yaml moment pluginId plugin version ref).perform db
      x).outcome = .ok versionId) :
    ∃ clone metadata commitSha v zip,
      cloneRepo settings moment.hosts (plugin.repoUrl.getD "") ref = .ok clone ∧
      clone.metadata yaml = .ok metadata ∧
      Buildable settings yaml moment.env db pluginId plugin version clone ∧
      clone.commitSha = .ok commitSha ∧ v.commitSha = some commitSha ∧
      Shipped ((buildFromClone settings yaml moment pluginId plugin version ref).perform db x)
        versionId v zip ∧
      v.version = buildLabel version metadata ∧
      (shippedMetadata yaml zip).map (·.version) = .ok (version.getD metadata.version) := by
  obtain ⟨clone, metadata, v, hclone, hm, hlabel, hbuildable, hbuilt⟩ :=
    buildFromClone_ok h hyaml hown hok
  obtain ⟨commitSha, zip, hsha, hcommit, hshipped, hversion⟩ :=
    labels_of_built hyaml hm (fun _ _ => hbuildable.fits) hbuilt
  exact ⟨clone, metadata, commitSha, v, zip, hclone, hm, hbuildable, hsha, hcommit, hshipped,
    hlabel, hversion⟩

def BuildsLabelled (settings : GitSettings) (yaml : Yaml) (db : Db) (x : Outside)
    (hosts : GitHosts) (pluginId : PluginId) (plugin : Plugin) (version ref : Option String) :
    Prop :=
  ∀ env : Env, env.lower = settings.tables.lower → ∀ versionId,
    ((buildFromClone settings yaml ⟨env, hosts⟩ pluginId plugin version ref).perform db
      x).outcome = .ok versionId →
    LabelKept yaml version (cloneRepo settings hosts (plugin.repoUrl.getD "") ref)
      ((buildFromClone settings yaml ⟨env, hosts⟩ pluginId plugin version ref).perform db x)
      versionId

def SubmitsLabelled (settings : GitSettings) (yaml : Yaml) (db : Db) (x : Outside)
    (hosts later : GitHosts) (request : SubmitRequest) : Prop :=
  ∀ first second : Env, first.lower = settings.tables.lower →
    second.lower = settings.tables.lower → ∀ versionId,
    ((submitRepo settings yaml ⟨first, hosts⟩ ⟨second, later⟩ request).perform db x).outcome =
      .ok versionId →
    ∃ repoUrl metadata target,
      Opened settings yaml db ⟨first, hosts⟩ request repoUrl metadata target ∧
      LabelKept yaml request.version
        (cloneRepo settings later (target.plugin.repoUrl.getD "") request.ref)
        ((submitRepo settings yaml ⟨first, hosts⟩ ⟨second, later⟩ request).perform db x) versionId

def BuildVersionAgrees (settings : GitSettings) (yaml : Yaml) (db : Db) (hosts : GitHosts)
    (pluginId : PluginId) (plugin : Plugin) (version ref : Option String) : Prop :=
  ∀ clone metadata, cloneRepo settings hosts (plugin.repoUrl.getD "") ref = .ok clone →
    clone.metadata yaml = .ok metadata →
    Buildable settings yaml settings.calm db pluginId plugin version clone →
    version = some "" → metadata.version = ""

def SubmitVersionAgrees (settings : GitSettings) (yaml : Yaml) (db : Db) (hosts later : GitHosts)
    (request : SubmitRequest) : Prop :=
  ∀ repoUrl metadata target clone built,
    Opened settings yaml db ⟨settings.calm, hosts⟩ request repoUrl metadata target →
    cloneRepo settings later (target.plugin.repoUrl.getD "") request.ref = .ok clone →
    clone.metadata yaml = .ok built →
    Buildable settings yaml settings.calm target.db target.pluginId target.plugin
      (some (request.versionFor metadata)) clone →
    truthy request.version = true ∨ metadata.version = built.version

theorem not_truthy {version : Option String} (h : truthy version = false) :
    version = none ∨ version = some "" := by
  cases version with
  | none => exact .inl rfl
  | some text =>
    rw [truthy, Bool.not_eq_false'] at h
    exact .inr (congrArg some (String.isEmpty_iff.mp h))

/-- A build packs the label unless it was given an empty text. -/
theorem packed_label {version : Option String} {metadata : PluginMetadata} :
    version.getD metadata.version = buildLabel version metadata ↔
      (version = some "" → metadata.version = "") := by
  unfold buildLabel
  cases ht : truthy version with
  | true =>
    cases version with
    | none => cases ht
    | some text =>
      refine iff_of_true rfl fun hempty => ?_
      cases hempty
      cases ht
  | false =>
    rcases not_truthy ht with rfl | rfl
    · simp
    · simp

theorem builds_labelled (h : db.Sound) (hyaml : yaml.RoundTrips) {hosts : GitHosts}
    (hown : (db.plugins.lookup pluginId).isSome)
    (hagree : BuildVersionAgrees settings yaml db hosts pluginId plugin version ref) :
    BuildsLabelled settings yaml db x hosts pluginId plugin version ref := by
  intro env hlower versionId hok
  have hcalm : env.lower = settings.calm.lower := hlower
  obtain ⟨clone, metadata, commitSha, v, zip, hclone, hm, hb, hsha, hcommit, hshipped, hlabel,
    hversion⟩ := build_labels h hyaml hown hok
  refine ⟨clone, metadata, commitSha, v, zip, hclone, hm, hsha, hcommit, hshipped, hlabel, ?_⟩
  rw [hversion, packed_label.mpr (hagree clone metadata hclone hm (hb.congr hcalm))]

theorem build_version_agrees (h : db.Sound) (hyaml : yaml.RoundTrips) {hosts : GitHosts}
    (hown : (db.plugins.lookup pluginId).isSome)
    (hlabelled : BuildsLabelled settings yaml db x hosts pluginId plugin version ref) :
    BuildVersionAgrees settings yaml db hosts pluginId plugin version ref := by
  intro clone metadata hclone hm hb
  obtain ⟨versionId, hok⟩ : ∃ versionId, ((buildFromClone settings yaml ⟨settings.calm, hosts⟩
      pluginId plugin version ref).perform db x).outcome = .ok versionId :=
    buildFromClone_smooth h hown hclone hb settings.calm_fault settings.calm_answers
  obtain ⟨found, read, commitSha, v, zip, hfound, hread, -, -, hshipped, -, hversion⟩ :=
    hlabelled settings.calm rfl versionId hok
  obtain ⟨found', read', -, v', zip', hfound', hread', -, -, -, hshipped', -, hversion'⟩ :=
    build_labels h hyaml hown hok
  rw [hclone] at hfound hfound'
  cases hfound
  cases hfound'
  rw [hm] at hread hread'
  cases hread
  cases hread'
  obtain ⟨rfl, rfl⟩ := hshipped.unique hshipped'
  rw [hversion] at hversion'
  exact packed_label.mp (Except.ok.inj hversion').symm

/-- What the build of a submission packs, and the label that it gives. -/
theorem submitted_label {metadata built : PluginMetadata} :
    (buildLabel (some (request.versionFor metadata)) built = buildLabel request.version built ∧
      request.versionFor metadata = buildLabel request.version built) ↔
      truthy request.version = true ∨ metadata.version = built.version := by
  unfold SubmitRequest.versionFor buildLabel
  cases ht : truthy request.version with
  | true =>
    obtain ⟨text, htext⟩ : ∃ text, request.version = some text := by
      cases hv : request.version with
      | none =>
        rw [hv] at ht
        cases ht
      | some text => exact ⟨text, rfl⟩
    rw [htext] at ht
    simp [htext, ht]
  | false =>
    simp only [Bool.false_eq_true, if_false, Option.getD_some, false_or]
    constructor
    · exact And.right
    · intro hsame
      rw [hsame]
      exact ⟨ite_self _, rfl⟩

theorem submit_labels (h : db.Sound) (hyaml : yaml.RoundTrips) {first second : Moment}
    {versionId : VersionId}
    (hok : ((submitRepo settings yaml first second request).perform db x).outcome =
      .ok versionId) :
    ∃ repoUrl metadata target clone built commitSha v zip,
      Opened settings yaml db first request repoUrl metadata target ∧
      cloneRepo settings second.hosts (target.plugin.repoUrl.getD "") request.ref = .ok clone ∧
      clone.metadata yaml = .ok built ∧
      Buildable settings yaml second.env target.db target.pluginId target.plugin
        (some (request.versionFor metadata)) clone ∧
      clone.commitSha = .ok commitSha ∧ v.commitSha = some commitSha ∧
      Shipped ((submitRepo settings yaml first second request).perform db x) versionId v zip ∧
      v.version = buildLabel (some (request.versionFor metadata)) built ∧
      (shippedMetadata yaml zip).map (·.version) = .ok (request.versionFor metadata) := by
  obtain ⟨repoUrl, metadata, target, ho, heq⟩ := submitRepo_ok h hok
  obtain ⟨hsound, hown⟩ := submitTarget_sound h ho.target
  rw [heq] at hok ⊢
  obtain ⟨clone, built, commitSha, v, zip, hclone, hm, hb, hsha, hcommit, hshipped, hlabel,
    hversion⟩ := build_labels hsound hyaml hown hok
  exact ⟨repoUrl, metadata, target, clone, built, commitSha, v, zip, ho, hclone, hm, hb, hsha,
    hcommit, hshipped, hlabel, hversion⟩

/-- The lower case of text is all that opening a submission asks of its environment. -/
theorem Opened.congr {env env' : Env} (h : env.lower = env'.lower) {hosts : GitHosts}
    {repoUrl : String} {metadata : PluginMetadata} {target : SubmitTarget}
    (ho : Opened settings yaml db ⟨env, hosts⟩ request repoUrl metadata target) :
    Opened settings yaml db ⟨env', hosts⟩ request repoUrl metadata target := by
  refine ⟨ho.clone, ?_⟩
  have ht := ho.target
  have hkey : inferPluginKey env metadata.name = inferPluginKey env' metadata.name := by
    simp only [inferPluginKey, h]
  unfold Db.submitTarget at ht ⊢
  dsimp only at ht ⊢
  rw [← pluginFor_congr h, ← hkey]
  simp only [← assertMetadata_congr h]
  exact ht

theorem submits_labelled (h : db.Sound) (hyaml : yaml.RoundTrips) {hosts later : GitHosts}
    (hagree : SubmitVersionAgrees settings yaml db hosts later request) :
    SubmitsLabelled settings yaml db x hosts later request := by
  intro first second hfirst hsecond versionId hok
  have hfirst' : first.lower = settings.calm.lower := hfirst
  have hsecond' : second.lower = settings.calm.lower := hsecond
  obtain ⟨repoUrl, metadata, target, clone, built, commitSha, v, zip, ho, hclone, hm, hb, hsha,
    hcommit, hshipped, hlabel, hversion⟩ := submit_labels h hyaml hok
  obtain ⟨hrow, hpacked⟩ := submitted_label.mpr (hagree repoUrl metadata target clone built
    (ho.congr hfirst') hclone hm (hb.congr hsecond'))
  refine ⟨repoUrl, metadata, target, ho, clone, built, commitSha, v, zip, hclone, hm, hsha,
    hcommit, hshipped, hlabel.trans hrow, ?_⟩
  rw [hversion, hpacked]

theorem Opened.unique {first : Moment} {repoUrl repoUrl' : String}
    {metadata metadata' : PluginMetadata} {target target' : SubmitTarget}
    (ho : Opened settings yaml db first request repoUrl metadata target)
    (ho' : Opened settings yaml db first request repoUrl' metadata' target') :
    metadata = metadata' ∧ target = target' := by
  obtain ⟨⟨-, ⟨normalized, hnormal, rfl⟩, clone, hclone, hm⟩, ht⟩ := ho
  obtain ⟨⟨-, ⟨normalized', hnormal', rfl⟩, clone', hclone', hm'⟩, ht'⟩ := ho'
  rw [hnormal] at hnormal'
  cases hnormal'
  rw [hclone] at hclone'
  cases hclone'
  rw [hm] at hm'
  cases hm'
  rw [ht] at ht'
  cases ht'
  exact ⟨rfl, rfl⟩

/-- A submission whose two clones give different versions gets the first one's
text, on the row or in the archive. -/
theorem submit_version_agrees (h : db.Sound) (hyaml : yaml.RoundTrips) {hosts later : GitHosts}
    (hlabelled : SubmitsLabelled settings yaml db x hosts later request) :
    SubmitVersionAgrees settings yaml db hosts later request := by
  intro repoUrl metadata target clone built ho hclone hm hb
  obtain ⟨hsound, hown⟩ := submitTarget_sound h ho.target
  obtain ⟨versionId, hbuilt⟩ : ∃ versionId, ((buildFromClone settings yaml ⟨settings.calm, later⟩
      target.pluginId target.plugin (some (request.versionFor metadata)) request.ref).perform
        target.db x).outcome = .ok versionId :=
    buildFromClone_smooth hsound hown hclone hb settings.calm_fault settings.calm_answers
  have hok : ((submitRepo settings yaml ⟨settings.calm, hosts⟩ ⟨settings.calm, later⟩
      request).perform db x).outcome = .ok versionId := by
    rw [submitRepo_smooth h settings.calm_fault ho]
    exact hbuilt
  obtain ⟨_, _, target', ho', found, read, -, v, zip, hfound, hread, -, -, hshipped, hrow,
    hversion⟩ := hlabelled settings.calm settings.calm rfl rfl versionId hok
  obtain ⟨_, metadata', target'', clone', built', -, v', zip', ho'', hclone', hm', -, -, -,
    hshipped', hlabel, hpacked⟩ := submit_labels h hyaml hok
  obtain ⟨-, rfl⟩ := ho.unique ho'
  obtain ⟨rfl, rfl⟩ := ho.unique ho''
  rw [hclone] at hfound hclone'
  cases hfound
  cases hclone'
  rw [hm] at hread hm'
  cases hread
  cases hm'
  obtain ⟨rfl, rfl⟩ := hshipped.unique hshipped'
  rw [hrow] at hlabel
  rw [hversion] at hpacked
  exact submitted_label.mp ⟨hlabel.symm, (Except.ok.inj hpacked).symm⟩

/-- Build tasks keep to the version of their request exactly when it is not an
empty text that the commit's version differs from, and submissions exactly when
they are given a version or their two clones agree on it. -/
theorem version_labels_follow_iff (db : Db) (h : db.Sound) (x : Outside) (settings : GitSettings)
    (yaml : Yaml) (hyaml : yaml.RoundTrips) :
    (∀ (pluginId : PluginId) (plugin : Plugin), db.plugins.lookup pluginId = some plugin →
      ∀ (hosts : GitHosts) (version ref : Option String),
        BuildsLabelled settings yaml db x hosts pluginId plugin version ref ↔
          BuildVersionAgrees settings yaml db hosts pluginId plugin version ref) ∧
      ∀ (hosts later : GitHosts) (request : SubmitRequest),
        SubmitsLabelled settings yaml db x hosts later request ↔
          SubmitVersionAgrees settings yaml db hosts later request := by
  constructor
  · intro pluginId plugin hp hosts version ref
    have hown : (db.plugins.lookup pluginId).isSome := by
      rw [hp]
      rfl
    exact ⟨build_version_agrees h hyaml hown, builds_labelled h hyaml hown⟩
  · intro hosts later request
    exact ⟨submit_version_agrees h hyaml, submits_labelled h hyaml⟩

def releaseHosts (version : String) (commitSha : CommitSha) : GitHosts := fun repo _ =>
  if repo = ("alice".toList, "demo".toList) then .ok (demoClone version commitSha)
  else .error (gitError "repository not found")

theorem version_labels_follow_iff_registered :
    ∃ plugin, (World.run .default registeredRun).db.plugins.lookup 0 = some plugin ∧
      BuildsLabelled demoSettings demoYaml (World.run .default registeredRun).db
        (World.run .default registeredRun).outside (releaseHosts "1.0.0" .zero) 0 plugin none
        none := by
  have hsound := reachable_sound (World.run_reachable .default registeredRun)
  obtain ⟨plugin, hp⟩ : ∃ plugin,
      (World.run .default registeredRun).db.plugins.lookup 0 = some plugin :=
    Option.isSome_iff_exists.mp (by decide)
  refine ⟨plugin, hp, ((version_labels_follow_iff _ hsound _ demoSettings _
    demoYaml_roundTrips).1 0 plugin hp (releaseHosts "1.0.0" .zero) none none).mpr ?_⟩
  intro clone metadata _ _ _ hempty
  cases hempty

def ownRequest : SubmitRequest :=
  ⟨"https://github.com/alice/demo", none, none⟩

theorem releaseHosts_clone (version : String) (commitSha : CommitSha) :
    cloneRepo demoSettings (releaseHosts version commitSha) "https://github.com/alice/demo" none =
      .ok (demoClone version commitSha) := by
  have hrepo : repoIdentity demoSettings "https://github.com/alice/demo" =
      .ok ("alice".toList, "demo".toList) := by
    decide
  simp only [cloneRepo, hrepo, bind, Except.bind, releaseHosts, if_true]

/-- The clone of the example, with its metadata file rewritten to the label asked for. -/
theorem demoClone_prepare {old version : String} (h : old ≠ version) (commitSha : CommitSha) :
    (demoClone old commitSha).prepare demoYaml (some version) =
      .ok (⟨"demo", "alice", old, none⟩, (demoCheckout old).rewrite (demoFile version)) := by
  have hwrite : (demoCheckout old).overwriteMetadataVersion demoYaml version =
      .ok ((demoCheckout old).rewrite (demoFile version)) := by
    have hread : (demoCheckout old).files.read (demoCheckout old).metadataPath =
        .ok (demoFile old) := rfl
    simp only [Checkout.overwriteMetadataVersion, hread, bind, Except.bind,
      loadMapping_ok.mpr (demoYaml_load old)]
    rfl
  have hreread : parseMetadataYaml demoYaml ((demoCheckout old).rewrite (demoFile version)).files
      ((demoCheckout old).rewrite (demoFile version)).metadataPath =
        .ok ⟨"demo", "alice", version, none⟩ := by
    refine parseMetadataYaml_ok.mpr ⟨demoFile version, (demoFile version).length, ?_, ?_⟩
    · have hstat : (demoCheckout old).files.stat (demoCheckout old).metadataPath =
          some (.file (demoFile old) (demoFile old).length) := rfl
      exact FileSystem.stat_write hstat _
    · exact parseMetadataYamlText_ok.mpr ⟨demoData version, demoYaml_load version, rfl⟩
  simp only [Clone.prepare, demoClone_metadata, bind, Except.bind, if_neg h]
  change (do
    let checkout ← (demoCheckout old).overwriteMetadataVersion demoYaml version
    let reread ← parseMetadataYaml demoYaml checkout.files checkout.metadataPath
    return ({ reread with version := old }, checkout) : Except PyErr _) = _
  rw [hwrite]
  simp only [bind, Except.bind, hreread]
  rfl

/-- A submission that is overtaken by a new release labels the new files with
the old version. -/
theorem overtaken_submission_mislabelled :
    ¬ ∀ (db : Db), db.Sound → ∀ (x : Outside) (settings : GitSettings) (yaml : Yaml),
      yaml.RoundTrips →
      (∀ (pluginId : PluginId) (plugin : Plugin), db.plugins.lookup pluginId = some plugin →
        ∀ (hosts : GitHosts) (version ref : Option String),
          BuildsLabelled settings yaml db x hosts pluginId plugin version ref) ∧
      ∀ (hosts later : GitHosts) (request : SubmitRequest),
        SubmitsLabelled settings yaml db x hosts later request := by
  intro h
  have hsound := reachable_sound (World.run_reachable .default registeredRun)
  obtain ⟨plugin, hp, hrepo, hkey, hauthor⟩ := registered_plugin
  have hagree := submit_version_agrees hsound demoYaml_roundTrips
    ((h _ hsound (World.run .default registeredRun).outside demoSettings demoYaml
      demoYaml_roundTrips).2 (releaseHosts "1.0.0" .zero) (releaseHosts "2.0.0" .one) ownRequest)
  have hmatch : ∀ version, assertMetadataMatchesPlugin demoSettings.calm
      ⟨"demo", "alice", version, none⟩ plugin = .ok () := by
    intro version
    simp only [assertMetadataMatchesPlugin, hkey, hauthor]
    decide
  have hfirst : FirstClone demoSettings demoYaml (releaseHosts "1.0.0" .zero) ownRequest
      "https://github.com/alice/demo" ⟨"demo", "alice", "1.0.0", none⟩ :=
    ⟨by decide, ⟨⟨"https://github.com/alice/demo", "alice", "demo", none⟩,
      by decide, rfl⟩, _, releaseHosts_clone .., demoClone_metadata ..⟩
  have htarget : (World.run .default registeredRun).db.submitTarget demoSettings.calm
      ⟨"demo", "alice", "1.0.0", none⟩ "https://github.com/alice/demo" =
        .ok ⟨(World.run .default registeredRun).db, 0, plugin⟩ := by
    rw [Db.submitTarget, hp]
    dsimp only
    rw [hmatch]
    rfl
  have hclone : cloneRepo demoSettings (releaseHosts "2.0.0" .one) (plugin.repoUrl.getD "") none =
      .ok (demoClone "2.0.0" .one) := by
    rw [hrepo]
    exact releaseHosts_clone ..
  have hb : Buildable demoSettings demoYaml demoSettings.calm
      (World.run .default registeredRun).db 0 plugin (some "1.0.0") (demoClone "2.0.0" .one) :=
    ⟨by rw [hrepo]; rfl, by rw [hrepo]; decide, ⟨.one, rfl, by decide +kernel⟩, _, _,
      demoClone_prepare (by decide) .one, hmatch _, by decide⟩
  rcases hagree _ _ _ _ _ ⟨hfirst, htarget⟩ hclone (demoClone_metadata ..) hb with hgiven | hsame
  · cases hgiven
  · revert hsame
    decide

end PluginRegistry
