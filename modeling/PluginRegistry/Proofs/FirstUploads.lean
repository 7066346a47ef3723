import PluginRegistry.Proofs.Deletions
import PluginRegistry.Services.FirstUpload

namespace PluginRegistry
open Lib

/-- The metadata that the upload endpoints share. -/
theorem uploadedMetadata_metadata (yaml : Yaml) (limits : UploadLimits) (archive : ZipArchive) :
    (UploadedMetadata.metadata <$> uploadedMetadata yaml limits archive) =
      processUploadedZip yaml limits archive := by
  unfold uploadedMetadata processUploadedZip
  split
  · rfl
  · cases inspectZip limits archive with
    | error e => rfl
    | ok u =>
      cases safeUnzip archive with
      | error e => rfl
      | ok files =>
        change Except.map _ (findMetadataYaml files >>= _) = findMetadataYaml files >>= _
        cases findMetadataYaml files with
        | error e => rfl
        | ok path =>
          change Except.map _ (files.read path >>= _) = parseMetadataYaml yaml files path
          unfold parseMetadataYaml parseMetadataYamlText
          cases files.read path with
          | error e => rfl
          | ok content =>
            change Except.map _ (loadMapping yaml content >>= _) = loadMapping yaml content >>= _
            cases loadMapping yaml content with
            | error e => rfl
            | ok data =>
              change Except.map _ (PluginMetadata.modelValidate data >>= _) =
                PluginMetadata.modelValidate data
              cases PluginMetadata.modelValidate data <;> rfl

/-- What holds of the rows in every state: the constraints, and that no id is drawn twice. -/
structure Catalog.Sound (c : Catalog) : Prop where
  rows : c.rows.Sound
  tagsUnique : ∀ i a, c.tags.lookup i = some a → ∀ j b, c.tags.lookup j = some b → a = b → i = j
  pluginTags : c.pluginTags.Nodup
  tagged : ∀ e ∈ c.pluginTags,
    (c.rows.plugins.lookup e.1).isSome ∧ (c.tags.lookup e.2).isSome
  locales : (c.i18n.map fun t => (t.pluginId, t.locale)).Nodup
  translated : ∀ t ∈ c.i18n, (c.rows.plugins.lookup t.pluginId).isSome
  numbered : ∀ i, c.rows.nextId ≤ i → c.tags.lookup i = none

namespace Catalog.Sound
variable {c : Catalog}

theorem constraints (h : c.Sound) : c.Constraints :=
  ⟨h.rows.constraints, h.tagsUnique, h.pluginTags, h.tagged, h.locales, h.translated⟩

theorem empty (config : RuntimeConfig) : (Catalog.empty config).Sound where
  rows := Db.Sound.empty config
  tagsUnique := fun _ _ h => by cases h
  pluginTags := List.nodup_nil
  tagged := fun _ h => by cases h
  locales := List.nodup_nil
  translated := fun _ h => by cases h
  numbered := fun _ _ => rfl

/-- A plugin that has just been numbered has no tag and no translation. -/
theorem plugin_fresh (h : c.Sound) {pluginId : PluginId}
    (hid : (c.rows.plugins.lookup pluginId).isSome) : pluginId ≠ c.rows.nextId := by
  rintro rfl
  rw [(h.rows.numbered _ (le_refl _)).2] at hid
  cases hid

end Catalog.Sound

structure Catalog.Tagged (c : Catalog) (names : List String) (tags : List TagId) (c' : Catalog) :
    Prop where
  rows : c'.rows = { c.rows with nextId := c'.rows.nextId }
  grows : c.rows.nextId ≤ c'.rows.nextId
  pluginTags : c'.pluginTags = c.pluginTags
  i18n : c'.i18n = c.i18n
  kept : ∀ i a, c.tags.lookup i = some a → c'.tags.lookup i = some a
  named : tags.map (c'.tags.lookup ·) = names.map some
  numbered : ∀ i, c'.rows.nextId ≤ i → c'.tags.lookup i = none

namespace Catalog
variable {c c' : Catalog} {existing : String → Option TagId} {names : List String}

theorem lookup_addTag (c : Catalog) (name : String) (i : TagId) :
    (c.addTag name).tags.lookup i = if i = c.rows.nextId then some name else c.tags.lookup i :=
  Table.lookup_insert_eq ..

theorem addTag_kept (hnew : ∀ i, c.rows.nextId ≤ i → c.tags.lookup i = none) (name : String)
    (i : TagId) (a : String) (ha : c.tags.lookup i = some a) :
    (c.addTag name).tags.lookup i = some a := by
  rw [lookup_addTag, if_neg ?_]
  · exact ha
  · intro hi
    rw [hnew i (le_of_eq hi.symm)] at ha
    cases ha

theorem addTag_numbered (hnew : ∀ i, c.rows.nextId ≤ i → c.tags.lookup i = none) (name : String)
    (i : TagId) (hi : (c.addTag name).rows.nextId ≤ i) : (c.addTag name).tags.lookup i = none := by
  have hlt : c.rows.nextId < i := hi
  rw [lookup_addTag, if_neg (Nat.ne_of_gt hlt)]
  exact hnew i (Nat.le_of_lt hlt)

theorem addTags_tagged (hnew : ∀ i, c.rows.nextId ≤ i → c.tags.lookup i = none)
    (hexisting : ∀ name tag, existing name = some tag → c.tags.lookup tag = some name) :
    c.Tagged names (c.addTags existing names).1 (c.addTags existing names).2 := by
  induction names generalizing c with
  | nil => exact ⟨rfl, le_refl _, rfl, rfl, fun _ _ h => h, rfl, hnew⟩
  | cons name rest ih =>
    rw [addTags]
    cases he : existing name with
    | some tag =>
      have hrest := ih hnew hexisting
      refine ⟨hrest.rows, hrest.grows, hrest.pluginTags, hrest.i18n, hrest.kept, ?_,
        hrest.numbered⟩
      rw [List.map_cons, List.map_cons, hrest.named, hrest.kept tag name (hexisting name tag he)]
    | none =>
      have hkept := addTag_kept hnew name
      have hrest := ih (c := c.addTag name) (addTag_numbered hnew name)
        (fun other tag hother => hkept tag other (hexisting other tag hother))
      have hself : (c.addTag name).tags.lookup c.rows.nextId = some name := by
        rw [lookup_addTag, if_pos rfl]
      refine ⟨hrest.rows, Nat.le_of_succ_le hrest.grows, hrest.pluginTags, hrest.i18n,
        fun i a ha => hrest.kept i a (hkept i a ha), ?_, hrest.numbered⟩
      rw [List.map_cons, List.map_cons, hrest.named, hrest.kept _ name hself]

/-- Names that differ get tags whose names differ from all others. -/
theorem addTags_unique (hnew : ∀ i, c.rows.nextId ≤ i → c.tags.lookup i = none)
    (hunique : ∀ i a, c.tags.lookup i = some a → ∀ j b, c.tags.lookup j = some b → a = b → i = j)
    (hmissing : ∀ name ∈ names, existing name = none → ∀ i, c.tags.lookup i ≠ some name)
    (hnames : names.Nodup) (i : TagId) (a : String)
    (hi : (c.addTags existing names).2.tags.lookup i = some a) (j : TagId) (b : String)
    (hj : (c.addTags existing names).2.tags.lookup j = some b) (hab : a = b) : i = j := by
  induction names generalizing c with
  | nil => exact hunique i a hi j b hj hab
  | cons name rest ih =>
    obtain ⟨hfresh, hrest⟩ := List.nodup_cons.mp hnames
    rw [addTags] at hi hj
    cases he : existing name with
    | some tag =>
      rw [he] at hi hj
      exact ih hnew hunique (fun other ho => hmissing other (List.mem_cons_of_mem _ ho)) hrest hi hj
    | none =>
      rw [he] at hi hj
      have hmiss := hmissing name (List.mem_cons_self ..) he
      refine ih (c := c.addTag name) (addTag_numbered hnew name) ?_ ?_ hrest hi hj
      · intro k u hk l v hl huv
        rw [lookup_addTag] at hk hl
        subst huv
        split at hk <;> split at hl
        · rw [‹k = _›, ‹l = _›]
        · cases hk
          exact absurd hl (hmiss l)
        · cases hl
          exact absurd hk (hmiss k)
        · exact hunique k u hk l u hl rfl
      · intro other ho hnone k hk
        rw [lookup_addTag] at hk
        split at hk
        · cases hk
          exact hfresh ho
        · exact hmissing other (List.mem_cons_of_mem _ ho) hnone k hk

/-- Where no two tags share a name, tags repeat as their names do. -/
theorem Tagged.nodup_iff {tags : List TagId} (h : c.Tagged names tags c')
    (hunique : ∀ i a, c'.tags.lookup i = some a → ∀ j b, c'.tags.lookup j = some b → a = b → i = j) :
    tags.Nodup ↔ names.Nodup := by
  have hsome : (names.map some).Nodup ↔ names.Nodup :=
    List.nodup_map_iff fun _ _ => Option.some.inj
  rw [← hsome, ← h.named]
  constructor
  · intro htags
    refine List.Nodup.map_on ?_ htags
    intro i hi j hj hij
    have hmem : c'.tags.lookup i ∈ names.map some := h.named ▸ List.mem_map_of_mem hi
    obtain ⟨name, -, hname⟩ := List.mem_map.mp hmem
    exact hunique i name hname.symm j name (hij ▸ hname.symm) rfl
  · exact List.Nodup.of_map _

theorem tagNamed_lookup {name : String} {tag : TagId} (h : c.tagNamed name = some tag) :
    c.tags.lookup tag = some name := by
  obtain ⟨⟨i, a⟩, hfirst, rfl⟩ := Option.map_eq_some_iff.mp h
  obtain ⟨hlookup, hname⟩ := Table.first_some hfirst
  rw [hlookup, of_decide_eq_true hname]

theorem tagNamed_missing {name : String} (h : c.tagNamed name = none) (i : TagId) :
    c.tags.lookup i ≠ some name := by
  intro hi
  have hnone := Option.map_eq_none_iff.mp h
  exact of_decide_eq_false (Table.first_none.mp hnone i name hi) rfl

end Catalog

/-- Skipping ids changes no row. -/
theorem Db.Sound.skip {db : Db} (h : db.Sound) {n : Nat} (hn : db.nextId ≤ n) :
    Db.Sound { db with nextId := n } :=
  ⟨⟨h.constraints.checked, h.constraints.apart, h.constraints.owned, h.constraints.keys⟩,
    h.artifacts, h.shown, fun i hi => h.numbered i (le_trans hn hi)⟩

namespace Catalog.Sound
variable {c c' : Catalog} {names : List String} {tags : List TagId}

theorem tagged_of (h : c.Sound) (names : List String) :
    c.Tagged names (c.addTags c.tagNamed names).1 (c.addTags c.tagNamed names).2 :=
  addTags_tagged h.numbered fun _ _ => tagNamed_lookup

theorem addTags (h : c.Sound) (hnames : names.Nodup) :
    (c.addTags c.tagNamed names).2.Sound := by
  have ht := h.tagged_of names
  have hplugins : (c.addTags c.tagNamed names).2.rows.plugins = c.rows.plugins := by rw [ht.rows]
  refine ⟨?_, addTags_unique h.numbered h.tagsUnique (fun name _ => tagNamed_missing) hnames,
    ?_, ?_, ?_, ?_, ht.numbered⟩
  · rw [ht.rows]
    exact h.rows.skip ht.grows
  · rw [ht.pluginTags]
    exact h.pluginTags
  · intro e he
    rw [ht.pluginTags] at he
    obtain ⟨hplugin, htag⟩ := h.tagged e he
    obtain ⟨name, hname⟩ := Option.isSome_iff_exists.mp htag
    rw [hplugins, ht.kept _ _ hname]
    exact ⟨hplugin, rfl⟩
  · rw [ht.i18n]
    exact h.locales
  · intro t hin
    rw [ht.i18n] at hin
    rw [hplugins]
    exact h.translated t hin

/-- A plugin under a new key, with tags that exist and do not repeat, keeps the catalog sound. -/
theorem addPlugin (h : c.Sound) {plugin : Plugin}
    (hkey : ∀ p b, c.rows.plugins.lookup p = some b → b.pluginKey ≠ plugin.pluginKey)
    (hnodup : tags.Nodup) (htags : ∀ tag ∈ tags, (c.tags.lookup tag).isSome) :
    (c.addPlugin plugin tags).Sound := by
  have hkept : ∀ id, (c.rows.plugins.lookup id).isSome →
      ((c.rows.addPlugin plugin).plugins.lookup id).isSome := by
    intro id hid
    rw [Db.lookup_addPlugin, if_neg (h.plugin_fresh hid)]
    exact hid
  refine ⟨h.rows.addPlugin hkey, h.tagsUnique, ?_, ?_, h.locales,
    fun t ht => hkept _ (h.translated t ht), fun i hi => h.numbered i (Nat.le_of_succ_le hi)⟩
  · refine List.nodup_append.mpr ⟨h.pluginTags, ?_, ?_⟩
    · exact hnodup.map fun _ _ he => congrArg Prod.snd he
    · intro e he f hf hef
      obtain ⟨tag, -, rfl⟩ := List.mem_map.mp hf
      exact h.plugin_fresh (h.tagged e he).1 (congrArg Prod.fst hef)
  · intro e he
    rcases List.mem_append.mp he with hold | hnew
    · exact ⟨hkept _ (h.tagged e hold).1, (h.tagged e hold).2⟩
    · obtain ⟨tag, htag, rfl⟩ := List.mem_map.mp hnew
      refine ⟨?_, htags tag htag⟩
      change ((c.rows.addPlugin plugin).plugins.lookup c.rows.nextId).isSome
      rw [Db.lookup_addPlugin, if_pos rfl]
      rfl

theorem addTranslations (h : c.Sound) {pluginId : PluginId} {i18n : JsonObject}
    (hid : (c.rows.plugins.lookup pluginId).isSome) (hnone : ∀ t ∈ c.i18n, t.pluginId ≠ pluginId)
    (hlocales : (i18n.map (·.1)).Nodup) : (c.addTranslations pluginId i18n).Sound := by
  refine ⟨h.rows, h.tagsUnique, h.pluginTags, h.tagged, ?_, ?_, h.numbered⟩
  · simp only [Catalog.addTranslations, List.map_append, List.map_map]
    refine List.nodup_append.mpr ⟨h.locales, ?_, ?_⟩
    · refine List.Nodup.of_map Prod.snd ?_
      rw [List.map_map]
      exact hlocales
    · intro e he f hf hef
      obtain ⟨t, ht, rfl⟩ := List.mem_map.mp he
      obtain ⟨entry, -, rfl⟩ := List.mem_map.mp hf
      exact hnone t ht (congrArg Prod.fst hef)
  · intro t ht
    rcases List.mem_append.mp ht with hold | hnew
    · exact h.translated t hold
    · obtain ⟨entry, -, rfl⟩ := List.mem_map.mp hnew
      exact hid

end Catalog.Sound

namespace Catalog
variable {c : Catalog}

/-- Tags of a new plugin that repeat are refused. -/
theorem nodup_of_addPlugin {plugin : Plugin} {tags : List TagId}
    (h : (c.addPlugin plugin tags).Constraints) : tags.Nodup :=
  List.Nodup.of_map _ (List.nodup_append.mp h.pluginTags).2.1

/-- Translations into one language twice are refused. -/
theorem nodup_of_addTranslations {pluginId : PluginId} {i18n : JsonObject}
    (h : (c.addTranslations pluginId i18n).Constraints) : (i18n.map (·.1)).Nodup := by
  have hlocales := h.locales
  simp only [Catalog.addTranslations, List.map_append, List.map_map] at hlocales
  have hnew := (List.nodup_append.mp hlocales).2.1
  refine List.Nodup.of_map (fun locale => (pluginId, locale)) ?_
  rw [List.map_map]
  exact hnew

end Catalog

section
variable {env : Env} {faults : UploadFaults} {c : Catalog} {x : Outside}

def Catalog.tagsAdded (c : Catalog) (env : Env) (m : UploadedMetadata) : List TagId × Catalog :=
  c.addTags c.tagNamed (tagNames env m.tags)

def Catalog.pluginAdded (c : Catalog) (env : Env) (m : UploadedMetadata) (repoUrl : String) :
    Catalog :=
  (c.tagsAdded env m).2.addPlugin (.new (inferPluginKey env m.metadata.name) m.metadata repoUrl)
    (c.tagsAdded env m).1

def Catalog.pluginCreated (c : Catalog) (env : Env) (m : UploadedMetadata) (repoUrl : String) :
    Catalog :=
  (c.pluginAdded env m repoUrl).addTranslations (c.tagsAdded env m).2.rows.nextId m.i18n

structure Catalog.Fits (c : Catalog) (names : List String) : Prop where
  nul : names.any hasNul = false
  length : names.any (overlong c.tagNamed) = false

/-- Whether the rows of a new plugin can be committed: nobody has its key, the
database takes its tags, and neither these nor its languages repeat. -/
structure Catalog.Accepts (c : Catalog) (env : Env) (m : UploadedMetadata) : Prop where
  key : (c.rows.plugins.first fun _ p => p.pluginKey = inferPluginKey env m.metadata.name).isSome =
    false
  tags : (tagNames env m.tags).Nodup
  texts : c.Fits (tagNames env m.tags)
  locales : (m.i18n.map (·.1)).Nodup

def UploadCall.creating (env : Env) (m : UploadedMetadata) : List UploadCall :=
  .selectPlugin :: (if (tagNames env m.tags).isEmpty then [] else [.selectTags, .flushTags]) ++
    [.flushPlugin, .refreshPlugin, .commitPlugin]

def UploadCall.afterwards : List UploadCall :=
  [.reloadPlugin, .refreshAfterPlugin, .readSettings, .uploadFile, .commitVersion, .reloadVersion,
    .refreshAfterVersion, .enqueue]

def UploadFaults.Pass (faults : UploadFaults) (calls : List UploadCall) : Prop :=
  ∀ call ∈ calls, faults call = none

namespace Catalog.Sound

theorem tagsAdded (h : c.Sound) {m : UploadedMetadata} (hm : (tagNames env m.tags).Nodup) :
    (c.tagsAdded env m).2.Sound :=
  h.addTags hm

theorem pluginAdded (h : c.Sound) {m : UploadedMetadata} (hm : c.Accepts env m)
    (repoUrl : String) : (c.pluginAdded env m repoUrl).Sound := by
  have ht := h.tagged_of (tagNames env m.tags)
  have hs := h.tagsAdded hm.tags
  refine hs.addPlugin ?_ ((ht.nodup_iff hs.tagsUnique).mpr hm.tags) ?_
  · intro p b hb hkey
    have hplugins : (c.tagsAdded env m).2.rows.plugins = c.rows.plugins := by
      rw [Catalog.tagsAdded, ht.rows]
    rw [hplugins] at hb
    have hnone := Option.not_isSome_iff_eq_none.mp (Bool.not_eq_true _ ▸ hm.key)
    exact of_decide_eq_false (Table.first_none.mp hnone p b hb) hkey
  · intro tag htag
    have hmem : (c.tagsAdded env m).2.tags.lookup tag ∈ (tagNames env m.tags).map some :=
      ht.named ▸ List.mem_map_of_mem htag
    obtain ⟨name, -, hname⟩ := List.mem_map.mp hmem
    rw [← hname]
    rfl

theorem lookup_pluginAdded (m : UploadedMetadata) (repoUrl : String) :
    (c.pluginAdded env m repoUrl).rows.plugins.lookup (c.tagsAdded env m).2.rows.nextId =
      some (.new (inferPluginKey env m.metadata.name) m.metadata repoUrl) := by
  change ((c.tagsAdded env m).2.rows.addPlugin _).plugins.lookup _ = _
  rw [Db.lookup_addPlugin, if_pos rfl]

theorem pluginCreated (h : c.Sound) {m : UploadedMetadata} (hm : c.Accepts env m)
    (repoUrl : String) : (c.pluginCreated env m repoUrl).Sound := by
  have ht := h.tagged_of (tagNames env m.tags)
  refine (h.pluginAdded hm repoUrl).addTranslations ?_ ?_ hm.locales
  · rw [lookup_pluginAdded]
    rfl
  · intro t hin
    exact (h.tagsAdded hm.tags).plugin_fresh ((h.tagsAdded hm.tags).translated t hin)

/-- What the three flushes of `create_plugin` ask for. -/
theorem accepts_iff (h : c.Sound) (m : UploadedMetadata) (repoUrl : String)
    (hkey : (c.rows.plugins.first fun _ p =>
      p.pluginKey = inferPluginKey env m.metadata.name).isSome = false) :
    (c.Fits (tagNames env m.tags) ∧ (c.tagsAdded env m).2.Constraints) ∧
      (c.pluginAdded env m repoUrl).Constraints ∧ (c.pluginCreated env m repoUrl).Constraints ↔
        c.Accepts env m := by
  constructor
  · rintro ⟨⟨hfits, -⟩, hplugin, hcreated⟩
    have ht := h.tagged_of (tagNames env m.tags)
    exact ⟨hkey, (ht.nodup_iff hplugin.tagNames).mp (nodup_of_addPlugin hplugin), hfits,
      nodup_of_addTranslations hcreated⟩
  · intro hm
    exact ⟨⟨hm.texts, (h.tagsAdded hm.tags).constraints⟩, (h.pluginAdded hm repoUrl).constraints,
      (h.pluginCreated hm repoUrl).constraints⟩

end Catalog.Sound

def Unchanged (c : Catalog) (x : Outside) (s : Session Catalog Outside) : Prop :=
  s.committed = c ∧ s.outside = x

/-- The tags of a request are found or added; where that fails, nothing is changed. -/
theorem ensureTags_runs (h : c.Sound) (names : List String) :
    (ensureTags env faults names).Runs (Session.start c x)
      (((tagNames env names).isEmpty = false →
          faults .selectTags = none ∧ faults .flushTags = none) ∧
        c.Fits (tagNames env names) ∧ (c.addTags c.tagNamed (tagNames env names)).2.Constraints)
      (fun tags t => tags = (c.addTags c.tagNamed (tagNames env names)).1 ∧
        t = ⟨(c.addTags c.tagNamed (tagNames env names)).2, c, x, false, false⟩)
      (Unchanged c x) := by
  unfold ensureTags
  cases hempty : (tagNames env names).isEmpty with
  | true =>
    have hnone : c.addTags c.tagNamed (tagNames env names) = ([], c) := by
      rw [List.isEmpty_iff.mp hempty]
      rfl
    rw [if_pos rfl, hnone]
    refine ⟨fun _ => ⟨[], _, rfl, rfl, rfl⟩, fun hnot => absurd ⟨?_, ?_, h.constraints⟩ hnot⟩
    · intro hfalse
      cases hfalse
    · rw [List.isEmpty_iff.mp hempty]
      exact ⟨rfl, rfl⟩
  | false =>
    rw [if_neg (by simp)]
    refine .congr (.raising _ ⟨rfl, rfl⟩ (.refusing _ _ ⟨rfl, rfl⟩ fun _ =>
      .step (Work.query_run _ h.constraints) (.step rfl (.raising _ ⟨rfl, rfl⟩
        (.refusing _ _ ⟨rfl, rfl⟩ fun _ => .flushing ⟨rfl, rfl⟩ fun _ => .pure ⟨rfl, rfl⟩))))) ?_
    constructor
    · rintro ⟨hselect, hnul, hflush, hlength, hadded, -⟩
      exact ⟨fun _ => ⟨hselect, hflush⟩,
        ⟨Bool.eq_false_of_not_eq_true hnul, Bool.eq_false_of_not_eq_true hlength⟩, hadded⟩
    · rintro ⟨hcalls, hfits, hadded⟩
      obtain ⟨hselect, hflush⟩ := hcalls rfl
      exact ⟨hselect, Bool.eq_false_iff.mp hfits.nul, hflush, Bool.eq_false_iff.mp hfits.length,
        hadded, trivial⟩

theorem UploadFaults.pass_creating (m : UploadedMetadata) :
    faults.Pass (UploadCall.creating env m) ↔ faults .selectPlugin = none ∧
      ((tagNames env m.tags).isEmpty = false →
        faults .selectTags = none ∧ faults .flushTags = none) ∧
      faults .flushPlugin = none ∧ faults .refreshPlugin = none ∧ faults .commitPlugin = none := by
  unfold UploadFaults.Pass UploadCall.creating
  cases (tagNames env m.tags).isEmpty <;> simp [and_assoc]

variable (env faults x) in
/-- `create_plugin` up to its commit: it commits the new rows, or it leaves nothing behind. -/
theorem createPluginRows_runs (h : c.Sound) (m : UploadedMetadata) (repoUrl : String) :
    (createPluginRows env faults m repoUrl).Runs (Session.start c x)
      (faults.Pass (UploadCall.creating env m) ∧ c.Accepts env m)
      (fun created t => created = ((c.tagsAdded env m).2.rows.nextId,
          .new (inferPluginKey env m.metadata.name) m.metadata repoUrl) ∧
        t = Session.start (c.pluginCreated env m repoUrl) x)
      (Unchanged c x) := by
  unfold createPluginRows
  apply Work.Runs.congr
  · apply Work.Runs.raising _ ⟨rfl, rfl⟩
    apply Work.Runs.step (Work.query_run _ h.constraints)
    apply Work.Runs.refusing _ _ ⟨rfl, rfl⟩
    intro _
    apply Work.Runs.bind (ensureTags_runs h m.tags)
    rintro tags t ⟨rfl, rfl⟩
    exact .step rfl (.raising _ ⟨rfl, rfl⟩ (.flushing ⟨rfl, rfl⟩ fun _ =>
      .raising _ ⟨rfl, rfl⟩ (.step rfl (.raising _ ⟨rfl, rfl⟩ (.committing ⟨rfl, rfl⟩ fun _ =>
        .pure ⟨rfl, rfl⟩)))))
  · rw [UploadFaults.pass_creating]
    constructor
    · rintro ⟨hselect, hkey, ⟨htags, htagged⟩, hflush, hadded, hrefresh, hcommit, hcreated, -⟩
      exact ⟨⟨hselect, htags, hflush, hrefresh, hcommit⟩,
        (h.accepts_iff m repoUrl (Bool.eq_false_iff.mpr hkey)).mp ⟨htagged, hadded, hcreated⟩⟩
    · rintro ⟨⟨hselect, htags, hflush, hrefresh, hcommit⟩, haccepts⟩
      obtain ⟨htagged, hadded, hcreated⟩ := (h.accepts_iff m repoUrl haccepts.key).mpr haccepts
      exact ⟨hselect, Bool.eq_false_iff.mp haccepts.key, ⟨htags, htagged⟩, hflush, hadded,
        hrefresh, hcommit, hcreated, trivial⟩

theorem addVersion_run (version : PluginVersion) (s : Session Catalog Outside) :
    (addVersion version).run s = .ok s.pending.rows.nextId
      { s with pending := { s.pending with rows := s.pending.rows.addVersion version } } := rfl

def Catalog.versionAdded (c : Catalog) (now : Time) (pluginId : PluginId) (plugin : Plugin)
    (version : String) : Catalog :=
  { c with rows := c.rows.addVersion (c.rows.manualVersion now pluginId plugin version) }

theorem Catalog.Sound.versionAdded (h : c.Sound) {pluginId : PluginId} {plugin : Plugin}
    (ha : c.rows.plugins.lookup pluginId = some plugin) (now : Time) (version : String) :
    (c.versionAdded now pluginId plugin version).Sound :=
  ⟨h.rows.manualVersion ha now version, h.tagsUnique, h.pluginTags, h.tagged, h.locales,
    h.translated, fun i hi => h.numbered i (Nat.le_of_succ_le hi)⟩

def Outside.uploaded (x : Outside) (c : Catalog) (plugin : Plugin) (content : Blob)
    (version : String) : Outside :=
  { x with bucket := AList.insert (c.rows.manualKey plugin version) content x.bucket }

def Keeps (pluginId : PluginId) (plugin : Plugin) (s : Session Catalog Outside) : Prop :=
  s.committed.Sound ∧ s.committed.rows.plugins.lookup pluginId = some plugin

/-- `create_version_from_upload` for a plugin that has just been created. -/
theorem createVersionFromUploadUnder_runs (h : c.Sound) {pluginId : PluginId} {plugin : Plugin}
    {metadata : PluginMetadata} (ha : c.rows.plugins.lookup pluginId = some plugin)
    (hm : assertMetadataMatchesPlugin env metadata plugin = .ok ()) (content : Blob)
    (version : String) :
    (createVersionFromUploadUnder env faults pluginId plugin metadata content version).Runs
      (Session.start c x)
      (faults .readSettings = none ∧ faults .uploadFile = none ∧ faults .commitVersion = none ∧
        faults .reloadVersion = none ∧ faults .refreshAfterVersion = none)
      (fun versionId t => versionId = c.rows.nextId ∧
        t = Session.start (c.versionAdded env.now pluginId plugin version)
          (x.uploaded c plugin content version))
      (Keeps pluginId plugin) := by
  have hadded := h.versionAdded ha env.now version
  unfold createVersionFromUploadUnder
  rw [hm]
  apply Work.Runs.congr
  · apply Work.Runs.step (Work.lift_ok _ _)
    apply Work.Runs.raising _ ⟨h, ha⟩
    apply Work.Runs.step (Work.query_run _ h.constraints)
    apply Work.Runs.raising _ ⟨h, ha⟩
    apply Work.Runs.step (Work.emit_run _ _)
    apply Work.Runs.step (addVersion_run _ _)
    apply Work.Runs.raising _ ⟨h, ha⟩
    apply Work.Runs.committing ⟨h, ha⟩
    intro _
    apply Work.Runs.raising _ ⟨hadded, ha⟩
    apply Work.Runs.raising _ ⟨hadded, ha⟩
    exact .pure ⟨rfl, rfl⟩
  · constructor
    · rintro ⟨hread, hupload, hcommit, -, hreload, hrefresh, -⟩
      exact ⟨hread, hupload, hcommit, hreload, hrefresh⟩
    · rintro ⟨hread, hupload, hcommit, hreload, hrefresh⟩
      exact ⟨hread, hupload, hcommit, hadded.constraints, hreload, hrefresh, trivial⟩

def Catalog.Creates (c : Catalog) (env : Env) (yaml : Yaml) (upload : PluginUpload)
    (faults : UploadFaults) : Prop :=
  faults .process = none ∧
    ∃ m, uploadedMetadata yaml upload.limits upload.archive = .ok m ∧
      faults.Pass (UploadCall.creating env m) ∧ c.Accepts env m

theorem uploadPlugin_undone (h : c.Sound) {yaml : Yaml} {upload : PluginUpload}
    (hnot : ¬c.Creates env yaml upload faults) :
    ∃ e t, (uploadPlugin env faults yaml upload).run (Session.start c x) = .error e t ∧
      Unchanged c x t := by
  unfold uploadPlugin
  cases hprocess : faults .process with
  | some e => exact ⟨e, Session.start c x, rfl, rfl, rfl⟩
  | none =>
    cases hm : uploadedMetadata yaml upload.limits upload.archive with
    | error e => exact ⟨e, Session.start c x, rfl, rfl, rfl⟩
    | ok m =>
      have hfails := (createPluginRows_runs env faults x h m (m.metadata.repo.getD "")).error
        fun hpass => hnot ⟨hprocess, m, hm, hpass⟩
      obtain ⟨e, t, hrun, hunchanged⟩ := hfails
      refine ⟨e, t, ?_, hunchanged⟩
      have hcreate : (createPluginUnder env faults m (m.metadata.repo.getD "")).run
          (Session.start c x) = .error e t := by
        rw [createPluginUnder, Work.bind_run, hrun]
      rw [Work.bind_run, Work.raiseAny_run]
      dsimp only
      rw [Work.bind_run, Work.lift_ok]
      dsimp only
      rw [Work.bind_run, hcreate]

theorem assertMetadataMatchesPlugin_new (metadata : PluginMetadata) (repoUrl : String) :
    assertMetadataMatchesPlugin env metadata
      (.new (inferPluginKey env metadata.name) metadata repoUrl) = .ok () := by
  unfold assertMetadataMatchesPlugin
  simp only [Plugin.new, ne_eq, not_true_eq_false, if_false]

theorem UploadFaults.pass_afterwards :
    faults.Pass UploadCall.afterwards ↔
      (faults .reloadPlugin = none ∧ faults .refreshAfterPlugin = none) ∧
      (faults .readSettings = none ∧ faults .uploadFile = none ∧ faults .commitVersion = none ∧
        faults .reloadVersion = none ∧ faults .refreshAfterVersion = none) ∧
      faults .enqueue = none := by
  unfold UploadFaults.Pass UploadCall.afterwards
  simp [and_assoc]

def UploadedMetadata.plugin (m : UploadedMetadata) (env : Env) : Plugin :=
  .new (inferPluginKey env m.metadata.name) m.metadata (m.metadata.repo.getD "")

def Catalog.afterUpload (c : Catalog) (env : Env) (m : UploadedMetadata) : Catalog :=
  (c.pluginCreated env m (m.metadata.repo.getD "")).versionAdded env.now
    (c.tagsAdded env m).2.rows.nextId (m.plugin env) m.metadata.version

theorem enqueueScan_runs {s : Session Catalog Outside} {versionId : VersionId} {db : Catalog}
    {raised : Session Catalog Outside → Prop} (hs : s.committed = db) :
    Work.Runs (Work.when env.redis do
        Work.emit fun x => { x with tasks := x.tasks ++ [⟨"scan", versionId, 0⟩] } : CatalogOp Unit)
      s True (fun _ t => t.committed = db) raised := by
  refine ⟨fun _ => ?_, fun hnot => absurd trivial hnot⟩
  cases hredis : env.redis
  · exact ⟨(), s, rfl, hs⟩
  · exact ⟨(), _, rfl, hs⟩

variable (env c) in
theorem Catalog.Sound.lookup_pluginCreated (m : UploadedMetadata) :
    (c.pluginCreated env m (m.metadata.repo.getD "")).rows.plugins.lookup
      (c.tagsAdded env m).2.rows.nextId = some (m.plugin env) :=
  lookup_pluginAdded m _

theorem createPluginUnder_runs (h : c.Sound) {m : UploadedMetadata}
    (hpass : faults.Pass (UploadCall.creating env m)) (hacc : c.Accepts env m) :
    (createPluginUnder env faults m (m.metadata.repo.getD "")).Runs (Session.start c x)
      (faults .reloadPlugin = none ∧ faults .refreshAfterPlugin = none)
      (fun created t => created = ((c.tagsAdded env m).2.rows.nextId, m.plugin env) ∧
        t = Session.start (c.pluginCreated env m (m.metadata.repo.getD "")) x)
      (Keeps (c.tagsAdded env m).2.rows.nextId (m.plugin env)) := by
  have hs := h.pluginCreated hacc (m.metadata.repo.getD "")
  have ha := Catalog.Sound.lookup_pluginCreated env c m
  obtain ⟨created, t, hrows, rfl, rfl⟩ := (createPluginRows_runs env faults x h m
    (m.metadata.repo.getD "")).ok ⟨hpass, hacc⟩
  unfold createPluginUnder
  apply Work.Runs.congr
  · apply Work.Runs.step hrows
    apply Work.Runs.raising _ ⟨hs, ha⟩
    apply Work.Runs.raising _ ⟨hs, ha⟩
    exact .pure ⟨rfl, rfl⟩
  · rw [and_true]

/-- After the commit of `create_plugin` the plugin stays, whatever else happens. -/
theorem uploadPlugin_created (h : c.Sound) {yaml : Yaml} {upload : PluginUpload}
    {m : UploadedMetadata} (hprocess : faults .process = none)
    (hm : uploadedMetadata yaml upload.limits upload.archive = .ok m)
    (hpass : faults.Pass (UploadCall.creating env m)) (hacc : c.Accepts env m) :
    (uploadPlugin env faults yaml upload).Runs (Session.start c x)
      (faults.Pass UploadCall.afterwards)
      (fun _ t => t.committed = c.afterUpload env m)
      (Keeps (c.tagsAdded env m).2.rows.nextId (m.plugin env)) := by
  have hs := h.pluginCreated hacc (m.metadata.repo.getD "")
  have ha := Catalog.Sound.lookup_pluginCreated env c m
  unfold uploadPlugin
  rw [hprocess, hm, UploadFaults.pass_afterwards]
  apply Work.Runs.congr
  · apply Work.Runs.step rfl
    apply Work.Runs.step (Work.lift_ok _ _)
    apply Work.Runs.bind (createPluginUnder_runs h hpass hacc)
    rintro created t ⟨rfl, rfl⟩
    apply Work.Runs.bind (createVersionFromUploadUnder_runs hs ha
      (assertMetadataMatchesPlugin_new ..) upload.content m.metadata.version)
    rintro versionId t ⟨rfl, rfl⟩
    apply Work.Runs.raising _ ⟨hs.versionAdded ha _ _, ha⟩
    exact enqueueScan_runs rfl
  · simp only [and_true, and_assoc]

end

structure Catalog.NoneAdded (c c' : Catalog) : Prop where
  plugins : ∀ i, (c'.rows.plugins.lookup i).isSome → (c.rows.plugins.lookup i).isSome
  versions : ∀ i, (c'.rows.versions.lookup i).isSome → (c.rows.versions.lookup i).isSome
  tags : ∀ i, (c'.tags.lookup i).isSome → (c.tags.lookup i).isSome
  i18n : ∀ row ∈ c'.i18n, row ∈ c.i18n

def UploadFaults.calm : UploadFaults := fun _ => none

def PluginUpload.perform (upload : PluginUpload) (env : Env) (yaml : Yaml) (faults : UploadFaults)
    (c : Catalog) (x : Outside) : Report PyErr Catalog Outside Unit :=
  (uploadPlugin env faults yaml upload).perform c x

/-- If the endpoint raises, then no row has been added, and the same upload goes
through once no call raises, if it would have gone through at first. -/
def PluginUpload.Atomic (upload : PluginUpload) (env : Env) (yaml : Yaml) (faults : UploadFaults)
    (c : Catalog) (x : Outside) : Prop :=
  ∀ e, (upload.perform env yaml faults c x).outcome = .error e →
    c.NoneAdded (upload.perform env yaml faults c x).db ∧
    ∀ env', (upload.perform env' yaml .calm c x).outcome = .ok () →
      (upload.perform env' yaml .calm (upload.perform env yaml faults c x).db
        (upload.perform env yaml faults c x).outside).outcome = .ok ()

section
variable {c : Catalog} {env : Env} {yaml : Yaml} {upload : PluginUpload} {faults : UploadFaults}
  {x : Outside}

theorem PluginUpload.perform_sound (h : c.Sound) :
    (upload.perform env yaml faults c x).db.Sound := by
  by_cases hcreates : c.Creates env yaml upload faults
  · obtain ⟨hprocess, m, hm, hpass, hacc⟩ := hcreates
    have hruns := uploadPlugin_created (x := x) h hprocess hm hpass hacc
    by_cases hall : faults.Pass UploadCall.afterwards
    · obtain ⟨u, t, hrun, hcommitted⟩ := hruns.ok hall
      rw [PluginUpload.perform, Work.perform_of_ok hrun, hcommitted]
      exact (h.pluginCreated hacc _).versionAdded (Catalog.Sound.lookup_pluginCreated env c m) _ _
    · obtain ⟨e, t, hrun, hkeeps⟩ := hruns.error hall
      rw [PluginUpload.perform, Work.perform_of_error hrun]
      exact hkeeps.1
  · obtain ⟨e, t, hrun, hcommitted, -⟩ := uploadPlugin_undone (x := x) h hcreates
    rw [PluginUpload.perform, Work.perform_of_error hrun, hcommitted]
    exact h

/-- Whoever has the key of an archive's plugin, its upload is refused. -/
theorem PluginUpload.perform_taken (h : c.Sound) {m : UploadedMetadata}
    (hm : uploadedMetadata yaml upload.limits upload.archive = .ok m) {id : PluginId}
    {plugin : Plugin} (hid : c.rows.plugins.lookup id = some plugin)
    (hkey : plugin.pluginKey = inferPluginKey env m.metadata.name) :
    (upload.perform env yaml .calm c x).outcome =
      .error (conflict ("Plugin key already exists: " ++ inferPluginKey env m.metadata.name)) := by
  have htaken : (c.rows.plugins.first fun _ p =>
      p.pluginKey = inferPluginKey env m.metadata.name).isSome = true := by
    cases hfirst : c.rows.plugins.first fun _ p =>
      p.pluginKey = inferPluginKey env m.metadata.name with
    | some _ => rfl
    | none => exact absurd hkey (of_decide_eq_false (Table.first_none.mp hfirst id plugin hid))
  have hcalm : ∀ call s, (Work.raiseAny (UploadFaults.calm call) : CatalogOp Unit).run s =
      .ok () s := fun _ _ => rfl
  have hrows : (createPluginRows env .calm m (m.metadata.repo.getD "")).run (Session.start c x) =
      .error (conflict ("Plugin key already exists: " ++ inferPluginKey env m.metadata.name))
        (Session.start c x) := by
    rw [createPluginRows, Work.bind_run, hcalm]
    dsimp only
    rw [Work.bind_run, Session.start, Work.query_run _ h.constraints]
    dsimp only
    rw [Work.bind_run, Work.refuse_run, if_pos htaken]
  have hrun : (uploadPlugin env .calm yaml upload).run (Session.start c x) =
      .error (conflict ("Plugin key already exists: " ++ inferPluginKey env m.metadata.name))
        (Session.start c x) := by
    rw [uploadPlugin, hm, Work.bind_run, hcalm]
    dsimp only
    rw [Work.bind_run, Work.lift_ok]
    dsimp only
    rw [Work.bind_run, createPluginUnder, Work.bind_run, hrows]
  rw [PluginUpload.perform, Work.perform_of_error hrun]

/-- Once a call has raised after the commit of `create_plugin`, the same upload
is refused for good. -/
theorem PluginUpload.repeat_refused (h : c.Sound) (hcreates : c.Creates env yaml upload faults)
    (hraises : ¬faults.Pass UploadCall.afterwards) {env' : Env} (henv : env'.lower = env.lower)
    (x' : Outside) :
    ∃ pluginKey, (upload.perform env' yaml .calm (upload.perform env yaml faults c x).db x').outcome =
      .error (conflict ("Plugin key already exists: " ++ pluginKey)) := by
  obtain ⟨hprocess, m, hm, hpass, hacc⟩ := hcreates
  obtain ⟨e, t, hrun, hsound, hplugin⟩ :=
    (uploadPlugin_created (x := x) h hprocess hm hpass hacc).error hraises
  have hperform : upload.perform env yaml faults c x = _ := Work.perform_of_error hrun
  rw [hperform]
  refine ⟨_, PluginUpload.perform_taken hsound hm hplugin ?_⟩
  change inferPluginKey env m.metadata.name = inferPluginKey env' m.metadata.name
  rw [inferPluginKey, inferPluginKey, henv]

/-- Without tags and translations the rows are those that the service's own
operations leave: a new plugin, then a manual upload of its first version. -/
theorem Catalog.afterUpload_rows (h : c.Sound) {m : UploadedMetadata} (hacc : c.Accepts env m)
    (htags : tagNames env m.tags = []) (content : Blob) (hcalm : ∀ site, env.fault site = none) :
    (c.afterUpload env m).rows =
      let created := (Operation.createPlugin m.metadata (m.metadata.repo.getD "")).perform env
        c.rows x
      ((Operation.uploadVersion c.rows.nextId m.metadata content m.metadata.version).perform env
        created.db created.outside).db := by
  have hnone : c.tagsAdded env m = ([], c) := by
    rw [Catalog.tagsAdded, htags]
    rfl
  have hrows : (c.pluginCreated env m (m.metadata.repo.getD "")).rows =
      c.rows.addPlugin (m.plugin env) := by
    rw [Catalog.pluginCreated, Catalog.pluginAdded, hnone]
    rfl
  have hsound : (c.rows.addPlugin (m.plugin env)).Sound :=
    hrows ▸ (h.pluginCreated hacc (m.metadata.repo.getD "")).rows
  have hcreated : ((Operation.createPlugin m.metadata (m.metadata.repo.getD "")).perform env
      c.rows x).db = c.rows.addPlugin (m.plugin env) := by
    rw [((Operation.createPlugin m.metadata (m.metadata.repo.getD "")).performs env x h.rows).rows,
      Operation.rows, Db.afterCreate, hacc.key]
    rfl
  have hself : (c.rows.addPlugin (m.plugin env)).plugins.lookup c.rows.nextId =
      some (m.plugin env) := by
    rw [Db.lookup_addPlugin, if_pos rfl]
  have hinputs : (c.rows.addPlugin (m.plugin env)).uploadInputs env c.rows.nextId m.metadata
      m.metadata.version = .ok (m.plugin env, m.metadata.version) := by
    rw [Db.uploadInputs, hself]
    dsimp only
    rw [UploadedMetadata.plugin, assertMetadataMatchesPlugin_new, ite_self]
  dsimp only
  rw [((Operation.uploadVersion c.rows.nextId m.metadata content m.metadata.version).performs env
    _ (hcreated ▸ hsound)).rows, hcreated, Operation.rows, Db.afterUpload, hinputs, hcalm]
  rw [Catalog.afterUpload, Catalog.versionAdded, hrows, hnone]

end

/-- A first upload is atomic unless a call raises after the commit of `create_plugin`. -/
theorem first_upload_atomic_iff {c : Catalog} (h : c.Sound) (env : Env) (yaml : Yaml)
    (upload : PluginUpload) (faults : UploadFaults) (x : Outside) :
    upload.Atomic env yaml faults c x ↔
      (c.Creates env yaml upload faults → faults.Pass UploadCall.afterwards) := by
  by_cases hcreates : c.Creates env yaml upload faults
  · rw [imp_iff_right hcreates]
    obtain ⟨hprocess, m, hm, hpass, hacc⟩ := hcreates
    have hruns := uploadPlugin_created (x := x) h hprocess hm hpass hacc
    constructor
    · intro hatomic
      by_contra hraises
      obtain ⟨e, t, hrun, hstays⟩ := hruns.error hraises
      have hperform : upload.perform env yaml faults c x = _ := Work.perform_of_error hrun
      have hnone := (hatomic e (by rw [hperform])).1.plugins (c.tagsAdded env m).2.rows.nextId
        (by rw [hperform, hstays.2]; rfl)
      have hfresh := (h.rows.numbered _ (h.tagged_of (tagNames env m.tags)).grows).2
      rw [Catalog.tagsAdded, hfresh] at hnone
      cases hnone
    · intro hall e he
      obtain ⟨u, t, hrun, -⟩ := hruns.ok hall
      have hperform : upload.perform env yaml faults c x = _ := Work.perform_of_ok hrun
      rw [hperform] at he
      cases he
  · obtain ⟨e, t, hrun, hcommitted, houtside⟩ := uploadPlugin_undone (x := x) h hcreates
    have hperform : upload.perform env yaml faults c x = _ := Work.perform_of_error hrun
    refine ⟨fun _ hyes => absurd hyes hcreates, fun _ e' _ => ?_⟩
    rw [hperform, hcommitted, houtside]
    exact ⟨⟨fun _ hi => hi, fun _ hi => hi, fun _ hi => hi, fun _ hrow => hrow⟩,
      fun _ hrepeat => hrepeat⟩

def bareUpload : PluginUpload where
  limits := demoLimits
  archive := ⟨300, [storedFile "metadata.yaml" (demoFile "1.0.0")]⟩
  content := []

def bareFiles : FileSystem :=
  AList.insert ["metadata.yaml"] (.file (demoFile "1.0.0") (demoFile "1.0.0").length) ∅

def bareMetadata : UploadedMetadata :=
  ⟨⟨"demo", "alice", "1.0.0", none⟩, [], []⟩

theorem bareUpload_accepted :
    uploadedMetadata demoYaml bareUpload.limits bareUpload.archive = .ok bareMetadata := by
  have hsize : ¬bareUpload.limits.maxUploadBytes < (bareUpload.archive.byteSize : Int) := by
    decide
  have hinspected : inspectZip bareUpload.limits bareUpload.archive = .ok () := by
    decide
  have hfiles : safeUnzip bareUpload.archive = .ok bareFiles := rfl
  have hpath : findMetadataYaml bareFiles = .ok ["metadata.yaml"] := rfl
  have hread : bareFiles.read ["metadata.yaml"] = .ok (demoFile "1.0.0") := rfl
  have hload : loadMapping demoYaml (demoFile "1.0.0") = .ok (demoData "1.0.0") := by
    rw [loadMapping, except_bind_eq (demoYaml_load "1.0.0")]
    rfl
  rw [uploadedMetadata, if_neg hsize, except_bind_eq hinspected, except_bind_eq hfiles,
    except_bind_eq hpath, except_bind_eq hread, except_bind_eq hload]
  rfl

def storeDown : UploadFaults := fun call =>
  if call = .uploadFile then some ⟨.clientError, "connection refused", 0⟩ else none

theorem bareUpload_creates :
    (Catalog.empty .default).Creates (Env.calm 0) demoYaml bareUpload storeDown := by
  refine ⟨rfl, bareMetadata, bareUpload_accepted, ?_, rfl, List.nodup_nil, ⟨rfl, rfl⟩,
    List.nodup_nil⟩
  intro call hcall
  have hnames : (tagNames (Env.calm 0) bareMetadata.tags).isEmpty = true := rfl
  rw [UploadCall.creating, hnames, if_pos rfl] at hcall
  simp only [List.cons_append, List.nil_append, List.mem_cons, List.not_mem_nil, or_false] at hcall
  rcases hcall with rfl | rfl | rfl | rfl <;> rfl

theorem first_upload_atomic_iff_stored :
    bareUpload.Atomic (Env.calm 0) demoYaml (fun _ => none) (.empty .default) ⟨∅, [], ∅⟩ := by
  apply (first_upload_atomic_iff (.empty .default) (Env.calm 0) demoYaml bareUpload _ _).mpr
  intro _ call _
  rfl

/-- An object store that is down for the first upload of a plugin: the plugin is
there without a version, and its upload is refused from then on. -/
theorem store_failure_keeps_plugin :
    ¬bareUpload.Atomic (Env.calm 0) demoYaml storeDown (.empty .default) ⟨∅, [], ∅⟩ := by
  intro hatomic
  have hraises : ¬storeDown.Pass UploadCall.afterwards := by
    intro hpass
    have hstore := hpass .uploadFile (by decide)
    cases hstore
  obtain ⟨hprocess, m, hm, hpass, hacc⟩ := bareUpload_creates
  obtain ⟨e, t, hrun, -, hplugin⟩ := (uploadPlugin_created (x := ⟨∅, [], ∅⟩)
    (.empty .default) hprocess hm hpass hacc).error hraises
  have hperform : bareUpload.perform (Env.calm 0) demoYaml storeDown (.empty .default)
      ⟨∅, [], ∅⟩ = _ := Work.perform_of_error hrun
  have hnone := (hatomic e (by rw [hperform])).1.plugins _ (by rw [hperform, hplugin]; rfl)
  cases hnone

end PluginRegistry
