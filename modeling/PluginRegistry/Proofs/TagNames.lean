import Mathlib.Data.List.Dedup
import PluginRegistry.Proofs.TakenNames

namespace PluginRegistry
open Lib

/-- Each distinct name has its tag in the result once, and the table has grown by
exactly the names that were missing. -/
structure Catalog.TagsEnsured (env : Env) (c : Catalog) (names : List String)
    (tags : List TagId) (c' : Catalog) : Prop where
  returned : (tags.map fun tag => c'.tags.lookup tag).Perm ((tagNames env names).dedup.map some)
  kept : ∀ i a, c.tags.lookup i = some a → c'.tags.lookup i = some a
  exactly : ∀ a, (∃ i, c'.tags.lookup i = some a) ↔
    (∃ i, c.tags.lookup i = some a) ∨ a ∈ tagNames env names
  unique : ∀ i a, c'.tags.lookup i = some a → ∀ j b, c'.tags.lookup j = some b → a = b → i = j

/-- The tags of a plugin are the distinct names, each once, and those of the
others are as they were. -/
structure Catalog.Associated (env : Env) (c : Catalog) (names : List String)
    (pluginId : PluginId) (c' : Catalog) : Prop where
  tags : ((c'.pluginTags.filter fun e => e.1 = pluginId).map fun e => c'.tags.lookup e.2).Perm
    ((tagNames env names).dedup.map some)
  others : (c'.pluginTags.filter fun e => e.1 ≠ pluginId) =
    c.pluginTags.filter fun e => e.1 ≠ pluginId
  once : c'.pluginTags.Nodup

section
variable (env : Env) (c : Catalog) (names : List String) (x : Outside)

def EnsuresTags : Prop :=
  ∃ tags t, (ensureTags env .calm names).run (Session.start c x) = .ok tags t ∧
    c.TagsEnsured env names tags t.pending

def CreatesTags : Prop :=
  ∀ (m : UploadedMetadata) (repoUrl : String), m.tags = names →
    (c.rows.plugins.first fun _ p => p.pluginKey = inferPluginKey env m.metadata.name) = none →
    (m.i18n.map (·.1)).Nodup →
    ∃ created t, (createPluginUnder env .calm m repoUrl).run (Session.start c x) = .ok created t ∧
      c.Associated env names created.1 t.committed ∧
      ∃ tags, c.TagsEnsured env names tags t.committed

def UpdatesTags : Prop :=
  ∀ pluginId, (c.rows.plugins.lookup pluginId).isSome →
    ∃ t, (updatePluginUnder env .calm pluginId (some names)).run (Session.start c x) = .ok () t ∧
      c.Associated env names pluginId t.committed ∧
      ∃ tags, c.TagsEnsured env names tags t.committed

structure KeepsTagsUnique : Prop where
  ensured : EnsuresTags env c names x
  created : CreatesTags env c names x
  updated : UpdatesTags env c names x

end

namespace Catalog
variable {env : Env} {c c' : Catalog} {existing : String → Option TagId} {names : List String}

/-- A new tag has one of the names. -/
theorem addTags_named {i : TagId} {a : String}
    (h : (c.addTags existing names).2.tags.lookup i = some a) :
    c.tags.lookup i = some a ∨ a ∈ names := by
  induction names generalizing c with
  | nil => exact Or.inl h
  | cons name rest ih =>
    rw [Catalog.addTags] at h
    cases he : existing name with
    | some tag =>
      rw [he] at h
      exact (ih h).imp_right (List.mem_cons_of_mem _)
    | none =>
      rw [he] at h
      rcases ih h with hold | hrest
      · rw [lookup_addTag] at hold
        split at hold
        · exact Or.inr (Option.some.inj hold ▸ List.mem_cons_self)
        · exact Or.inl hold
      · exact Or.inr (List.mem_cons_of_mem _ hrest)

theorem Tagged.mem {tags : List TagId} (h : c.Tagged names tags c') {a : String}
    (ha : a ∈ names) : ∃ i, c'.tags.lookup i = some a := by
  have hmem : some a ∈ tags.map (c'.tags.lookup ·) := h.named ▸ List.mem_map_of_mem ha
  obtain ⟨i, -, hi⟩ := List.mem_map.mp hmem
  exact ⟨i, hi⟩

theorem Sound.tagsEnsured (h : c.Sound) (hnames : (tagNames env names).Nodup) :
    c.TagsEnsured env names (c.addTags c.tagNamed (tagNames env names)).1
      (c.addTags c.tagNamed (tagNames env names)).2 := by
  have ht := h.tagged_of (tagNames env names)
  refine ⟨?_, ht.kept, fun a => ⟨?_, ?_⟩, (h.addTags hnames).tagsUnique⟩
  · rw [hnames.dedup]
    exact .of_eq ht.named
  · rintro ⟨i, hi⟩
    exact (addTags_named hi).imp_left fun hold => ⟨i, hold⟩
  · rintro (⟨i, hi⟩ | hmem)
    · exact ⟨i, ht.kept i a hi⟩
    · exact ht.mem hmem

/-- A list of names that are returned once each has no repetition. -/
theorem TagsEnsured.nodup {tags : List TagId} (h : c.TagsEnsured env names tags c')
    (ht : c.Tagged (tagNames env names) tags c') : (tagNames env names).Nodup := by
  have hperm := h.returned
  rw [ht.named] at hperm
  have hsome : Function.Injective (some : String → Option String) := fun _ _ => Option.some.inj
  have hnodup : ((tagNames env names).map some).Nodup :=
    hperm.nodup_iff.mpr ((List.nodup_dedup _).map hsome)
  exact hnodup.of_map _

theorem Sound.setTags (h : c.Sound) {pluginId : PluginId} {tags : List TagId}
    (hid : (c.rows.plugins.lookup pluginId).isSome) (hnodup : tags.Nodup)
    (htags : ∀ tag ∈ tags, (c.tags.lookup tag).isSome) : (c.setTags pluginId tags).Sound := by
  refine ⟨h.rows, h.tagsUnique, ?_, ?_, h.locales, h.translated, h.numbered⟩
  · refine List.nodup_append.mpr ⟨h.pluginTags.filter _, ?_, ?_⟩
    · exact (hnodup.filter _).map fun _ _ he => congrArg Prod.snd he
    · intro e he f hf hef
      obtain ⟨tag, htag, rfl⟩ := List.mem_map.mp hf
      have hnew : (pluginId, tag) ∉ c.pluginTags := by simpa using (List.mem_filter.mp htag).2
      exact hnew (hef ▸ (List.mem_filter.mp he).1)
  · intro e he
    rcases List.mem_append.mp he with hold | hnew
    · exact h.tagged e (List.mem_filter.mp hold).1
    · obtain ⟨tag, htag, rfl⟩ := List.mem_map.mp hnew
      exact ⟨hid, htags tag (List.mem_filter.mp htag).1⟩

theorem mem_setTags {pluginId : PluginId} {tags : List TagId} {tag : TagId} :
    (pluginId, tag) ∈ (c.setTags pluginId tags).pluginTags ↔ tag ∈ tags := by
  simp only [Catalog.setTags, List.mem_append, List.mem_filter, List.mem_map, Prod.mk.injEq,
    true_and, exists_eq_right, ne_eq, not_true_eq_false, decide_false, Bool.false_or,
    List.contains_iff_mem, Bool.not_eq_true', Bool.eq_false_iff]
  tauto

/-- The tags of the plugin itself, after the list has been set. -/
theorem setTags_own {pluginId : PluginId} {tags : List TagId} (hnodup : tags.Nodup)
    (hs : (c.setTags pluginId tags).pluginTags.Nodup) :
    (((c.setTags pluginId tags).pluginTags.filter fun e => e.1 = pluginId).map Prod.snd).Perm
      tags := by
  have hrows : (((c.setTags pluginId tags).pluginTags.filter fun e => e.1 = pluginId).map
      Prod.snd).Nodup := by
    refine (hs.filter _).map_on fun e he f hf hef => Prod.ext ?_ hef
    have hfirst := of_decide_eq_true (List.mem_filter.mp he).2
    have hsecond := of_decide_eq_true (List.mem_filter.mp hf).2
    exact hfirst.trans hsecond.symm
  refine (List.perm_ext_iff_of_nodup hrows hnodup).mpr fun tag => ?_
  have hmem : (pluginId, tag) ∈ (c.setTags pluginId tags).pluginTags ↔ tag ∈ tags := mem_setTags
  rw [← hmem]
  constructor
  · intro htag
    obtain ⟨⟨i, other⟩, he, rfl⟩ := List.mem_map.mp htag
    obtain ⟨hrow, hid⟩ := List.mem_filter.mp he
    obtain rfl : i = pluginId := of_decide_eq_true hid
    exact hrow
  · intro htag
    exact List.mem_map.mpr ⟨_, List.mem_filter.mpr ⟨htag, by simp⟩, rfl⟩

theorem setTags_others (pluginId : PluginId) (tags : List TagId) :
    ((c.setTags pluginId tags).pluginTags.filter fun e => e.1 ≠ pluginId) =
      c.pluginTags.filter fun e => e.1 ≠ pluginId := by
  have hnone : ((tags.filter fun tag => !c.pluginTags.contains (pluginId, tag)).map fun tag =>
      (pluginId, tag)).filter (fun e => e.1 ≠ pluginId) = [] := by
    rw [List.filter_eq_nil_iff]
    intro e he
    obtain ⟨tag, -, rfl⟩ := List.mem_map.mp he
    simp
  simp only [Catalog.setTags]
  rw [List.filter_append, hnone, List.append_nil, List.filter_filter]
  apply List.filter_congr
  intro e he
  by_cases hid : e.1 = pluginId <;> simp [hid]

theorem addPlugin_own (plugin : Plugin) {tags : List TagId}
    (hfresh : ∀ e ∈ c.pluginTags, e.1 ≠ c.rows.nextId) :
    ((c.addPlugin plugin tags).pluginTags.filter fun e => e.1 = c.rows.nextId).map Prod.snd =
      tags := by
  have hnone : c.pluginTags.filter (fun e => e.1 = c.rows.nextId) = [] := by
    rw [List.filter_eq_nil_iff]
    exact fun e he => by simpa using hfresh e he
  simp only [Catalog.addPlugin]
  rw [List.filter_append, hnone, List.nil_append, List.filter_eq_self.mpr (by simp), List.map_map]
  exact List.map_id _

theorem addPlugin_others (plugin : Plugin) (tags : List TagId) :
    ((c.addPlugin plugin tags).pluginTags.filter fun e => e.1 ≠ c.rows.nextId) =
      c.pluginTags.filter fun e => e.1 ≠ c.rows.nextId := by
  have hnone : (tags.map fun tag => (c.rows.nextId, tag)).filter
      (fun e => e.1 ≠ c.rows.nextId) = [] := by
    rw [List.filter_eq_nil_iff]
    intro e he
    obtain ⟨tag, -, rfl⟩ := List.mem_map.mp he
    simp
  simp only [Catalog.addPlugin]
  rw [List.filter_append, hnone, List.append_nil]

/-- What is ensured speaks of the tag table only. -/
theorem TagsEnsured.of_tags {tags : List TagId} {c₁ c₂ : Catalog}
    (h : c.TagsEnsured env names tags c₁) (htags : c₂.tags = c₁.tags) :
    c.TagsEnsured env names tags c₂ := by
  refine ⟨?_, ?_, ?_, ?_⟩
  · rw [htags]
    exact h.returned
  · rw [htags]
    exact h.kept
  · rw [htags]
    exact h.exactly
  · rw [htags]
    exact h.unique

/-- Rows whose tags are the returned ones associate each name once. -/
theorem TagsEnsured.associated {tags : List TagId} {c₁ c₂ : Catalog}
    (h : c.TagsEnsured env names tags c₁) {pluginId : PluginId} (hs : c₂.pluginTags.Nodup)
    (htags : c₂.tags = c₁.tags)
    (hown : ((c₂.pluginTags.filter fun e => e.1 = pluginId).map Prod.snd).Perm tags)
    (hothers : (c₂.pluginTags.filter fun e => e.1 ≠ pluginId) =
      c.pluginTags.filter fun e => e.1 ≠ pluginId) :
    c.Associated env names pluginId c₂ := by
  refine ⟨?_, hothers, hs⟩
  have hmap := hown.map fun tag => c₁.tags.lookup tag
  rw [List.map_map] at hmap
  rw [htags]
  exact hmap.trans h.returned

end Catalog

section
variable {env : Env} {c : Catalog} {names : List String} {x : Outside}

theorem ensureTags_calm (h : c.Sound) (names : List String) :
    (ensureTags env .calm names).Runs (Session.start c x)
      (c.Fits (tagNames env names) ∧ (c.addTags c.tagNamed (tagNames env names)).2.Constraints)
      (fun tags t => tags = (c.addTags c.tagNamed (tagNames env names)).1 ∧
        t = ⟨(c.addTags c.tagNamed (tagNames env names)).2, c, x, false, false⟩)
      (Unchanged c x) :=
  (ensureTags_runs h names).congr (and_iff_right fun _ => ⟨rfl, rfl⟩)

theorem ensuresTags_iff (h : c.Sound) :
    EnsuresTags env c names x ↔
      (tagNames env names).Nodup ∧ c.Fits (tagNames env names) := by
  constructor
  · rintro ⟨tags, t, hrun, hensured⟩
    by_cases hpass : c.Fits (tagNames env names) ∧
        (c.addTags c.tagNamed (tagNames env names)).2.Constraints
    · obtain ⟨tags', t', hrun', rfl, rfl⟩ := (ensureTags_calm h names).ok hpass
      cases hrun.symm.trans hrun'
      exact ⟨hensured.nodup (h.tagged_of _), hpass.1⟩
    · obtain ⟨e, t', hrun', -⟩ := (ensureTags_calm h names).error hpass
      cases hrun.symm.trans hrun'
  · rintro ⟨hnodup, hfits⟩
    obtain ⟨tags, t, hrun, rfl, rfl⟩ :=
      (ensureTags_calm h names).ok ⟨hfits, (h.addTags hnodup).constraints⟩
    exact ⟨_, _, hrun, h.tagsEnsured hnodup⟩

theorem createsTags (h : c.Sound) (hnodup : (tagNames env names).Nodup)
    (hfits : c.Fits (tagNames env names)) : CreatesTags env c names x := by
  intro m repoUrl htags hkey hlocales
  subst htags
  have hacc : c.Accepts env m := ⟨by rw [hkey]; rfl, hnodup, hfits, hlocales⟩
  obtain ⟨created, t, hrows, rfl, rfl⟩ :=
    (createPluginRows_runs env .calm x h m repoUrl).ok ⟨fun _ _ => rfl, hacc⟩
  have hs := h.tagsAdded hnodup
  refine ⟨((c.tagsAdded env m).2.rows.nextId,
      .new (inferPluginKey env m.metadata.name) m.metadata repoUrl),
    Session.start (c.pluginCreated env m repoUrl) x, ?_, ?_, (c.tagsAdded env m).1, ?_⟩
  · unfold createPluginUnder
    rw [Work.bind_run, hrows]
    rfl
  · refine (h.tagsEnsured hnodup).associated (h.pluginCreated hacc repoUrl).pluginTags rfl ?_ ?_
    · exact .of_eq (Catalog.addPlugin_own (.new (inferPluginKey env m.metadata.name) m.metadata
        repoUrl) fun e he => hs.plugin_fresh (hs.tagged e he).1)
    · refine (Catalog.addPlugin_others (.new (inferPluginKey env m.metadata.name) m.metadata
        repoUrl) _).trans ?_
      rw [Catalog.tagsAdded, (h.tagged_of (tagNames env m.tags)).pluginTags]
  · exact (h.tagsEnsured hnodup).of_tags rfl

def Catalog.tagsUpdated (c : Catalog) (env : Env) (pluginId : PluginId) (names : List String) :
    Catalog :=
  (c.addTags c.tagNamed (tagNames env names)).2.setTags pluginId
    (c.addTags c.tagNamed (tagNames env names)).1

theorem Catalog.Sound.tagsUpdated (h : c.Sound) {pluginId : PluginId}
    (hid : (c.rows.plugins.lookup pluginId).isSome) (hnodup : (tagNames env names).Nodup) :
    (c.tagsUpdated env pluginId names).Sound := by
  have ht := h.tagged_of (tagNames env names)
  have hs := h.addTags hnodup
  refine hs.setTags ?_ ((ht.nodup_iff hs.tagsUnique).mpr hnodup) fun tag htag => ?_
  · rw [ht.rows]
    exact hid
  · have hmem := ht.named ▸ List.mem_map_of_mem htag
    obtain ⟨name, -, hname⟩ := List.mem_map.mp hmem
    rw [← hname]
    rfl

theorem updateTags_run (h : c.Sound) {pluginId : PluginId}
    (hid : (c.rows.plugins.lookup pluginId).isSome) (hnodup : (tagNames env names).Nodup)
    (hfits : c.Fits (tagNames env names)) :
    (updateTags env .calm pluginId names).run (Session.start c x) =
      .ok () ⟨c.tagsUpdated env pluginId names, c, x, false, false⟩ := by
  obtain ⟨tags, t, hrun, rfl, rfl⟩ := (ensureTags_calm h names).ok
    ⟨hfits, (h.addTags hnodup).constraints⟩
  obtain ⟨plugin, hplugin⟩ := Option.isSome_iff_exists.mp hid
  unfold updateTags
  rw [Work.bind_run, Work.raiseAny_run]
  dsimp only [UploadFaults.calm]
  rw [Work.bind_run, Session.start, Work.query_run _ h.constraints]
  dsimp only
  rw [Work.bind_run, Work.refuse_run, if_neg (by simp [hplugin])]
  dsimp only
  rw [Work.bind_run]
  rw [Session.start] at hrun
  rw [hrun]
  rfl

theorem updatesTags (h : c.Sound) (hnodup : (tagNames env names).Nodup)
    (hfits : c.Fits (tagNames env names)) : UpdatesTags env c names x := by
  intro pluginId hid
  have ht := h.tagged_of (tagNames env names)
  have hs := h.addTags hnodup
  have hupdated := h.tagsUpdated hid hnodup
  refine ⟨Session.start (c.tagsUpdated env pluginId names) x, ?_, ?_,
    (c.addTags c.tagNamed (tagNames env names)).1, ?_⟩
  · unfold updatePluginUnder updateFields
    rw [Work.bind_run, updateTags_run h hid hnodup hfits]
    dsimp only
    rw [Work.bind_run, Work.raiseAny_run]
    dsimp only [UploadFaults.calm]
    rw [Work.bind_run, Work.commit_run hupdated.constraints]
    rfl
  · refine (h.tagsEnsured hnodup).associated hupdated.pluginTags rfl ?_ ?_
    · exact Catalog.setTags_own ((ht.nodup_iff hs.tagsUnique).mpr hnodup) hupdated.pluginTags
    · refine (Catalog.setTags_others _ _).trans ?_
      rw [ht.pluginTags]
  · exact (h.tagsEnsured hnodup).of_tags rfl

end

/-- The tags stay unique exactly when no name is asked for twice in one list and the
database takes every name. -/
theorem keeps_tags_unique_iff {c : Catalog} (h : c.Sound) (env : Env) (names : List String)
    (x : Outside) :
    KeepsTagsUnique env c names x ↔ (tagNames env names).Nodup ∧ c.Fits (tagNames env names) := by
  constructor
  · exact fun hkeeps => (ensuresTags_iff h).mp hkeeps.ensured
  · rintro ⟨hnodup, hfits⟩
    exact ⟨(ensuresTags_iff h).mpr ⟨hnodup, hfits⟩, createsTags h hnodup hfits,
      updatesTags h hnodup hfits⟩

theorem keeps_tags_unique_iff_empty :
    KeepsTagsUnique (Env.calm 0) (.empty .default) ["a", " B "] ⟨∅, [], ∅⟩ ↔
      (tagNames (Env.calm 0) ["a", " B "]).Nodup ∧
        (Catalog.empty .default).Fits (tagNames (Env.calm 0) ["a", " B "]) :=
  keeps_tags_unique_iff (.empty .default) (Env.calm 0) ["a", " B "] ⟨∅, [], ∅⟩

/-- A new name, written in two ways. -/
theorem repeated_tag_refused :
    ¬ ∀ (c : Catalog) (env : Env) (names : List String) (x : Outside), c.Sound →
      KeepsTagsUnique env c names x := by
  intro h
  have hkeeps := h (.empty .default) (Env.calm 0) ["a", " a"] ⟨∅, [], ∅⟩ (.empty .default)
  obtain ⟨hnodup, -⟩ := (ensuresTags_iff (.empty .default)).mp hkeeps.ensured
  have hnames : tagNames (Env.calm 0) ["a", " a"] = ["a", "a"] := by decide +kernel
  rw [hnames] at hnodup
  simp at hnodup

end PluginRegistry
