import PluginRegistry.Clients.PluginRefs
import PluginRegistry.Proofs.PowCounters

namespace PluginRegistry
open Acprctl

theorem like_percent {pattern text : List Char} (h : like pattern text = true)
    (front : List Char) : like ('%' :: pattern) (front ++ text) = true := by
  rw [like, List.any_eq_true]
  exact ⟨text, by simp, h⟩

/-- A text without backslashes matches the pattern that it makes. -/
theorem like_self {s pattern text : List Char} (hs : '\\' ∉ s) (h : like pattern text = true) :
    like (s ++ pattern) (s ++ text) = true := by
  induction s with
  | nil => exact h
  | cons c s ih =>
    obtain ⟨hc, hs⟩ := not_or.mp (List.mem_cons.not.mp hs)
    have hrest := ih hs
    by_cases hpercent : c = '%'
    · subst hpercent
      exact like_percent hrest ['%']
    · by_cases hunder : c = '_'
      · subst hunder
        exact hrest
      · rw [List.cons_append, List.cons_append, like]
        · simpa using hrest
        · exact hpercent
        · exact hunder
        · intro _ _ heq
          exact absurd heq.symm hc

theorem strip_infix (s : String) :
    ∃ front back, s.toList = front ++ ((strip s).toList ++ back) := by
  obtain ⟨front, hfront⟩ := List.dropWhile_suffix (l := s.toList) isSpace
  obtain ⟨back, hback⟩ := List.rdropWhile_prefix isSpace (s.toList.dropWhile isSpace)
  refine ⟨front, back, ?_⟩
  rw [toList_strip, hback, hfront]

section
variable {collation : Collation} {plugin : ListedPlugin} {table : PluginTable}
  {listing : List ListedPlugin} {key : String}

theorem Collation.percent (collation : Collation) : collation.lower '%' = '%' :=
  (collation.lower_special '%' (by simp) '%').mpr rfl

/-- A key without backslashes is found by its own search. -/
theorem matches_key (hkey : plugin.pluginKey = key) (hplain : '\\' ∉ key.toList) :
    plugin.matches collation none (some key) = true := by
  obtain ⟨front, back, hsplit⟩ := strip_infix key
  have hs : '\\' ∉ (strip key).toList.map collation.lower := by
    intro hmem
    obtain ⟨c, hc, hlower⟩ := List.mem_map.mp hmem
    rw [collation.lower_special '\\' (by simp)] at hlower
    subst hlower
    apply hplain
    rw [hsplit]
    simp [hc]
  have hrest : like ['%'] (back.map collation.lower) = true := by
    have hempty : like [] [] = true := rfl
    simpa using like_percent hempty (back.map collation.lower)
  have hlike := like_percent (like_self hs hrest) (front.map collation.lower)
  have hpattern : ("%" ++ strip key ++ "%").toList.map collation.lower =
      '%' :: ((strip key).toList.map collation.lower ++ ['%']) := by
    have hpercent : "%".toList = ['%'] := rfl
    rw [String.toList_append, String.toList_append, hpercent]
    simp [collation.percent]
  have hilike : ilike collation plugin.pluginKey ("%" ++ strip key ++ "%") = true := by
    unfold ilike
    rw [hpattern, hkey, hsplit, List.map_append, List.map_append]
    exact hlike
  unfold ListedPlugin.matches
  dsimp only [Option.getD_some]
  rw [hilike]
  simp [truthy]

def PluginTable.resolve (table : PluginTable) (key : String) : Except CliError String :=
  match table.rows.find? fun plugin => plugin.pluginKey = key with
  | some plugin => .ok plugin.id
  | none => .error (pluginNotFound key)

/-- The first page holds the plugin of a key if fewer than a hundred stand before it. -/
theorem find_take {rows : List ListedPlugin} (n : Nat) :
    (rows.take n).find? (fun plugin => plugin.pluginKey = key) =
      if (rows.takeWhile fun plugin => plugin.pluginKey ≠ key).length < n then
        rows.find? fun plugin => plugin.pluginKey = key
      else none := by
  induction rows generalizing n with
  | nil => simp
  | cons plugin rows ih =>
    cases n with
    | zero => simp
    | succ n =>
      rw [List.take_succ_cons, List.find?_cons, List.find?_cons, List.takeWhile_cons]
      by_cases hkey : plugin.pluginKey = key
      · simp [hkey]
      · simp [hkey, ih n]

theorem PluginTable.eq_of_key (table : PluginTable) {other : ListedPlugin}
    (hplugin : plugin ∈ table.rows) (hother : other ∈ table.rows)
    (hkey : plugin.pluginKey = other.pluginKey) : plugin = other :=
  List.inj_on_of_nodup_map table.unique hplugin hother hkey

/-- In a listing a key is found where the plugin of the table matches the search. -/
theorem find_listing (h : table.Lists collation none (some key) listing) :
    listing.find? (fun plugin => plugin.pluginKey = key) =
      (table.rows.find? fun plugin => plugin.pluginKey = key).filter
        (ListedPlugin.matches collation none (some key)) := by
  have hmem : ∀ plugin, plugin ∈ listing ↔
      plugin ∈ table.rows ∧ plugin.matches collation none (some key) = true := by
    intro plugin
    rw [h.rows.mem_iff, List.mem_filter]
  cases hrow : table.rows.find? fun plugin => plugin.pluginKey = key with
  | none =>
    rw [Option.filter_none, List.find?_eq_none]
    intro plugin hplugin
    exact List.find?_eq_none.mp hrow plugin ((hmem plugin).mp hplugin).1
  | some plugin =>
    have hplugin := List.mem_of_find?_eq_some hrow
    have hkey : plugin.pluginKey = key := by
      simpa using List.find?_some hrow
    have hunique : ∀ other ∈ listing, other.pluginKey = key → other = plugin := by
      intro other hother hotherKey
      exact table.eq_of_key ((hmem other).mp hother).1 hplugin (hotherKey.trans hkey.symm)
    cases hlist : listing.find? fun plugin => plugin.pluginKey = key with
    | none =>
      have hno : plugin ∉ listing := by
        intro hin
        exact List.find?_eq_none.mp hlist plugin hin (by simpa using hkey)
      rw [hmem, not_and] at hno
      rw [Option.filter_some, if_neg (hno hplugin)]
    | some other =>
      have hother := List.mem_of_find?_eq_some hlist
      have hotherKey : other.pluginKey = key := by
        simpa using List.find?_some hlist
      obtain rfl := hunique other hother hotherKey
      rw [Option.filter_some, if_pos ((hmem other).mp hother).2]

end

/-- A key resolves to its plugin exactly if its own search finds the plugin and fewer
than a hundred others stand before it; the search finds every key without a backslash. -/
theorem plugin_key_resolves_iff (collation : Collation) (table : PluginTable)
    {listing : String → List ListedPlugin}
    (h : ∀ q, table.Lists collation none (some q) (listing q)) {key : String}
    (hkey : uuidPattern key = false) :
    (resolvePluginID (fun q page pageSize => pageOf (listing q) page pageSize) key =
          table.resolve key ↔
        ∀ plugin ∈ table.rows, plugin.pluginKey = key →
          plugin.matches collation none (some key) = true ∧
            ((listing key).takeWhile fun other => other.pluginKey ≠ key).length < 100) ∧
      ∀ plugin : ListedPlugin, plugin.pluginKey = key → '\\' ∉ key.toList →
        plugin.matches collation none (some key) = true := by
  refine ⟨?_, fun plugin hplugin hplain => matches_key hplugin hplain⟩
  have hlisting := h key
  unfold resolvePluginID PluginTable.resolve
  dsimp only
  generalize listing key = listing at hlisting ⊢
  have hpage : pageOf listing 1 100 = listing.take 100 := by
    simp [pageOf]
  rw [hkey, if_neg Bool.false_ne_true, hpage, find_take, find_listing hlisting]
  cases hrow : table.rows.find? fun plugin => plugin.pluginKey = key with
  | none =>
    rw [Option.filter_none, ite_self]
    refine iff_of_true rfl ?_
    intro plugin hplugin hpluginKey
    exact absurd (by simpa using hpluginKey) (List.find?_eq_none.mp hrow plugin hplugin)
  | some plugin =>
    have hplugin := List.mem_of_find?_eq_some hrow
    have hpluginKey : plugin.pluginKey = key := by
      simpa using List.find?_some hrow
    have hall : (∀ other ∈ table.rows, other.pluginKey = key →
        other.matches collation none (some key) = true ∧
          (listing.takeWhile fun other => other.pluginKey ≠ key).length < 100) ↔
        plugin.matches collation none (some key) = true ∧
          (listing.takeWhile fun other => other.pluginKey ≠ key).length < 100 := by
      constructor
      · intro hall
        exact hall plugin hplugin hpluginKey
      · intro hthis other hother hotherKey
        rwa [table.eq_of_key hother hplugin (hotherKey.trans hpluginKey.symm)]
    rw [hall, Option.filter_some]
    by_cases hlength : (listing.takeWhile fun other => other.pluginKey ≠ key).length < 100
    · rw [if_pos hlength]
      by_cases hmatch : plugin.matches collation none (some key) = true
      · rw [if_pos hmatch]
        exact iff_of_true rfl ⟨hmatch, hlength⟩
      · rw [if_neg hmatch]
        refine iff_of_false ?_ fun hboth => hmatch hboth.1
        intro heq
        cases heq
    · rw [if_neg hlength]
      refine iff_of_false ?_ fun hboth => hlength hboth.2
      intro heq
      cases heq

/-- Rows that stand from the newest to the oldest are listed as they stand. -/
theorem PluginTable.lists_filter {table : PluginTable} (collation : Collation)
    (h : table.rows.Pairwise fun a b => b.createdAt ≤ a.createdAt) (q : String) :
    table.Lists collation none (some q)
      (table.rows.filter (ListedPlugin.matches collation none (some q))) :=
  ⟨.refl _, h.filter _⟩

def asciiCollation : Collation where
  lower := Char.toLower
  lower_special special hspecial c := by
    constructor
    · rintro rfl
      have hupper : c.toLower.toUpper = c.toLower := by
        simp only [List.mem_cons, List.not_mem_nil, or_false] at hspecial
        rcases hspecial with h | h | h <;> rw [h] <;> rfl
      rcases eq_or_eq_toUpper c with h | h
      · exact h
      · rw [hupper] at h
        exact h
    · rintro rfl
      simp only [List.mem_cons, List.not_mem_nil, or_false] at hspecial
      rcases hspecial with rfl | rfl | rfl <;> rfl

def listedPlugin (id key : String) (createdAt : Time) : ListedPlugin :=
  ⟨id, key, none, "", "", .active, createdAt⟩

def crowdedRows (newer : Nat) : List ListedPlugin :=
  ((List.range newer).map fun i => listedPlugin (toString i) ("a" ++ toString i) 1) ++
    [listedPlugin "old" "a" 0]

def loneTable : PluginTable := ⟨crowdedRows 2, by decide⟩

theorem plugin_key_resolves_lone :
    resolvePluginID (fun q page pageSize => pageOf
      (loneTable.rows.filter (ListedPlugin.matches asciiCollation none (some q))) page pageSize)
        "a" = loneTable.resolve "a" :=
  (plugin_key_resolves_iff asciiCollation loneTable
    (PluginTable.lists_filter asciiCollation (by decide)) (by decide)).1.mpr (by decide)

def crowdedTable : PluginTable := ⟨crowdedRows 100, by decide +kernel⟩

/-- Behind a hundred newer matches the plugin is not found. -/
theorem crowded_key_lost :
    (∀ q, crowdedTable.Lists asciiCollation none (some q)
      (crowdedTable.rows.filter (ListedPlugin.matches asciiCollation none (some q)))) ∧
      resolvePluginID (fun q page pageSize => pageOf
        (crowdedTable.rows.filter (ListedPlugin.matches asciiCollation none (some q))) page pageSize)
          "a" = .error (pluginNotFound "a") ∧
      crowdedTable.resolve "a" = .ok "old" :=
  ⟨PluginTable.lists_filter asciiCollation (by decide +kernel), by rfl, by rfl⟩

end PluginRegistry
