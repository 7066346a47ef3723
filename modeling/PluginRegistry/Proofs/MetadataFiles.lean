import PluginRegistry.Proofs.PublishGate
import PluginRegistry.Python.Hashlib
import PluginRegistry.Services.SubmitService

namespace PluginRegistry
open Lib

namespace FileSystem

variable {files : FileSystem} {path target : Path} {content old : List UInt8} {size : Nat}

/-- Paths lead where they led: a file is replaced by a file. -/
theorem walk_insert (h : files.lookup target = some (.file old size))
    (follow : Path → List String → Option Path) (cur : Path) (rest : List String) :
    walk (AList.insert target (.file content content.length) files) follow cur rest =
      walk files follow cur rest := by
  induction rest generalizing cur with
  | nil => rfl
  | cons name rest ih =>
    rw [walk, walk]
    simp only [ih]
    by_cases ht : cur ++ [name] = target
    · rw [ht, AList.lookup_insert, h]
    · rw [AList.lookup_insert_ne ht]

theorem resolveWithin_insert (h : files.lookup target = some (.file old size)) (links : Nat) :
    resolveWithin (AList.insert target (.file content content.length) files) links =
      resolveWithin files links := by
  induction links with
  | zero =>
    funext cur rest
    exact walk_insert h _ cur rest
  | succ links ih =>
    funext cur rest
    rw [resolveWithin, resolveWithin, ih]
    exact walk_insert h _ cur rest

/-- A file that a path leads to is where it leads. -/
theorem resolve_of_stat (h : files.stat path = some (.file old size)) :
    ∃ target, files.resolve path = some target ∧ files.lookup target = some (.file old size) :=
  Option.bind_eq_some_iff.mp h

theorem stat_write (h : files.stat path = some (.file old size)) (content : List UInt8) :
    (files.write path content).stat path = some (.file content content.length) := by
  obtain ⟨target, hr, ht⟩ := resolve_of_stat h
  have hsame : resolve (AList.insert target (.file content content.length) files) path =
      some target := by
    rw [resolve, resolveWithin_insert ht, ← resolve, hr]
  rw [write, hr, stat]
  dsimp only
  rw [hsame, Option.bind_some, AList.lookup_insert]

theorem lookup_write_isSome (h : files.stat path = some (.file old size)) (content : List UInt8)
    {p : Path} (hp : (files.lookup p).isSome) : ((files.write path content).lookup p).isSome := by
  obtain ⟨target, hr, ht⟩ := resolve_of_stat h
  rw [write, hr]
  dsimp only
  by_cases hpt : p = target
  · rw [hpt, AList.lookup_insert]
    rfl
  · rwa [AList.lookup_insert_ne hpt]

theorem read_ok (h : files.read path = .ok content) :
    ∃ size, files.stat path = some (.file content size) := by
  unfold read at h
  split at h
  · rename_i found size hs
    cases h
    exact ⟨size, hs⟩
  · cases h

/-- Names of real directories are walked one by one. -/
theorem walk_dirs {root : Path} (follow : Path → List String → Option Path) (rest : List String)
    (dirs : List String)
    (h : ∀ dir name, dir ++ [name] <+: dirs → name ≠ "" ∧ name ≠ "." ∧ name ≠ ".." ∧
      files.lookup (root ++ (dir ++ [name])) = some .dir) :
    walk files follow root (dirs ++ rest) = walk files follow (root ++ dirs) rest := by
  induction dirs generalizing root with
  | nil => rw [List.nil_append, List.append_nil]
  | cons name dirs ih =>
    obtain ⟨hempty, hdot, hdots, hdir⟩ := h [] name ⟨dirs, rfl⟩
    rw [List.nil_append] at hdir
    have hrest : ∀ dir last, dir ++ [last] <+: dirs → last ≠ "" ∧ last ≠ "." ∧ last ≠ ".." ∧
        files.lookup (root ++ [name] ++ (dir ++ [last])) = some .dir := by
      intro dir last hp
      obtain ⟨tail, htail⟩ := hp
      have hdeep := h (name :: dir) last ⟨tail, by rw [← htail]; simp⟩
      rwa [List.cons_append, ← List.singleton_append, ← List.append_assoc] at hdeep
    rw [List.cons_append, walk]
    simp only [hempty, hdot, hdots, decide_false, Bool.or_self, Bool.false_eq_true, if_false, hdir]
    rw [ih hrest, List.append_assoc, List.singleton_append]

end FileSystem

variable {checkout : Checkout} {content : List UInt8} {size : Nat} {yaml : Yaml}

theorem metadata_drop (checkout : Checkout) :
    checkout.metadataPath.drop checkout.repoDir.length = ["metadata.yaml"] := by
  rw [Checkout.metadataPath, List.drop_left]

/-- An archive has one `metadata.yaml`, which holds what reading the file gives. -/
theorem find_metadata (hkey : (checkout.files.lookup checkout.metadataPath).isSome)
    (hs : checkout.files.stat checkout.metadataPath = some (.file content size))
    {maxReleaseZipBytes : Int} (hfits : (createZip checkout maxReleaseZipBytes).2 = none) :
    (createZip checkout maxReleaseZipBytes).1.find? (fun entry => entry.name = ["metadata.yaml"]) =
      some ⟨["metadata.yaml"], content⟩ := by
  have hzip : createZip checkout maxReleaseZipBytes = (checkout.members.map (·.1), none) := by
    refine (Checkout.createZip_spec checkout maxReleaseZipBytes).2 fun hover => ?_
    rw [(Checkout.createZip_spec checkout maxReleaseZipBytes).1 hover] at hfits
    cases hfits
  have hmember : checkout.member checkout.metadataPath =
      some (⟨["metadata.yaml"], content⟩, size) := by
    have hskip : shouldSkip ["metadata.yaml"] = false := by
      decide
    simp only [Checkout.member, hs, metadata_drop, hskip, Bool.false_eq_true, if_false]
  have hin : checkout.metadataPath ∈ checkout.files.rglob checkout.repoDir := by
    refine List.mem_filter.mpr ⟨AList.lookup_isSome.mp hkey, ?_⟩
    rw [Bool.and_eq_true, List.isPrefixOf_iff_prefix]
    refine ⟨List.prefix_append .., ?_⟩
    simp [Checkout.metadataPath]
  have honly : ∀ entry ∈ checkout.members.map (·.1), entry.name = ["metadata.yaml"] →
      entry = ⟨["metadata.yaml"], content⟩ := by
    intro entry he hname
    obtain ⟨m, hm, rfl⟩ := List.mem_map.mp he
    obtain ⟨path, hpath, hmem⟩ := List.mem_filterMap.mp hm
    obtain ⟨found, size', hs', -, rfl⟩ := Checkout.member_some hmem
    have heq : path = checkout.metadataPath := by
      rw [← Checkout.rglob_path hpath]
      exact congrArg _ hname
    rw [heq, hs] at hs'
    cases hs'
    rw [heq, metadata_drop]
  rw [hzip]
  cases hfind : (checkout.members.map (·.1)).find? fun entry => entry.name = ["metadata.yaml"] with
  | none =>
    have hnone := List.find?_eq_none.mp hfind ⟨["metadata.yaml"], content⟩
      (List.mem_map.mpr ⟨_, List.mem_filterMap.mpr ⟨_, hin, hmember⟩, rfl⟩)
    simp at hnone
  | some entry =>
    have hname := List.find?_some hfind
    rw [honly entry (List.mem_of_find?_eq_some hfind) (of_decide_eq_true hname)]

/-- The `metadata.yaml` of a clone is an entry of its top directory. -/
theorem Clone.metadata_key {clone : Clone}
    (h : clone.checkout.files.stat clone.checkout.metadataPath = some (.file content size)) :
    (clone.checkout.files.lookup clone.checkout.metadataPath).isSome := by
  obtain ⟨target, hr, -⟩ := FileSystem.resolve_of_stat h
  have hwalk : ∃ follow, clone.checkout.files.walk follow clone.checkout.repoDir
      ["metadata.yaml"] = some target := by
    have hdirs : ∀ follow, clone.checkout.files.walk follow []
        (clone.checkout.repoDir ++ ["metadata.yaml"]) =
          clone.checkout.files.walk follow ([] ++ clone.checkout.repoDir) ["metadata.yaml"] := by
      intro follow
      refine FileSystem.walk_dirs follow ["metadata.yaml"] clone.checkout.repoDir ?_
      intro dir name hp
      rw [List.nil_append]
      exact clone.placed dir name hp
    refine ⟨FileSystem.resolveWithin clone.checkout.files 39, ?_⟩
    rw [← hr]
    exact (hdirs _).symm
  obtain ⟨follow, hwalk⟩ := hwalk
  rw [Option.isSome_iff_ne_none]
  intro hnone
  rw [Checkout.metadataPath] at hnone
  simp [FileSystem.walk, hnone] at hwalk

def shippedMetadata (yaml : Yaml) (zip : Blob) : Except PyErr PluginMetadata :=
  match zip.find? fun entry => entry.name = ["metadata.yaml"] with
  | some entry => parseMetadataYamlText yaml entry.content
  | none => .error ⟨.keyError, "metadata.yaml", 0⟩

def PluginMetadata.packed (metadata : PluginMetadata) (version : Option String) : PluginMetadata :=
  { metadata with version := version.getD metadata.version }

/-- Another version text is as valid. -/
theorem modelValidate_set {data : JsonObject} {metadata : PluginMetadata}
    (h : PluginMetadata.modelValidate data = .ok metadata) (version : String) :
    PluginMetadata.modelValidate (data.set "version" (.str version)) =
      .ok { metadata with version } := by
  have hkeep : ∀ key, key ≠ "version" →
      JsonObject.get (data.set "version" (.str version)) key = data.get key := by
    intro key hkey
    rw [JsonObject.get_set, if_neg hkey]
  have hversion : JsonObject.get (data.set "version" (.str version)) "version" =
      some (.str version) := by
    rw [JsonObject.get_set, if_pos rfl]
  have hothers : otherFieldsValid (data.set "version" (.str version)) = otherFieldsValid data := by
    simp only [otherFieldsValid, List.all_cons, List.all_nil, hkeep "display_name" (by decide),
      hkeep "short_desc" (by decide), hkeep "category" (by decide), hkeep "social_link" (by decide),
      hkeep "logo" (by decide), hkeep "astrbot_version" (by decide),
      hkeep "description" (by decide), hkeep "desc" (by decide), hkeep "tags" (by decide),
      hkeep "support_platforms" (by decide), hkeep "i18n" (by decide)]
  unfold PluginMetadata.modelValidate at h ⊢
  rw [hversion, hkeep "name" (by decide), hkeep "author" (by decide), hkeep "repo" (by decide),
    hothers]
  split at h
  · rename_i hname hauthor _
    rw [hname, hauthor]
    dsimp only
    split at h
    · rename_i hvalid
      cases h
      rw [if_pos hvalid]
    · cases h
  · cases h

theorem loadMapping_ok {data : JsonObject} :
    loadMapping yaml content = .ok data ↔ yaml.safeLoad content = .ok (.obj data) := by
  unfold loadMapping
  cases hload : yaml.safeLoad content with
  | error e => simp [bind, Except.bind]
  | ok value => cases value <;> simp [bind, Except.bind, pure, Except.pure, throw, throwThe,
      MonadExceptOf.throw]

theorem parseMetadataYamlText_ok {metadata : PluginMetadata} :
    parseMetadataYamlText yaml content = .ok metadata ↔
      ∃ data, yaml.safeLoad content = .ok (.obj data) ∧
        PluginMetadata.modelValidate data = .ok metadata := by
  unfold parseMetadataYamlText
  cases hload : loadMapping yaml content with
  | error e =>
    simp only [bind, Except.bind, reduceCtorEq, false_iff, not_exists, not_and]
    intro data hdata
    rw [loadMapping_ok.mpr hdata] at hload
    cases hload
  | ok data =>
    rw [loadMapping_ok] at hload
    simp [bind, Except.bind, hload]

theorem parseMetadataYaml_ok {files : FileSystem} {path : Path} {metadata : PluginMetadata} :
    parseMetadataYaml yaml files path = .ok metadata ↔
      ∃ content size, files.stat path = some (.file content size) ∧
        parseMetadataYamlText yaml content = .ok metadata := by
  unfold parseMetadataYaml
  cases hread : files.read path with
  | error e =>
    simp only [bind, Except.bind, reduceCtorEq, false_iff, not_exists, not_and]
    intro content size hs
    rw [FileSystem.read, hs] at hread
    cases hread
  | ok content =>
    obtain ⟨size, hs⟩ := FileSystem.read_ok hread
    simp [bind, Except.bind, hs]

/-- What a rewritten version leaves on disk. -/
theorem overwriteMetadataVersion_spec (hyaml : yaml.RoundTrips) {clone : Clone}
    {metadata : PluginMetadata} (h : clone.metadata yaml = .ok metadata) (version : String) :
    ∃ written, clone.checkout.overwriteMetadataVersion yaml version =
        .ok (clone.checkout.rewrite written) ∧
      ((clone.checkout.rewrite written).files.lookup clone.checkout.metadataPath).isSome ∧
      (clone.checkout.rewrite written).files.stat clone.checkout.metadataPath =
        some (.file written written.length) ∧
      parseMetadataYamlText yaml written = .ok { metadata with version } := by
  obtain ⟨content, size, hs, hparse⟩ := parseMetadataYaml_ok.mp h
  obtain ⟨data, hload, hvalid⟩ := parseMetadataYamlText_ok.mp hparse
  have hread : clone.checkout.files.read clone.checkout.metadataPath = .ok content := by
    rw [FileSystem.read, hs]
  refine ⟨yaml.safeDump (JsonObject.set data "version" (.str version)), ?_, ?_, ?_, ?_⟩
  · rw [Checkout.overwriteMetadataVersion, hread]
    simp only [bind, Except.bind, loadMapping_ok.mpr hload]
    rfl
  · exact FileSystem.lookup_write_isSome hs _ (Clone.metadata_key hs)
  · exact FileSystem.stat_write hs _
  · exact parseMetadataYamlText_ok.mpr
      ⟨_, hyaml content data version hload, modelValidate_set hvalid version⟩

/-- A clone that has metadata is prepared for any version, and an archive of it
carries the version. -/
theorem prepare_spec (hyaml : yaml.RoundTrips) {clone : Clone} {metadata : PluginMetadata}
    (h : clone.metadata yaml = .ok metadata) (version : Option String) :
    ∃ checkout, clone.prepare yaml version = .ok (metadata, checkout) ∧
      ∀ maxReleaseZipBytes, (createZip checkout maxReleaseZipBytes).2 = none →
        shippedMetadata yaml (createZip checkout maxReleaseZipBytes).1 =
          .ok (metadata.packed version) := by
  obtain ⟨content, size, hs, hparse⟩ := parseMetadataYaml_ok.mp h
  have hplain : ∀ maxReleaseZipBytes, (createZip clone.checkout maxReleaseZipBytes).2 = none →
      shippedMetadata yaml (createZip clone.checkout maxReleaseZipBytes).1 = .ok metadata := by
    intro maxReleaseZipBytes hfits
    rw [shippedMetadata, find_metadata (Clone.metadata_key hs) hs hfits]
    exact hparse
  cases version with
  | none =>
    refine ⟨clone.checkout, ?_, hplain⟩
    simp only [Clone.prepare, h, bind, Except.bind]
    rfl
  | some version =>
    by_cases hsame : metadata.version = version
    · refine ⟨clone.checkout, ?_, ?_⟩
      · simp only [Clone.prepare, h, bind, Except.bind, if_pos hsame]
        rfl
      · rw [PluginMetadata.packed, Option.getD_some, ← hsame]
        exact hplain
    · obtain ⟨written, hwrite, hkey, hstat, htext⟩ :=
        overwriteMetadataVersion_spec hyaml h version
      have hreread : parseMetadataYaml yaml (clone.checkout.rewrite written).files
          (clone.checkout.rewrite written).metadataPath = .ok { metadata with version } :=
        parseMetadataYaml_ok.mpr ⟨written, written.length, hstat, htext⟩
      refine ⟨clone.checkout.rewrite written, ?_, ?_⟩
      · simp only [Clone.prepare, h, bind, Except.bind, if_neg hsame, hwrite, hreread]
        rfl
      · intro maxReleaseZipBytes hfits
        rw [shippedMetadata, find_metadata hkey hstat hfits]
        exact htext

/-- Only a clone that has metadata is prepared. -/
theorem metadata_of_prepare {clone : Clone} {version : Option String}
    {prepared : PluginMetadata × Checkout} (h : clone.prepare yaml version = .ok prepared) :
    ∃ metadata, clone.metadata yaml = .ok metadata := by
  unfold Clone.prepare at h
  cases hm : clone.metadata yaml with
  | error e =>
    rw [hm] at h
    cases h
  | ok metadata => exact ⟨metadata, rfl⟩

theorem fromUTF8_utf8 (version : String) :
    String.fromUTF8? (utf8 version).toByteArray = some version := by
  have hbytes : (utf8 version).toByteArray = version.toByteArray := by
    change version.toList.utf8Encode = _
    exact String.utf8Encode_toList
  rw [hbytes, String.fromUTF8?, dif_pos version.isValidUTF8]
  rfl

def demoHead : List UInt8 :=
  utf8 "author: alice\nname: demo\nversion: "

def demoFile (version : String) : List UInt8 :=
  demoHead ++ utf8 version ++ [10]

def demoData (version : String) : JsonObject :=
  [("author", .str "alice"), ("name", .str "demo"), ("version", .str version)]

def demoYaml : Yaml where
  safeLoad content :=
    if demoHead.isPrefixOf content then
      match String.fromUTF8? (content.drop demoHead.length).dropLast.toByteArray with
      | some version => .ok (.obj (demoData version))
      | none => .error ⟨.unicodeError, "invalid start byte", 0⟩
    else .error ⟨.yamlError, "another file", 0⟩
  safeDump data :=
    match data.get "version" with
    | some (.str version) => demoFile version
    | _ => []

theorem demoYaml_load (version : String) :
    demoYaml.safeLoad (demoFile version) = .ok (.obj (demoData version)) := by
  have hprefix : demoHead.isPrefixOf (demoFile version) = true := by
    rw [List.isPrefixOf_iff_prefix, demoFile, List.append_assoc]
    exact List.prefix_append ..
  have hmiddle : ((demoFile version).drop demoHead.length).dropLast = utf8 version := by
    rw [demoFile, List.append_assoc, List.drop_left, List.dropLast_concat]
  simp only [demoYaml, hprefix, if_true, hmiddle, fromUTF8_utf8]

theorem demoYaml_roundTrips : demoYaml.RoundTrips := by
  intro content data version hload
  simp only [demoYaml] at hload
  split at hload
  · split at hload
    · cases hload
      exact demoYaml_load version
    · cases hload
  · cases hload

def demoCheckout (version : String) : Checkout where
  files := AList.insert ["tmp", "clone", "metadata.yaml"]
    (.file (demoFile version) (demoFile version).length)
    (AList.insert ["tmp", "clone"] .dir (AList.insert ["tmp"] .dir ∅))
  repoDir := ["tmp", "clone"]
  honest := by
    intro p content size _ hlook
    by_cases hfile : p = ["tmp", "clone", "metadata.yaml"]
    · rw [hfile, AList.lookup_insert] at hlook
      cases hlook
      rfl
    · rw [AList.lookup_insert_ne hfile] at hlook
      by_cases hclone : p = ["tmp", "clone"]
      · rw [hclone, AList.lookup_insert] at hlook
        cases hlook
      · rw [AList.lookup_insert_ne hclone] at hlook
        by_cases htmp : p = ["tmp"]
        · rw [htmp, AList.lookup_insert] at hlook
          cases hlook
        · rw [AList.lookup_insert_ne htmp] at hlook
          cases hlook

theorem prefix_two {dir : Path} {name first second : String}
    (h : dir ++ [name] <+: [first, second]) :
    (dir = [] ∧ name = first) ∨ (dir = [first] ∧ name = second) := by
  obtain ⟨rest, hrest⟩ := h
  match dir with
  | [] =>
    simp only [List.nil_append, List.cons_append, List.cons.injEq] at hrest
    exact .inl ⟨rfl, hrest.1⟩
  | [one] =>
    simp only [List.cons_append, List.nil_append, List.cons.injEq] at hrest
    exact .inr ⟨by rw [hrest.1], hrest.2.1⟩
  | one :: two :: more => simp at hrest

def demoClone (version : String) (commitSha : CommitSha) : Clone where
  checkout := demoCheckout version
  placed := by
    intro dir name hp
    rcases prefix_two hp with ⟨rfl, rfl⟩ | ⟨rfl, rfl⟩
    · exact ⟨by decide, by decide, by decide, rfl⟩
    · exact ⟨by decide, by decide, by decide, rfl⟩
  commitSha := .ok commitSha

theorem demoClone_metadata (version : String) (commitSha : CommitSha) :
    (demoClone version commitSha).metadata demoYaml = .ok ⟨"demo", "alice", version, none⟩ := by
  refine parseMetadataYaml_ok.mpr ⟨demoFile version, (demoFile version).length, rfl, ?_⟩
  exact parseMetadataYamlText_ok.mpr ⟨demoData version, demoYaml_load version, rfl⟩

end PluginRegistry
