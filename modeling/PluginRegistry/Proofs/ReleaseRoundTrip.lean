import Mathlib.Data.List.Infix
import PluginRegistry.Proofs.PollBounds

namespace PluginRegistry
open Lib

def regularMode (permissions : Fin 4096) : Nat := 0o100000 + permissions

/-- A packed file as `zipfile` reads it back: the name is the relative path, and the
mode is that of a regular file. -/
def ZipEntry.info (entry : ZipEntry) (permissions : Fin 4096) : ZipInfo where
  filename := String.intercalate "/" entry.name
  externalAttr := regularMode permissions <<< 16
  fileSize := entry.content.length
  data := .ok entry.content
  within := by
    intro content h
    rw [Except.ok.inj h]

def Blob.archive (zip : Blob) (byteSize : Nat) (permissions : ZipEntry → Fin 4096) : ZipArchive :=
  ⟨byteSize, zip.map fun entry => entry.info (permissions entry)⟩

structure FileSystem.IsTree (fs : FileSystem) : Prop where
  names : ∀ path, fs.lookup path ≠ none → ∀ part ∈ path, IsPart part ∧ part ≠ ".."
  parents : ∀ path q, fs.lookup path ≠ none → q ≠ [] → q <+: path → q ≠ path →
    fs.lookup q = some .dir

structure PortablePath (path : Path) : Prop where
  slashes : ∀ part ∈ path, '\\' ∉ part.toList
  drive : hasWindowsDrive (String.intercalate "/" path) = false

structure LocalPath (path : Path) : Prop where
  nonempty : path ≠ []
  parts : ∀ part ∈ path, IsPart part ∧ part ≠ ".."

theorem mem_of_mem_intercalate {separator : List Char} {parts : List (List Char)} {c : Char}
    (h : c ∈ separator.intercalate parts) : c ∈ separator ∨ ∃ part ∈ parts, c ∈ part := by
  induction parts with
  | nil => cases h
  | cons first rest ih =>
    by_cases hrest : rest = []
    · rw [hrest, List.intercalate_singleton] at h
      exact .inr ⟨first, List.mem_cons_self, h⟩
    · rw [List.intercalate_cons_of_ne_nil hrest, List.mem_append, List.mem_append] at h
      rcases h with (hfirst | hsep) | htail
      · exact .inr ⟨first, List.mem_cons_self, hfirst⟩
      · exact .inl hsep
      · rcases ih htail with hsep | ⟨part, hpart, hc⟩
        · exact .inl hsep
        · exact .inr ⟨part, List.mem_cons_of_mem _ hpart, hc⟩

namespace LocalPath

variable {path : Path} {entry : ZipEntry} {permissions : Fin 4096}

/-- The joined text starts and ends with a character of a name. -/
theorem joined_ends (h : LocalPath path) :
    ∃ first last, (String.intercalate "/" path).toList.head? = some first ∧ first ≠ '/' ∧
      (String.intercalate "/" path).toList.getLast? = some last ∧ last ≠ '/' := by
  obtain ⟨hne, hparts⟩ := h
  have hedges : ∀ part ∈ path, ∃ first last, part.toList.head? = some first ∧ first ≠ '/' ∧
      part.toList.getLast? = some last ∧ last ≠ '/' := by
    intro part hpart
    obtain ⟨⟨hslash, hfull, -⟩, -⟩ := hparts part hpart
    have hchars : part.toList ≠ [] := by simpa using hfull
    refine ⟨part.toList.head hchars, part.toList.getLast hchars, List.head?_eq_some_head hchars, ?_,
      List.getLast?_eq_some_getLast hchars, ?_⟩
    · exact fun hc => hslash (hc ▸ List.head_mem hchars)
    · exact fun hc => hslash (hc ▸ List.getLast_mem hchars)
  induction path with
  | nil => exact absurd rfl hne
  | cons name rest ih =>
    obtain ⟨first, last, hfirst, hfirst', hlast, hlast'⟩ := hedges name List.mem_cons_self
    by_cases hrest : rest = []
    · rw [hrest, String.intercalate_singleton]
      exact ⟨first, last, hfirst, hfirst', hlast, hlast'⟩
    · obtain ⟨-, end', -, -, hend, hend'⟩ := ih hrest
        (fun part hpart => hparts part (List.mem_cons_of_mem _ hpart))
        fun part hpart => hedges part (List.mem_cons_of_mem _ hpart)
      refine ⟨first, end', ?_, hfirst', ?_, hend'⟩
      · rw [String.intercalate_cons_of_ne_nil hrest, String.toList_append, String.toList_append,
          List.head?_append, List.head?_append, hfirst]
        rfl
      · rw [String.intercalate_cons_of_ne_nil hrest, String.toList_append, List.getLast?_append,
          hend]
        rfl

theorem forwardSlashes_joined (hp : PortablePath path) :
    forwardSlashes (String.intercalate "/" path) = String.intercalate "/" path := by
  have hclean : ∀ c ∈ (String.intercalate "/" path).toList, (if c = '\\' then '/' else c) = c := by
    intro c hc
    rw [if_neg]
    rintro rfl
    rw [String.toList_intercalate] at hc
    rcases mem_of_mem_intercalate hc with hsep | ⟨part, hpart, hmem⟩
    · revert hsep
      decide
    · obtain ⟨name, hname, rfl⟩ := List.mem_map.mp hpart
      exact hp.slashes name hname hmem
  rw [forwardSlashes, List.map_congr_left hclean, List.map_id', String.ofList_toList]

theorem isDir (h : LocalPath entry.name) (permissions : Fin 4096) :
    (entry.info permissions).isDir = false := by
  obtain ⟨-, last, -, -, hlast, hno⟩ := h.joined_ends
  rw [ZipInfo.isDir, decide_eq_false_iff_not]
  change (String.intercalate "/" entry.name).toList.getLast? ≠ _
  rw [hlast]
  exact fun hc => hno (Option.some.inj hc)

theorem parts_eq (h : LocalPath entry.name) (hp : PortablePath entry.name) :
    (entry.info permissions).parts = entry.name := by
  rw [ZipInfo.parts, ZipEntry.info, forwardSlashes_joined hp,
    posixParts_join fun part hpart => (h.parts part hpart).1]

theorem validates (h : LocalPath entry.name) (hp : PortablePath entry.name)
    (permissions : Fin 4096) :
    validateMemberPath (entry.info permissions).filename = .ok entry.name := by
  have hparts : posixParts (String.intercalate "/" entry.name) = entry.name :=
    posixParts_join fun part hpart => (h.parts part hpart).1
  have habsolute : isPosixAbsolute (String.intercalate "/" entry.name) = false := by
    obtain ⟨first, -, hfirst, hno, -⟩ := h.joined_ends
    rw [isPosixAbsolute, decide_eq_false_iff_not, hfirst]
    exact fun hc => hno (Option.some.inj hc)
  have hup : entry.name.contains ".." = false := by
    rw [Bool.eq_false_iff, ne_eq, List.contains_iff_mem]
    exact fun hmem => (h.parts _ hmem).2 rfl
  change validateMemberPath (String.intercalate "/" entry.name) = _
  unfold validateMemberPath
  dsimp only
  rw [forwardSlashes_joined hp, habsolute, hp.drive, hparts, hup,
    List.isEmpty_eq_false_iff.mpr h.nonempty]
  rfl

end LocalPath

/-- No part of a path has a backslash. -/
theorem ZipInfo.parts_slashes (info : ZipInfo) : ∀ part ∈ info.parts, '\\' ∉ part.toList := by
  intro part hpart hc
  rw [ZipInfo.parts] at hpart
  obtain ⟨chars, hchars, rfl⟩ := List.mem_map.mp (List.mem_filter.mp hpart).1
  rw [String.toList_ofList] at hc
  have hmem := mem_of_mem_splitOn hchars hc
  rw [forwardSlashes, String.toList_ofList] at hmem
  obtain ⟨c, -, heq⟩ := List.mem_map.mp hmem
  split at heq
  · revert heq
    decide
  · rename_i hno
    exact hno heq

instance (path q : Path) : Decidable (OnWay path q) :=
  inferInstanceAs (Decidable (_ ∧ _))

structure Laid (done : Blob) (files : FileSystem) : Prop where
  holds : ∀ q content size, files.lookup q = some (.file content size) ↔
    ⟨q, content⟩ ∈ done ∧ size = content.length
  dirs : ∀ q, files.lookup q = some .dir ↔ ∃ entry ∈ done, OnWay entry.name.dropLast q
  kinds : ∀ q, files.lookup q = none ∨ files.lookup q = some .dir ∨
    ∃ content size, files.lookup q = some (.file content size)

structure Layable (zip : Blob) : Prop where
  below : ∀ entry ∈ zip, LocalPath entry.name
  portable : ∀ entry ∈ zip, PortablePath entry.name
  distinct : (zip.map (·.name)).Nodup
  apart : ∀ a ∈ zip, ∀ b ∈ zip, ¬ OnWay b.name.dropLast a.name

theorem Layable.of_append {done rest : Blob} (h : Layable (done ++ rest)) : Layable done where
  below := fun entry hentry => h.below entry (List.mem_append_left _ hentry)
  portable := fun entry hentry => h.portable entry (List.mem_append_left _ hentry)
  distinct := by
    have hnodup := h.distinct
    rw [List.map_append] at hnodup
    exact hnodup.of_append_left
  apart := fun a ha b hb => h.apart a (List.mem_append_left _ ha) b (List.mem_append_left _ hb)

namespace Laid

variable {done : Blob} {files : FileSystem} {entry : ZipEntry} {permissions : Fin 4096}

theorem nil : Laid [] ∅ where
  holds q content size := by simp [AList.lookup_empty]
  dirs q := by simp [AList.lookup_empty]
  kinds q := .inl (AList.lookup_empty q)

/-- The next file goes to a place that is free. -/
theorem extract (h : Laid done files) (hall : Layable (done ++ [entry]))
    (permissions : Fin 4096) :
    ∃ files', extractMember files (entry.info permissions) = .ok files' ∧
      ∀ q, files'.lookup q =
        if q = entry.name then some (.file entry.content entry.content.length)
        else if OnWay entry.name.dropLast q then some .dir else files.lookup q := by
  have hlast : entry ∈ done ++ [entry] := List.mem_append_right _ (List.mem_singleton_self _)
  have hlocal := hall.below entry hlast
  have hvalid := hlocal.validates (hall.portable entry hlast) permissions
  have hdir := hlocal.isDir permissions
  obtain ⟨made, hmake, hmade⟩ : ∃ made, makeDirs files [] entry.name.dropLast = .ok made ∧
      MadeDirs files [] entry.name.dropLast made := by
    rcases makeDirs_spec files [] entry.name.dropLast with hok | ⟨q, hq, hsome, hother, -⟩
    · exact hok
    · rw [List.nil_append] at hsome hother
      rcases h.kinds q with hnone | hisdir | ⟨content, size, hfile⟩
      · exact absurd hnone hsome
      · exact absurd hisdir hother
      · have hthere := ((h.holds q content size).mp hfile).1
        exact absurd hq (hall.apart _ (List.mem_append_left _ hthere) entry hlast)
  have hfree : made.lookup entry.name ≠ some .dir := by
    have hkept := hmade.lookup_other (dropLast_notOnWay hlocal.nonempty)
    rw [List.nil_append] at hkept
    rw [hkept]
    intro hc
    obtain ⟨other, hother, hway⟩ := (h.dirs _).mp hc
    exact hall.apart entry hlast other (List.mem_append_left _ hother) hway
  refine ⟨AList.insert entry.name (.file entry.content entry.content.length) made, ?_, ?_⟩
  · rw [extractMember, except_bind_eq hvalid, hdir, if_neg (by simp), except_bind_eq hmake]
    change writeNew made entry.name entry.content = _
    rw [writeNew, if_neg hfree]
  · intro q
    by_cases hself : q = entry.name
    · rw [if_pos hself, hself, AList.lookup_insert]
    · rw [if_neg hself, AList.lookup_insert_ne hself]
      split
      · rename_i hway
        exact hmade.made q hway
      · rename_i hway
        have hother := hmade.lookup_other hway
        exact hother

/-- One more entry: its file, and the directories on the way to it. -/
theorem add {files' : FileSystem} (h : Laid done files) (hall : Layable (done ++ [entry]))
    (hlook : ∀ q, files'.lookup q =
      if q = entry.name then some (.file entry.content entry.content.length)
      else if OnWay entry.name.dropLast q then some .dir else files.lookup q) :
    Laid (done ++ [entry]) files' := by
  have hlast : entry ∈ done ++ [entry] := List.mem_append_right _ (List.mem_singleton_self _)
  have hnodup := hall.distinct
  rw [List.map_append, List.map_singleton, List.nodup_append] at hnodup
  have hnew : ∀ content, ⟨entry.name, content⟩ ∉ done := fun content hc =>
    hnodup.2.2 _ (List.mem_map_of_mem (f := ZipEntry.name) hc) _ (List.mem_singleton_self _) rfl
  have hself : ¬ OnWay entry.name.dropLast entry.name := hall.apart entry hlast entry hlast
  have hback : ∀ q content, (⟨q, content⟩ : ZipEntry) ∈ done ++ [entry] ↔
      ⟨q, content⟩ ∈ done ∨ q = entry.name ∧ content = entry.content := by
    intro q content
    rw [List.mem_append, List.mem_singleton, ZipEntry.mk.injEq]
  constructor
  · intro q content size
    rw [hlook, hback]
    by_cases hq : q = entry.name
    · subst hq
      simp only [if_true, hnew content, false_or, true_and, Option.some.injEq, Node.file.injEq]
      constructor
      · rintro ⟨rfl, rfl⟩
        exact ⟨rfl, rfl⟩
      · rintro ⟨rfl, rfl⟩
        exact ⟨rfl, rfl⟩
    · rw [if_neg hq]
      simp only [hq, false_and, or_false]
      by_cases hway : OnWay entry.name.dropLast q
      · rw [if_pos hway]
        simp only [Option.some.injEq, reduceCtorEq, false_iff, not_and]
        intro hc
        exact absurd hway (hall.apart _ (List.mem_append_left _ hc) entry hlast)
      · rw [if_neg hway]
        exact h.holds q content size
  · intro q
    rw [hlook]
    by_cases hq : q = entry.name
    · subst hq
      simp only [if_true, Option.some.injEq, reduceCtorEq, false_iff, not_exists, not_and]
      exact fun other hother => hall.apart entry hlast other hother
    · rw [if_neg hq]
      by_cases hway : OnWay entry.name.dropLast q
      · rw [if_pos hway]
        exact iff_of_true rfl ⟨entry, hlast, hway⟩
      · rw [if_neg hway, h.dirs]
        constructor
        · rintro ⟨other, hother, hon⟩
          exact ⟨other, List.mem_append_left _ hother, hon⟩
        · rintro ⟨other, hother, hon⟩
          rcases List.mem_append.mp hother with hin | hin
          · exact ⟨other, hin, hon⟩
          · rw [List.mem_singleton.mp hin] at hon
            exact absurd hon hway
  · intro q
    rw [hlook]
    split
    · exact .inr (.inr ⟨_, _, rfl⟩)
    · split
      · exact .inr (.inl rfl)
      · exact h.kinds q

/-- Unpacking the rest of an archive whose first files are laid down. -/
theorem unpack (permissions : ZipEntry → Fin 4096) (rest : Blob) (h : Laid done files)
    (hall : Layable (done ++ rest)) :
    ∃ files', (rest.map fun entry => entry.info (permissions entry)).foldlM extractMember files =
        .ok files' ∧ Laid (done ++ rest) files' := by
  induction rest generalizing done files with
  | nil =>
    rw [List.append_nil]
    exact ⟨files, rfl, h⟩
  | cons entry rest ih =>
    rw [List.append_cons] at hall ⊢
    obtain ⟨next, hstep, hlook⟩ := h.extract hall.of_append (permissions entry)
    obtain ⟨files', hrest, hlaid⟩ := ih (h.add hall.of_append hlook) hall
    refine ⟨files', ?_, hlaid⟩
    rw [List.map_cons, List.foldlM_cons, except_bind_eq hstep]
    exact hrest

end Laid

theorem FileSystem.IsTree.stat_dir {fs : FileSystem} (h : fs.IsTree) {path : Path}
    (hdir : fs.lookup path = some .dir) : fs.stat path = some .dir := by
  have hsome : fs.lookup path ≠ none := by rw [hdir]; exact Option.some_ne_none _
  have hresolve : fs.resolve path = some path := by
    rw [FileSystem.resolve, FileSystem.resolveWithin, ← List.append_nil path,
      FileSystem.walk_dirs _ [] path, FileSystem.walk]
    · rw [List.nil_append, List.append_nil]
    · intro dir name hbelow
      obtain ⟨⟨-, hfull, hdot⟩, hup⟩ := h.names path hsome name
        (hbelow.subset (List.mem_append_right _ (List.mem_singleton_self _)))
      refine ⟨hfull, hdot, hup, ?_⟩
      rw [List.nil_append]
      by_cases heq : dir ++ [name] = path
      · rw [heq, hdir]
      · exact h.parents path _ hsome (by simp) hbelow heq
  rw [FileSystem.stat, hresolve, Option.bind_some, hdir]

namespace Checkout

variable {checkout : Checkout} {entry : ZipEntry}

/-- Where a packed file comes from. -/
theorem packed_source (h : entry ∈ checkout.members.map (·.1)) :
    checkout.files.lookup (checkout.repoDir ++ entry.name) ≠ none ∧ entry.name ≠ [] ∧
      ∃ size, checkout.files.stat (checkout.repoDir ++ entry.name) =
        some (.file entry.content size) := by
  obtain ⟨m, hm, rfl⟩ := List.mem_map.mp h
  obtain ⟨path, hpath, hmember⟩ := List.mem_filterMap.mp hm
  obtain ⟨content, size, hstat, -, rfl⟩ := member_some hmember
  have hfull := rglob_path hpath
  obtain ⟨hkey, hbelow⟩ := List.mem_filter.mp hpath
  rw [Bool.and_eq_true, bne_iff_ne] at hbelow
  dsimp only
  rw [hfull]
  refine ⟨?_, ?_, size, hstat⟩
  · exact Option.isSome_iff_ne_none.mp (AList.lookup_isSome.mpr (AList.mem_keys.mpr hkey))
  · intro hnil
    rw [hnil, List.append_nil] at hfull
    exact hbelow.2 (congrArg List.length hfull.symm)

theorem packed_names (checkout : Checkout) :
    ((checkout.members.map (·.1)).map (·.name)).Nodup := by
  have hkeys : (checkout.files.rglob checkout.repoDir).Nodup :=
    checkout.files.nodupKeys.filter _
  rw [List.map_map, members, List.map_filterMap, List.Nodup, List.pairwise_filterMap]
  refine hkeys.imp_of_mem fun {a b} ha hb hne x hx y hy hxy => hne ?_
  obtain ⟨m, hm, rfl⟩ := Option.map_eq_some_iff.mp hx
  obtain ⟨m', hm', rfl⟩ := Option.map_eq_some_iff.mp hy
  obtain ⟨_, _, -, -, rfl⟩ := member_some hm
  obtain ⟨_, _, -, -, rfl⟩ := member_some hm'
  rw [← rglob_path ha, ← rglob_path hb]
  exact congrArg (checkout.repoDir ++ ·) hxy

theorem layable (h : checkout.files.IsTree)
    (hportable : ∀ entry ∈ checkout.members.map (·.1), PortablePath entry.name) :
    Layable (checkout.members.map (·.1)) where
  below entry hentry := by
    obtain ⟨hsome, hne, -⟩ := packed_source hentry
    exact ⟨hne, fun part hpart => h.names _ hsome part (List.mem_append_right _ hpart)⟩
  portable := hportable
  distinct := checkout.packed_names
  apart a ha b hb hway := by
    obtain ⟨-, hne, size, hstat⟩ := packed_source ha
    obtain ⟨hsome, hfull, -⟩ := packed_source hb
    have hdir : checkout.files.lookup (checkout.repoDir ++ a.name) = some .dir := by
      apply h.parents _ _ hsome (by simp [hne])
      · exact (List.prefix_append_right_inj _).mpr (hway.2.trans (List.dropLast_prefix _))
      · intro hc
        rw [List.append_cancel_left hc] at hway
        exact dropLast_notOnWay hfull hway
    rw [h.stat_dir hdir] at hstat
    cases hstat

def Packs (checkout : Checkout) (path : Path) (content : List UInt8) : Prop :=
  path ≠ [] ∧ checkout.files.lookup (checkout.repoDir ++ path) ≠ none ∧
    shouldSkip path = false ∧
    ∃ size, checkout.files.stat (checkout.repoDir ++ path) = some (.file content size)

theorem mem_packed {path : Path} {content : List UInt8} :
    ⟨path, content⟩ ∈ checkout.members.map (·.1) ↔ checkout.Packs path content := by
  constructor
  · intro h
    obtain ⟨hsome, hne, hstat⟩ := packed_source h
    obtain ⟨m, hm, heq⟩ := List.mem_map.mp h
    obtain ⟨source, -, hmember⟩ := List.mem_filterMap.mp hm
    obtain ⟨_, _, -, hskip, rfl⟩ := member_some hmember
    cases heq
    exact ⟨hne, hsome, hskip, hstat⟩
  · rintro ⟨hne, hsome, hskip, size, hstat⟩
    have hpath : checkout.repoDir ++ path ∈ checkout.files.rglob checkout.repoDir := by
      refine List.mem_filter.mpr ⟨AList.mem_keys.mp ?_, ?_⟩
      · exact AList.lookup_isSome.mp (Option.isSome_iff_ne_none.mpr hsome)
      · rw [Bool.and_eq_true, bne_iff_ne]
        refine ⟨List.isPrefixOf_iff_prefix.mpr (List.prefix_append ..), ?_⟩
        rw [List.length_append]
        have := List.length_pos_iff.mpr hne
        omega
    refine List.mem_map.mpr ⟨(⟨path, content⟩, size), List.mem_filterMap.mpr ⟨_, hpath, ?_⟩, rfl⟩
    rw [member, hstat]
    dsimp only
    rw [List.drop_left, hskip, if_neg (by simp)]

structure UnpackedAs (checkout : Checkout) (files : FileSystem) : Prop where
  holds : ∀ path content size, files.lookup path = some (.file content size) ↔
    checkout.Packs path content ∧ size = content.length
  dirs : ∀ q, files.lookup q = some .dir ↔
    ∃ path content, checkout.Packs path content ∧ OnWay path.dropLast q
  kinds : ∀ q, files.lookup q = none ∨ files.lookup q = some .dir ∨
    ∃ content size, files.lookup q = some (.file content size)

def Portable (checkout : Checkout) : Prop :=
  ∀ path content, checkout.Packs path content → PortablePath path

theorem unpackedAs_of_laid {files : FileSystem} (h : Laid (checkout.members.map (·.1)) files) :
    checkout.UnpackedAs files where
  holds path content size := by rw [h.holds, mem_packed]
  dirs q := by
    rw [h.dirs]
    constructor
    · rintro ⟨⟨path, content⟩, hentry, hway⟩
      exact ⟨path, content, mem_packed.mp hentry, hway⟩
    · rintro ⟨path, content, hpacks, hway⟩
      exact ⟨⟨path, content⟩, mem_packed.mpr hpacks, hway⟩
  kinds := h.kinds

structure Fits (checkout : Checkout) (limits : UploadLimits) : Prop where
  count : checkout.members ≠ [] → (checkout.members.length : Int) ≤ limits.maxZipEntries
  total : checkout.members ≠ [] →
    ((checkout.members.map (·.1.content.length)).sum : Nat) ≤ limits.maxUnzipBytes
  single : ∀ path content, checkout.Packs path content →
    (content.length : Int) ≤ limits.maxSingleFileBytes

theorem fits_iff {limits : UploadLimits} : checkout.Fits limits ↔
    (checkout.members.map (·.1) ≠ [] →
      ((checkout.members.map (·.1)).length : Int) ≤ limits.maxZipEntries ∧
        (((checkout.members.map (·.1)).map (·.content.length)).sum : Nat) ≤
          limits.maxUnzipBytes) ∧
      ∀ entry ∈ checkout.members.map (·.1),
        (entry.content.length : Int) ≤ limits.maxSingleFileBytes := by
  have hempty : checkout.members.map (·.1) ≠ [] ↔ checkout.members ≠ [] := by
    rw [ne_eq, List.map_eq_nil_iff]
  rw [hempty, List.length_map, List.map_map]
  constructor
  · intro h
    refine ⟨fun hne => ⟨h.count hne, h.total hne⟩, fun entry hentry => ?_⟩
    exact h.single entry.name entry.content (mem_packed.mp hentry)
  · rintro ⟨hall, hsingle⟩
    refine ⟨fun hne => (hall hne).1, fun hne => (hall hne).2, fun path content hpacks => ?_⟩
    exact hsingle _ (mem_packed.mpr hpacks)

end Checkout

section
variable {zip : Blob} {byteSize : Nat} {permissions : ZipEntry → Fin 4096}

theorem Blob.mem_archive {info : ZipInfo} (h : info ∈ (zip.archive byteSize permissions).infolist) :
    ∃ entry ∈ zip, info = entry.info (permissions entry) := by
  obtain ⟨entry, hentry, rfl⟩ := List.mem_map.mp h
  exact ⟨entry, hentry, rfl⟩

theorem regularMode_format (permissions : Fin 4096) :
    regularMode permissions &&& 0o170000 ≠ 0o120000 := by
  intro hc
  have hbit := congrArg (Nat.testBit · 13) hc
  have hmode : (regularMode permissions).testBit 13 = false := by
    rw [Nat.testBit_eq_decide_div_mod_eq, decide_eq_false_iff_not, regularMode]
    have := permissions.isLt
    omega
  rw [Nat.testBit_and, hmode] at hbit
  revert hbit
  decide

theorem ZipEntry.regular (entry : ZipEntry) (mode : Fin 4096) :
    isSymlink (entry.info mode) = false := by
  rw [isSymlink, decide_eq_false_iff_not, ZipEntry.info, Nat.shiftLeft_shiftRight]
  exact regularMode_format mode

/-- Every member of a release reads back. -/
theorem Blob.testzip_archive :
    testzip (zip.archive byteSize permissions) (zip.archive byteSize permissions).infolist =
      .ok none := by
  rcases testzip_spec (zip.archive byteSize permissions)
    (zip.archive byteSize permissions).infolist with ⟨-, hok⟩ | ⟨e, hbad, -⟩
  · exact hok
  · obtain ⟨info, hinfo, hread⟩ := List.exists_of_findSome?_eq_some hbad
    cases hfound : (zip.archive byteSize permissions).infolist.reverse.find?
        (·.filename = info.filename) with
    | none =>
      have hno := List.find?_eq_none.mp hfound info (List.mem_reverse.mpr hinfo)
      simp at hno
    | some other =>
      obtain ⟨entry, -, rfl⟩ := Blob.mem_archive
        (List.mem_reverse.mp (List.mem_of_find?_eq_some hfound))
      rw [ZipArchive.readNamed, hfound] at hread
      cases hread

/-- Two members of a release never share a path. -/
theorem Layable.parts_inj (h : Layable zip) {a b : ZipInfo}
    (ha : a ∈ (zip.archive byteSize permissions).infolist)
    (hb : b ∈ (zip.archive byteSize permissions).infolist) (hparts : a.parts = b.parts) : a = b := by
  obtain ⟨entry, hentry, rfl⟩ := Blob.mem_archive ha
  obtain ⟨other, hother, rfl⟩ := Blob.mem_archive hb
  rw [(h.below entry hentry).parts_eq (h.portable entry hentry),
    (h.below other hother).parts_eq (h.portable other hother)] at hparts
  rw [List.inj_on_of_nodup_map h.distinct hentry hother hparts]

theorem Layable.entriesAgree (h : Layable zip) :
    EntriesAgree (zip.archive byteSize permissions) := by
  apply entriesAgree_of_distinct
  · exact fun a ha b hb hparts => h.parts_inj ha hb hparts
  · intro info hinfo content hdata
    obtain ⟨entry, hentry, rfl⟩ := Blob.mem_archive hinfo
    cases hdata
    rfl

/-- The viewer finds every member under its name. -/
theorem Layable.views (h : Layable zip) {files : FileSystem}
    (hfiles : safeUnzip (zip.archive byteSize permissions) = .ok files) {entry : ZipEntry}
    (hentry : entry ∈ zip) :
    ∃ viewed, readArtifactFile (zip.archive byteSize permissions)
        (String.intercalate "/" entry.name) = .ok viewed ∧
      posixParts viewed.path = entry.name ∧ viewed.size = entry.content.length := by
  have hinfo : entry.info (permissions entry) ∈ (zip.archive byteSize permissions).infolist :=
    List.mem_map_of_mem hentry
  have hparts : (entry.info (permissions entry)).parts = entry.name :=
    (h.below entry hentry).parts_eq (h.portable entry hentry)
  have hfirst : (zip.archive byteSize permissions).firstAt (entry.info (permissions entry)).parts =
      some (entry.info (permissions entry)) := by
    rw [ZipArchive.firstAt]
    cases hfind : (zip.archive byteSize permissions).infolist.find?
        (·.parts = (entry.info (permissions entry)).parts) with
    | none =>
      have hno := List.find?_eq_none.mp hfind _ hinfo
      simp at hno
    | some found =>
      have hsame : found.parts = (entry.info (permissions entry)).parts := by
        simpa using List.find?_some hfind
      rw [h.parts_inj (List.mem_of_find?_eq_some hfind) hinfo hsame]
  have hdata : (entry.info (permissions entry)).data = .ok entry.content := rfl
  obtain ⟨viewed, hread, hpath, hsize, -⟩ := readArtifactFile_of_first hfiles hfirst
    ((h.below entry hentry).isDir _) hdata
  refine ⟨viewed, hread, ?_, hsize⟩
  rw [hpath, posixParts_shownPath, hparts]

/-- The inspection of a packed archive is left with the three limits; its names pass. -/
theorem Layable.inspects (h : Layable zip) (limits : UploadLimits) :
    inspectZip limits (zip.archive byteSize permissions) = .ok () ↔
      (zip ≠ [] → (zip.length : Int) ≤ limits.maxZipEntries ∧
        ((zip.map (·.content.length)).sum : Nat) ≤ limits.maxUnzipBytes) ∧
      ∀ entry ∈ zip, (entry.content.length : Int) ≤ limits.maxSingleFileBytes := by
  have hfiles : (zip.archive byteSize permissions).infolist.filter (fun info => !info.isDir) =
      (zip.archive byteSize permissions).infolist := by
    rw [List.filter_eq_self]
    intro info hinfo
    obtain ⟨entry, hentry, rfl⟩ := Blob.mem_archive hinfo
    rw [(h.below entry hentry).isDir]
    rfl
  have hsizes : (zip.archive byteSize permissions).infolist.map (·.fileSize) =
      zip.map (·.content.length) := by
    rw [Blob.archive, List.map_map]
    rfl
  have hlength : (zip.archive byteSize permissions).infolist.length = zip.length := by
    rw [Blob.archive, List.length_map]
  have hempty : (zip.archive byteSize permissions).infolist ≠ [] ↔ zip ≠ [] := by
    rw [Blob.archive, ne_eq, List.map_eq_nil_iff]
  have hspec := inspectMembers_spec limits (zip.archive byteSize permissions).infolist 0 0
  rw [hfiles] at hspec
  have haccepted : FilesAccepted limits (zip.archive byteSize permissions).infolist 0 0 ↔
      (zip ≠ [] → (zip.length : Int) ≤ limits.maxZipEntries ∧
        ((zip.map (·.content.length)).sum : Nat) ≤ limits.maxUnzipBytes) ∧
      ∀ entry ∈ zip, (entry.content.length : Int) ≤ limits.maxSingleFileBytes := by
    constructor
    · intro hacc
      refine ⟨fun hne => ⟨?_, ?_⟩, fun entry hentry => ?_⟩
      · have hcount := hacc.count (hempty.mpr hne)
        rwa [hlength, Nat.zero_add] at hcount
      · have htotal := hacc.total (hempty.mpr hne)
        rwa [hsizes, Nat.zero_add] at htotal
      · exact hacc.single _ (List.mem_map_of_mem hentry)
    · rintro ⟨hall, hsingle⟩
      refine ⟨fun hne => ?_, fun hne => ?_, fun info hinfo => ?_, fun info hinfo => ?_⟩
      · rw [hlength, Nat.zero_add]
        exact (hall (hempty.mp hne)).1
      · rw [hsizes, Nat.zero_add]
        exact (hall (hempty.mp hne)).2
      · obtain ⟨entry, hentry, rfl⟩ := Blob.mem_archive hinfo
        exact hsingle entry hentry
      · obtain ⟨entry, hentry, rfl⟩ := Blob.mem_archive hinfo
        refine ⟨entry.regular _, ?_⟩
        rw [ZipInfo.hasPath, (h.below entry hentry).validates (h.portable entry hentry)]
        rfl
  rw [inspectZip, Blob.testzip_archive, ← haccepted]
  rcases hspec with ⟨hyes, hok⟩ | ⟨hno, e, herror, -⟩
  · exact iff_of_true hok hyes
  · refine iff_of_false (fun hc => ?_) hno
    cases herror.symm.trans hc

end

/-- The viewer returns every packed file. -/
def Checkout.ViewedIn (checkout : Checkout) (archive : ZipArchive) : Prop :=
  ∀ path content, checkout.Packs path content → ∃ viewed,
    readArtifactFile archive (String.intercalate "/" path) = .ok viewed ∧
      posixParts viewed.path = path ∧ viewed.size = content.length

/-- A release unpacks to just the files that its repository packs exactly when all their
names are portable. Such a release passes inspection if its sizes do, and reviewers see
every one of its files as it is installed. -/
theorem release_unpacks_iff (checkout : Checkout) (htree : checkout.files.IsTree)
    (maxReleaseZipBytes : Int) (hpacked : (createZip checkout maxReleaseZipBytes).2 = none)
    (byteSize : Nat) (permissions : ZipEntry → Fin 4096) :
    let archive := (createZip checkout maxReleaseZipBytes).1.archive byteSize permissions
    ((∃ files, safeUnzip archive = .ok files ∧ checkout.UnpackedAs files) ↔ checkout.Portable) ∧
      (checkout.Portable → ∀ limits lower,
        (inspectZip limits archive = .ok () ↔ checkout.Fits limits) ∧
          ∀ files, safeUnzip archive = .ok files →
            ViewedAsInstalled lower archive files ∧ checkout.ViewedIn archive) := by
  intro archive
  have hzip : (createZip checkout maxReleaseZipBytes).1 = checkout.members.map (·.1) := by
    by_cases hover : checkout.OverLimit maxReleaseZipBytes
    · rw [(checkout.createZip_spec maxReleaseZipBytes).1 hover] at hpacked
      cases hpacked
    · rw [(checkout.createZip_spec maxReleaseZipBytes).2 hover]
  have hportable : checkout.Portable ↔
      ∀ entry ∈ checkout.members.map (·.1), PortablePath entry.name := by
    constructor
    · intro h entry hentry
      exact h entry.name entry.content (Checkout.mem_packed.mp hentry)
    · intro h path content hpacks
      exact h _ (Checkout.mem_packed.mpr hpacks)
  have harchive : archive = Blob.archive (checkout.members.map (·.1)) byteSize permissions := by
    rw [← hzip]
  rw [harchive]
  refine ⟨⟨?_, ?_⟩, ?_⟩
  · rintro ⟨files, hfiles, hsame⟩ path content hpacks
    have hentry := Checkout.mem_packed.mpr hpacks
    constructor
    · have hlook := (hsame.holds path content content.length).mpr ⟨hpacks, rfl⟩
      obtain ⟨info, hlast, -⟩ := (safeUnzip_file hfiles path content content.length).mp hlook
      have hwrites := (List.mem_filter.mp (List.mem_of_getLast? hlast)).2
      rw [Bool.and_eq_true, decide_eq_true_eq] at hwrites
      rw [← hwrites.2]
      exact info.parts_slashes
    · obtain ⟨before, after, hstep⟩ := foldlM_steps hfiles
        (List.mem_map_of_mem (f := fun entry => entry.info (permissions entry)) hentry)
      obtain ⟨_, hvalid, -⟩ := except_bind_ok hstep
      exact (validateMemberPath_ok hvalid).2.2.2
  · intro h
    obtain ⟨files, hfiles, hlaid⟩ := Laid.nil.unpack permissions (checkout.members.map (·.1))
      (by rw [List.nil_append]; exact checkout.layable htree (hportable.mp h))
    exact ⟨files, hfiles, Checkout.unpackedAs_of_laid hlaid⟩
  · intro h limits lower
    have hlayable := checkout.layable htree (hportable.mp h)
    refine ⟨?_, fun files hfiles => ?_⟩
    · rw [hlayable.inspects]
      exact Checkout.fits_iff.symm
    · refine ⟨(viewedAsInstalled_iff lower hfiles).mpr hlayable.entriesAgree, ?_⟩
      intro path content hpacks
      have hviews := hlayable.views hfiles (Checkout.mem_packed.mpr hpacks)
      exact hviews

def packageFiles : FileSystem :=
  AList.insert ["repo"] .dir (AList.insert ["repo", "demo"] .dir
    (AList.insert ["repo", "demo", "main.py"] (.file [0x70] 1) ∅))

theorem packageFiles_node {path : Path} {node : Node} (h : packageFiles.lookup path = some node) :
    (path, node) ∈ [(["repo"], Node.dir), (["repo", "demo"], .dir),
      (["repo", "demo", "main.py"], .file [0x70] 1)] := by
  have hin := Table.mem_entries.mpr h
  have hentries : packageFiles.entries = [⟨["repo"], .dir⟩, ⟨["repo", "demo"], .dir⟩,
      ⟨["repo", "demo", "main.py"], .file [0x70] 1⟩] := by decide
  simp only [hentries, List.mem_cons, List.not_mem_nil, or_false] at hin
  rcases hin with hin | hin | hin <;> cases hin <;> decide

def packageCheckout : Checkout where
  files := packageFiles
  repoDir := ["repo"]
  honest := by
    intro p content size _ h
    have hnode := packageFiles_node h
    simp only [List.mem_cons, Prod.mk.injEq, reduceCtorEq, and_false, List.not_mem_nil, or_false,
      false_or] at hnode
    cases hnode.2
    rfl

theorem packageFiles_isTree : packageFiles.IsTree where
  names path h part hpart := by
    obtain ⟨node, hnode⟩ := Option.ne_none_iff_exists'.mp h
    have hnames : ∀ row ∈ [(["repo"], Node.dir), (["repo", "demo"], .dir),
        (["repo", "demo", "main.py"], .file [0x70] 1)], ∀ part ∈ row.1,
        '/' ∉ part.toList ∧ part ≠ "" ∧ part ≠ "." ∧ part ≠ ".." := by
      decide
    obtain ⟨hslash, hempty, hdot, hup⟩ := hnames _ (packageFiles_node hnode) part hpart
    exact ⟨⟨hslash, hempty, hdot⟩, hup⟩
  parents path q h hq hprefix hne := by
    obtain ⟨node, hnode⟩ := Option.ne_none_iff_exists'.mp h
    have hdirs : ∀ row ∈ [(["repo"], Node.dir), (["repo", "demo"], .dir),
        (["repo", "demo", "main.py"], .file [0x70] 1)], ∀ q ∈ row.1.inits,
        q ≠ [] → q ≠ row.1 → packageFiles.lookup q = some .dir := by
      decide +kernel
    exact hdirs _ (packageFiles_node hnode) q ((List.mem_inits _ _).mpr hprefix) hq hne

theorem release_unpacks_iff_package :
    ∃ files, safeUnzip ((createZip packageCheckout 10).1.archive 100 fun _ => 0o644) = .ok files ∧
      packageCheckout.UnpackedAs files := by
  refine (release_unpacks_iff packageCheckout packageFiles_isTree 10 (by decide +kernel) 100
    fun _ => 0o644).1.mpr fun path content hpacks => ?_
  have hpacked : packageCheckout.members.map (·.1) = [⟨["demo", "main.py"], [0x70]⟩] := by
    decide +kernel
  have hentry := Checkout.mem_packed.mpr hpacks
  rw [hpacked, List.mem_singleton] at hentry
  cases hentry
  exact ⟨by decide, by decide +kernel⟩

end PluginRegistry
