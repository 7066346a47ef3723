import PluginRegistry.Lib.Loops
import PluginRegistry.Proofs.RefAgreement
import PluginRegistry.Services.ArtifactService

namespace PluginRegistry
open Lib

variable {archive : ZipArchive} {info : ZipInfo} {name : String} {path : Path}
  {files files' : FileSystem}

@[irreducible] def ZipInfo.parts (info : ZipInfo) : Path :=
  posixParts (forwardSlashes info.filename)

@[irreducible] def ZipInfo.shownPath (info : ZipInfo) : String :=
  String.intercalate "/" info.parts

theorem validateMemberPath_ok (h : validateMemberPath name = .ok path) :
    path = posixParts (forwardSlashes name) ∧ path ≠ [] ∧ ".." ∉ path ∧
      hasWindowsDrive name = false := by
  unfold validateMemberPath at h
  dsimp only at h
  split at h
  · cases h
  · rename_i habsolute
    rw [Bool.not_eq_true, Bool.or_eq_false_iff] at habsolute
    split at h
    · cases h
    · rename_i hup
      split at h
      · cases h
      · rename_i hempty
        rw [← Except.ok.inj h]
        refine ⟨rfl, by simpa using hempty, ?_, habsolute.2⟩
        simpa [List.contains_iff_mem] using hup

/-- No path is absolute once the slashes at its ends are gone. -/
theorem isPosixAbsolute_strip (text : String) :
    isPosixAbsolute (stripBy (· = '/') text) = false := by
  simp only [isPosixAbsolute, stripBy, rstripBy, lstripBy, String.toList_ofList, decide_eq_false_iff_not]
  intro hhead
  have hprefix : ((text.toList.dropWhile (· = '/')).reverse.dropWhile (· = '/')).reverse <+:
      text.toList.dropWhile (· = '/') := by
    rw [← List.reverse_suffix, List.reverse_reverse]
    exact List.dropWhile_suffix _
  obtain ⟨rest, hrest⟩ := hprefix
  have hfirst : (text.toList.dropWhile (· = '/')).head? = some '/' := by
    rw [← hrest, List.head?_append, hhead]
    rfl
  have hnot := List.head?_dropWhile_not (fun c : Char => decide (c = '/')) text.toList
  rw [hfirst] at hnot
  simp at hnot

theorem normalizeMemberPath_ok (h : validateMemberPath info.filename = .ok path) :
    path = info.parts ∧ info.parts ≠ [] ∧
      normalizeMemberPath info.filename = .ok info.shownPath := by
  obtain ⟨hpath, hne, hup, hdrive⟩ := validateMemberPath_ok h
  rw [hpath] at hne hup
  rw [ZipInfo.parts]
  refine ⟨hpath, hne, ?_⟩
  have hparts := posixParts_strip (forwardSlashes info.filename)
  have hgiven : (stripBy (· = '/') (forwardSlashes info.filename)).isEmpty = false := by
    rw [Bool.eq_false_iff]
    intro hempty
    rw [String.isEmpty_iff.mp hempty] at hparts
    exact hne (hparts.symm.trans (by decide))
  have hparent : (posixParts (forwardSlashes info.filename)).contains ".." = false := by
    simpa [List.contains_iff_mem] using hup
  have hsome : (posixParts (forwardSlashes info.filename)).isEmpty = false := by
    simpa using hne
  unfold normalizeMemberPath
  simp only [hgiven, isPosixAbsolute_strip, hdrive, hparts, hparent, Bool.or_self,
    Bool.false_eq_true, if_false, asPosix, hsome, ZipInfo.shownPath, ZipInfo.parts]

/-- A path that was taken apart is put together again. -/
theorem posixParts_shownPath (info : ZipInfo) : posixParts info.shownPath = info.parts := by
  rw [ZipInfo.shownPath, ZipInfo.parts]
  exact posixParts_join fun _ hp => posixParts_valid hp

theorem shownPath_inj {other : ZipInfo} :
    info.shownPath = other.shownPath ↔ info.parts = other.parts := by
  constructor
  · intro h
    rw [← posixParts_shownPath, h, posixParts_shownPath]
  · intro h
    rw [ZipInfo.shownPath, h, ZipInfo.shownPath]

theorem shownPath_isEmpty (h : info.parts ≠ []) : info.shownPath.isEmpty = false := by
  rw [Bool.eq_false_iff]
  intro hempty
  have hblank := posixParts_shownPath info
  rw [String.isEmpty_iff.mp hempty] at hblank
  exact h (hblank.symm.trans (by decide))

/-- Making directories leaves every file as it is. -/
theorem makeDirs_file {base : Path} (h : makeDirs files base path = .ok files') (target : Path)
    (content : List UInt8) (size : Nat) :
    files'.lookup target = some (.file content size) ↔
      files.lookup target = some (.file content size) := by
  induction path generalizing files base with
  | nil =>
    cases h
    rfl
  | cons part rest ih =>
    rw [makeDirs] at h
    cases hp : files.lookup (base ++ [part]) with
    | none =>
      rw [hp] at h
      rw [ih h]
      by_cases ht : target = base ++ [part]
      · rw [ht, AList.lookup_insert, hp]
        simp
      · rw [AList.lookup_insert_ne ht]
    | some node =>
      rw [hp] at h
      cases node with
      | dir => exact ih h
      | file | symlink | special => cases h

/-- What one member leaves: a file has what it holds, the other files stay. -/
theorem extractMember_file (h : extractMember files info = .ok files') (target : Path)
    (content : List UInt8) (size : Nat) :
    files'.lookup target = some (.file content size) ↔
      if !info.isDir && info.parts = target then info.data = .ok content ∧ size = content.length
      else files.lookup target = some (.file content size) := by
  obtain ⟨path, hpath, h⟩ := except_bind_ok h
  obtain ⟨hparts, -⟩ := normalizeMemberPath_ok hpath
  subst hparts
  cases hdir : info.isDir with
  | true =>
    rw [hdir, if_pos rfl] at h
    rw [if_neg (by simp)]
    exact makeDirs_file h target content size
  | false =>
    rw [hdir, if_neg (by simp)] at h
    obtain ⟨made, hmade, h⟩ := except_bind_ok h
    obtain ⟨written, hdata, h⟩ := except_bind_ok h
    unfold writeNew at h
    split at h
    · cases h
    · cases h
      by_cases ht : info.parts = target
      · rw [if_pos (by simp [ht]), ← ht, AList.lookup_insert, hdata]
        simp only [Option.some.injEq, Node.file.injEq, Except.ok.injEq]
        constructor
        · rintro ⟨rfl, rfl⟩
          exact ⟨rfl, rfl⟩
        · rintro ⟨rfl, rfl⟩
          exact ⟨rfl, rfl⟩
      · rw [if_neg (by simp [ht]), AList.lookup_insert_ne (Ne.symm ht)]
        exact makeDirs_file hmade target content size

def ZipArchive.firstAt (archive : ZipArchive) (path : Path) : Option ZipInfo :=
  archive.infolist.find? (·.parts = path)

def ZipArchive.lastFileAt (archive : ZipArchive) (path : Path) : Option ZipInfo :=
  (archive.infolist.filter fun info => !info.isDir && info.parts = path).getLast?

/-- An extracted file holds what the last file of its path does. -/
theorem safeUnzip_file (h : safeUnzip archive = .ok files) (target : Path) (content : List UInt8)
    (size : Nat) :
    files.lookup target = some (.file content size) ↔
      ∃ info, archive.lastFileAt target = some info ∧ info.data = .ok content ∧
        size = content.length := by
  have hrun := foldlM_keeps
    (fun latest info => if !info.isDir && info.parts = target then some info else latest)
    (fun files latest => ∀ content size, files.lookup target = some (.file content size) ↔
      ∃ info, latest = some info ∧ info.data = .ok content ∧ size = content.length)
    (g := none) ?_ (by simp) h
  · rw [foldl_latest, Option.or_none] at hrun
    exact hrun content size
  · intro info _ files latest files' hinv hstep content size
    rw [extractMember_file hstep]
    by_cases hwrites : (!info.isDir && info.parts = target) = true
    · rw [if_pos hwrites, if_pos hwrites]
      simp
    · rw [if_neg hwrites, if_neg hwrites]
      exact hinv content size

/-- Every member of an archive that was extracted has a path, and every file can
be read. -/
theorem safeUnzip_members (h : safeUnzip archive = .ok files) (hinfo : info ∈ archive.infolist) :
    normalizeMemberPath info.filename = .ok info.shownPath ∧ info.parts ≠ [] ∧
      (info.isDir = false → ∃ content, info.data = .ok content) := by
  obtain ⟨before, after, hstep⟩ := foldlM_steps h hinfo
  obtain ⟨path, hpath, hstep⟩ := except_bind_ok hstep
  obtain ⟨-, hparts, hnormal⟩ := normalizeMemberPath_ok hpath
  refine ⟨hnormal, hparts, ?_⟩
  intro hdir
  rw [hdir, if_neg (by simp)] at hstep
  obtain ⟨made, -, hstep⟩ := except_bind_ok hstep
  obtain ⟨content, hdata, -⟩ := except_bind_ok hstep
  exact ⟨content, hdata⟩

theorem findMember_named {requestedPath : String} {infos : List ZipInfo}
    (h : ∀ info ∈ infos, normalizeMemberPath info.filename = .ok info.shownPath) :
    findMember requestedPath infos = .ok (infos.find? (·.shownPath = requestedPath)) := by
  induction infos with
  | nil => rfl
  | cons info infos ih =>
    have hrest := ih fun other ho => h other (List.mem_cons_of_mem info ho)
    rw [findMember, h info List.mem_cons_self, List.find?_cons]
    simp only [bind, Except.bind]
    by_cases hpath : info.shownPath = requestedPath
    · rw [if_pos hpath]
      simp [hpath, pure, Except.pure]
    · rw [if_neg hpath, hrest]
      simp [hpath]

theorem firstAt_shownPath (info : ZipInfo) :
    archive.infolist.find? (·.shownPath = info.shownPath) = archive.firstAt info.parts := by
  simp only [ZipArchive.firstAt, shownPath_inj]

def shownText (path : String) (raw : List UInt8) : Option String :=
  if binaryExtensions.contains (extensionOf path) || (raw.take maxPreviewBytes).contains 0 then none
  else some (decodeReplace (raw.take maxPreviewBytes))

theorem previewMember_spec (requestedPath : String) {raw : List UInt8} (h : info.data = .ok raw) :
    ∃ viewed, previewMember requestedPath info = .ok viewed ∧ viewed.path = requestedPath ∧
      viewed.size = info.fileSize ∧ viewed.content = shownText requestedPath raw := by
  unfold previewMember shownText
  dsimp only
  rw [h, Except.map]
  cases binaryExtensions.contains (extensionOf requestedPath) with
  | true => exact ⟨_, rfl, rfl, rfl, rfl⟩
  | false =>
    rw [List.take_take, Nat.min_eq_left (Nat.le_succ _)]
    cases (raw.take maxPreviewBytes).contains 0 with
    | true => exact ⟨_, rfl, rfl, rfl, rfl⟩
    | false => exact ⟨_, rfl, rfl, rfl, rfl⟩

/-- The file that is returned is the first member of its path. -/
theorem readArtifactFile_first (h : safeUnzip archive = .ok files) {filePath : String}
    {viewed : ArtifactFile} (hread : readArtifactFile archive filePath = .ok viewed) :
    ∃ shown raw, archive.firstAt shown.parts = some shown ∧ shown.isDir = false ∧
      shown.data = .ok raw ∧ viewed.path = shown.shownPath ∧ viewed.size = shown.fileSize ∧
      viewed.content = shownText shown.shownPath raw := by
  obtain ⟨requestedPath, -, hread⟩ := except_bind_ok hread
  rw [findMember_named fun _ hinfo => (safeUnzip_members h hinfo).1] at hread
  obtain ⟨found, hfound, hread⟩ := except_bind_ok hread
  cases hfound
  cases hfind : archive.infolist.find? (·.shownPath = requestedPath) with
  | none =>
    rw [hfind] at hread
    cases hread
  | some shown =>
    rw [hfind] at hread
    dsimp only at hread
    have hpath : shown.shownPath = requestedPath := by
      simpa using List.find?_some hfind
    subst hpath
    cases hdir : shown.isDir with
    | true =>
      rw [hdir] at hread
      cases hread
    | false =>
      rw [hdir, if_neg (by simp)] at hread
      obtain ⟨raw, hraw⟩ := (safeUnzip_members h (List.mem_of_find?_eq_some hfind)).2.2 hdir
      obtain ⟨viewed', hviewed, hfields⟩ := previewMember_spec shown.shownPath hraw
      rw [hviewed] at hread
      cases hread
      rw [firstAt_shownPath] at hfind
      exact ⟨shown, raw, hfind, hdir, hraw, hfields⟩

/-- The first member of a path is returned if it is a file. -/
theorem readArtifactFile_of_first (h : safeUnzip archive = .ok files) {shown : ZipInfo}
    (hfirst : archive.firstAt shown.parts = some shown) (hdir : shown.isDir = false)
    {raw : List UInt8} (hraw : shown.data = .ok raw) :
    ∃ viewed, readArtifactFile archive shown.filename = .ok viewed ∧
      viewed.path = shown.shownPath ∧ viewed.size = shown.fileSize ∧
      viewed.content = shownText shown.shownPath raw := by
  obtain ⟨viewed, hviewed, hfields⟩ := previewMember_spec shown.shownPath hraw
  refine ⟨viewed, ?_, hfields⟩
  have hmember := List.mem_of_find?_eq_some hfirst
  obtain ⟨hname, hparts, -⟩ := safeUnzip_members h hmember
  have hnormal : normalizeRequestedPath shown.filename = .ok shown.shownPath := by
    simp only [normalizeRequestedPath, hname, bind, Except.bind, shownPath_isEmpty hparts,
      Bool.false_eq_true, if_false]
    rfl
  rw [readArtifactFile, hnormal]
  simp only [bind, Except.bind, findMember_named fun _ hinfo => (safeUnzip_members h hinfo).1,
    firstAt_shownPath, hfirst, hdir, Bool.false_eq_true, if_false]
  exact hviewed

def SizeShown (entries : List ArtifactEntry) (shownPath : String) (size : Nat) : Prop :=
  (∃ entry ∈ entries, entry.path = shownPath) ∧
    ∀ entry ∈ entries, entry.path = shownPath → entry.size = some size

section
variable {entries : List ArtifactEntry} {shownPath : String} {size : Nat}

theorem SizeShown.setDefault (h : SizeShown entries shownPath size) (entry : ArtifactEntry) :
    SizeShown (setDefaultEntry entries entry) shownPath size := by
  unfold setDefaultEntry
  split
  · exact h
  · rename_i hnew
    have hother : entry.path ≠ shownPath := by
      intro hsame
      obtain ⟨old, hold, hpath⟩ := h.1
      apply hnew
      exact List.any_eq_true.mpr ⟨old, hold, by simpa [hsame] using hpath⟩
    obtain ⟨⟨old, hold, hpath⟩, hsize⟩ := h
    refine ⟨⟨old, List.mem_append_left _ hold, hpath⟩, ?_⟩
    intro found hfound hpath'
    rcases List.mem_append.mp hfound with hfound | hfound
    · exact hsize found hfound hpath'
    · rw [List.mem_singleton.mp hfound] at hpath'
      exact absurd hpath' hother

theorem SizeShown.addParentDirs (h : SizeShown entries shownPath size) (path : String) :
    SizeShown (addParentDirs entries path) shownPath size := by
  unfold PluginRegistry.addParentDirs
  dsimp only
  generalize List.range' 1 ((posixParts path).length - 1) = indices
  induction indices generalizing entries with
  | nil => exact h
  | cons index indices ih => exact ih (h.setDefault _)

theorem sizeShown_assign (entry : ArtifactEntry) (h : entry.size = some size) :
    SizeShown (assignEntry entries entry) entry.path size := by
  unfold assignEntry
  split
  · rename_i hold
    obtain ⟨old, hmem, hpath⟩ := List.any_eq_true.mp hold
    refine ⟨⟨entry, List.mem_map.mpr ⟨old, hmem, if_pos (by simpa using hpath)⟩, rfl⟩, ?_⟩
    intro found hfound hpath'
    obtain ⟨old', -, rfl⟩ := List.mem_map.mp hfound
    by_cases hsame : old'.path = entry.path
    · rw [if_pos hsame]
      exact h
    · rw [if_neg hsame] at hpath'
      exact absurd hpath' hsame
  · rename_i hnew
    refine ⟨⟨entry, List.mem_append_right _ List.mem_cons_self, rfl⟩, ?_⟩
    intro found hfound hpath'
    rcases List.mem_append.mp hfound with hfound | hfound
    · exact absurd (List.any_eq_true.mpr ⟨found, hfound, by simpa using hpath'⟩) hnew
    · rw [List.mem_singleton.mp hfound]
      exact h

theorem SizeShown.assign (h : SizeShown entries shownPath size) {entry : ArtifactEntry}
    (hne : entry.path ≠ shownPath) : SizeShown (assignEntry entries entry) shownPath size := by
  obtain ⟨⟨old, hmem, hpath⟩, hsize⟩ := h
  unfold assignEntry
  split
  · have hkept : old.path ≠ entry.path := by
      rw [hpath]
      exact Ne.symm hne
    refine ⟨⟨old, List.mem_map.mpr ⟨old, hmem, if_neg hkept⟩, hpath⟩, ?_⟩
    intro found hfound hpath'
    obtain ⟨old', hmem', rfl⟩ := List.mem_map.mp hfound
    by_cases hsame : old'.path = entry.path
    · rw [if_pos hsame] at hpath'
      exact absurd hpath' hne
    · rw [if_neg hsame] at hpath' ⊢
      exact hsize old' hmem' hpath'
  · refine ⟨⟨old, List.mem_append_left _ hmem, hpath⟩, ?_⟩
    intro found hfound hpath'
    rcases List.mem_append.mp hfound with hfound | hfound
    · exact hsize found hfound hpath'
    · rw [List.mem_singleton.mp hfound] at hpath'
      exact absurd hpath' hne

end

theorem addMember_named (h : safeUnzip archive = .ok files) (hinfo : info ∈ archive.infolist)
    (entries : List ArtifactEntry) :
    addMember entries info = .ok (if info.isDir then
      setDefaultEntry (addParentDirs entries info.shownPath)
        ⟨info.shownPath, posixName info.shownPath, .dir, none⟩
      else assignEntry (addParentDirs entries info.shownPath)
        ⟨info.shownPath, posixName info.shownPath, .file, some info.fileSize⟩) := by
  obtain ⟨hname, hparts, -⟩ := safeUnzip_members h hinfo
  simp only [addMember, hname, bind, Except.bind, shownPath_isEmpty hparts, Bool.false_eq_true,
    if_false, pure, Except.pure, apply_ite Except.ok]

/-- The tree shows the size of the last file of a path. -/
theorem readArtifactTree_size (lower : String → String) (h : safeUnzip archive = .ok files)
    {shown installed : ZipInfo} (hlast : archive.lastFileAt shown.parts = some installed) :
    ∃ tree, readArtifactTree lower archive = .ok tree ∧
      SizeShown tree shown.shownPath installed.fileSize := by
  obtain ⟨entries, hentries⟩ : ∃ entries, archive.infolist.foldlM addMember [] = .ok entries :=
    foldlM_ends (fun _ hinfo entries => ⟨_, addMember_named h hinfo entries⟩) []
  have hrun := foldlM_keeps
    (fun latest info => if !info.isDir && info.parts = shown.parts then some info else latest)
    (fun entries latest => ∀ info : ZipInfo, latest = some info →
      SizeShown entries shown.shownPath info.fileSize)
    (g := none) ?_ (fun _ hnone => by cases hnone) hentries
  · rw [foldl_latest, Option.or_none] at hrun
    obtain ⟨⟨entry, hmem, hpath⟩, hsize⟩ := hrun installed hlast
    have htree : readArtifactTree lower archive =
        .ok (entries.mergeSort (ArtifactEntry.notAfter lower)) := by
      simp only [readArtifactTree, hentries, bind, Except.bind, pure, Except.pure]
    refine ⟨_, htree, ⟨entry, List.mem_mergeSort.mpr hmem, hpath⟩, ?_⟩
    intro found hfound
    exact hsize found (List.mem_mergeSort.mp hfound)
  · intro info hinfo entries latest entries' hinv hstep found hfound
    rw [addMember_named h hinfo] at hstep
    have hentries' := Except.ok.inj hstep
    subst hentries'
    cases hdir : info.isDir with
    | true =>
      rw [hdir, if_neg (by simp)] at hfound
      rw [if_pos rfl]
      exact ((hinv found hfound).addParentDirs _).setDefault _
    | false =>
      rw [hdir] at hfound
      rw [if_neg (by simp)]
      by_cases hsame : info.parts = shown.parts
      · rw [if_pos (by simp [hsame])] at hfound
        cases hfound
        rw [← shownPath_inj.mpr hsame]
        exact sizeShown_assign _ rfl
      · rw [if_neg (by simp [hsame])] at hfound
        have hother : info.shownPath ≠ shown.shownPath := by
          rwa [Ne, shownPath_inj]
        apply ((hinv found hfound).addParentDirs info.shownPath).assign
        dsimp only
        exact hother

/-- Every file that the viewer returns has the content and the size, and is
listed with the size, of the file that extraction leaves at its path. -/
def ViewedAsInstalled (lower : String → String) (archive : ZipArchive) (files : FileSystem) :
    Prop :=
  ∀ filePath viewed, readArtifactFile archive filePath = .ok viewed →
    ∃ content tree,
      files.lookup (posixParts viewed.path) = some (.file content content.length) ∧
      viewed.size = content.length ∧
      (∀ text, viewed.content = some text →
        text = decodeReplace (content.take maxPreviewBytes)) ∧
      readArtifactTree lower archive = .ok tree ∧ SizeShown tree viewed.path content.length

/-- Wherever the first member of a path is a file, it and the last file of the
path state the size that the last one has, and the first one, where it is shown
as text, begins with the same text. -/
def EntriesAgree (archive : ZipArchive) : Prop :=
  ∀ shown raw installed content, archive.firstAt shown.parts = some shown →
    shown.isDir = false → shown.data = .ok raw →
    archive.lastFileAt shown.parts = some installed → installed.data = .ok content →
    shown.fileSize = content.length ∧ installed.fileSize = content.length ∧
      ∀ text, shownText shown.shownPath raw = some text →
        text = decodeReplace (content.take maxPreviewBytes)

/-- A path whose first member is a file has a last file. -/
theorem lastFileAt_of_first {shown : ZipInfo} (hfirst : archive.firstAt shown.parts = some shown)
    (hdir : shown.isDir = false) :
    ∃ installed, archive.lastFileAt shown.parts = some installed := by
  have hmem : shown ∈ archive.infolist.filter fun info =>
      !info.isDir && info.parts = shown.parts := by
    refine List.mem_filter.mpr ⟨List.mem_of_find?_eq_some hfirst, ?_⟩
    simp [hdir]
  exact Option.isSome_iff_exists.mp (List.getLast?_isSome.mpr (List.ne_nil_of_mem hmem))

theorem lastFileAt_readable (h : safeUnzip archive = .ok files) {installed : ZipInfo}
    (hlast : archive.lastFileAt path = some installed) :
    ∃ content, installed.data = .ok content := by
  obtain ⟨hmem, hwrites⟩ := List.mem_filter.mp (List.mem_of_getLast? hlast)
  rw [Bool.and_eq_true, Bool.not_eq_true'] at hwrites
  exact (safeUnzip_members h hmem).2.2 hwrites.1

theorem SizeShown.unique {entries : List ArtifactEntry} {shownPath : String} {size size' : Nat}
    (h : SizeShown entries shownPath size) (h' : SizeShown entries shownPath size') :
    size = size' := by
  obtain ⟨⟨entry, hmem, hpath⟩, hsize⟩ := h
  have hboth := (hsize entry hmem hpath).symm.trans (h'.2 entry hmem hpath)
  exact Option.some.inj hboth

/-- Reader and extraction agree on every path exactly where no two entries of the archive
quarrel. -/
theorem viewedAsInstalled_iff (lower : String → String) (h : safeUnzip archive = .ok files) :
    ViewedAsInstalled lower archive files ↔ EntriesAgree archive := by
  constructor
  · intro hviews shown raw installed content hfirst hdir hraw hlast hdata
    obtain ⟨viewed, hread, hpath, hsize, hcontent⟩ := readArtifactFile_of_first h hfirst hdir hraw
    obtain ⟨extracted, tree, hfile, hsize', htext, htree, hshown⟩ := hviews _ viewed hread
    rw [hpath, posixParts_shownPath, safeUnzip_file h] at hfile
    obtain ⟨last, hlast', hdata', -⟩ := hfile
    rw [hlast] at hlast'
    cases hlast'
    rw [hdata] at hdata'
    cases hdata'
    obtain ⟨tree', htree', hshown'⟩ := readArtifactTree_size lower h hlast
    rw [htree] at htree'
    cases htree'
    rw [hpath] at hshown
    refine ⟨hsize.symm.trans hsize', hshown'.unique hshown, ?_⟩
    intro text hpreview
    exact htext text (hcontent.trans hpreview)
  · intro hagree filePath viewed hread
    obtain ⟨shown, raw, hfirst, hdir, hraw, hpath, hsize, hcontent⟩ :=
      readArtifactFile_first h hread
    obtain ⟨installed, hlast⟩ := lastFileAt_of_first hfirst hdir
    obtain ⟨content, hdata⟩ := lastFileAt_readable h hlast
    obtain ⟨hfirstSize, hlastSize, htext⟩ :=
      hagree shown raw installed content hfirst hdir hraw hlast hdata
    obtain ⟨tree, htree, hshown⟩ := readArtifactTree_size lower h hlast
    rw [hlastSize] at hshown
    refine ⟨content, tree, ?_, hsize.trans hfirstSize, ?_, htree, ?_⟩
    · rw [hpath, posixParts_shownPath, safeUnzip_file h]
      exact ⟨installed, hlast, hdata, rfl⟩
    · intro text hshownText
      exact htext text (hcontent.symm.trans hshownText)
    · rwa [hpath]

/-- Archives with one member a path, and true sizes, are shown as installed. -/
theorem entriesAgree_of_distinct
    (hdistinct : ∀ a ∈ archive.infolist, ∀ b ∈ archive.infolist, a.parts = b.parts → a = b)
    (hsizes : ∀ a ∈ archive.infolist, ∀ content, a.data = .ok content →
      a.fileSize = content.length) :
    EntriesAgree archive := by
  intro shown raw installed content hfirst hdir hraw hlast hdata
  have hshown := List.mem_of_find?_eq_some hfirst
  obtain ⟨hinstalled, hwrites⟩ := List.mem_filter.mp (List.mem_of_getLast? hlast)
  rw [Bool.and_eq_true, decide_eq_true_eq] at hwrites
  have hsame := hdistinct shown hshown installed hinstalled hwrites.2.symm
  subst hsame
  rw [hraw] at hdata
  cases hdata
  refine ⟨hsizes shown hshown raw hraw, hsizes shown hshown raw hraw, ?_⟩
  intro text htext
  unfold shownText at htext
  split at htext
  · cases htext
  · exact (Option.some.inj htext).symm

/-- The viewer shows what an accepted upload installs exactly when the members
of every path agree. -/
theorem artifact_view_iff (lower : String → String) (yaml : Yaml) (limits : UploadLimits)
    (archive : ZipArchive) (metadata : PluginMetadata)
    (h : processUploadedZip yaml limits archive = .ok metadata) :
    ∃ files, safeUnzip archive = .ok files ∧
      (ViewedAsInstalled lower archive files ↔ EntriesAgree archive) := by
  unfold processUploadedZip at h
  split at h
  · cases h
  · obtain ⟨-, -, h⟩ := except_bind_ok h
    obtain ⟨files, hfiles, -⟩ := except_bind_ok h
    exact ⟨files, hfiles, viewedAsInstalled_iff lower hfiles⟩

def storedFile (filename : String) (content : List UInt8) : ZipInfo where
  filename
  externalAttr := 0
  fileSize := content.length
  data := .ok content
  within := by
    intro read hread
    cases hread
    exact le_rfl

def doubledArchive : ZipArchive :=
  ⟨400, [storedFile "metadata.yaml" (demoFile "1.0.0"), storedFile "main.py" (utf8 "pass"),
    storedFile "main.py" (utf8 "evil()")]⟩

def doubledFiles : FileSystem :=
  AList.insert ["main.py"] (.file (utf8 "evil()") 6)
    (AList.insert ["main.py"] (.file (utf8 "pass") 4)
      (AList.insert ["metadata.yaml"] (.file (demoFile "1.0.0") (demoFile "1.0.0").length) ∅))

def demoLimits : UploadLimits :=
  ⟨1000000, 1000000, 100, 1000000⟩

theorem doubledArchive_unzips : safeUnzip doubledArchive = .ok doubledFiles := by
  rfl

theorem doubledArchive_inspected : inspectZip demoLimits doubledArchive = .ok () := by
  decide

theorem doubledFiles_metadata : findMetadataYaml doubledFiles = .ok ["metadata.yaml"] := by
  rfl

theorem doubledArchive_accepted :
    processUploadedZip demoYaml demoLimits doubledArchive =
      .ok ⟨"demo", "alice", "1.0.0", none⟩ := by
  have hsize : ¬ demoLimits.maxUploadBytes < (doubledArchive.byteSize : Int) := by
    decide
  have hstat : doubledFiles.stat ["metadata.yaml"] =
      some (.file (demoFile "1.0.0") (demoFile "1.0.0").length) := rfl
  have hparse : parseMetadataYaml demoYaml doubledFiles ["metadata.yaml"] =
      .ok ⟨"demo", "alice", "1.0.0", none⟩ :=
    parseMetadataYaml_ok.mpr ⟨_, _, hstat,
      parseMetadataYamlText_ok.mpr ⟨demoData "1.0.0", demoYaml_load "1.0.0", rfl⟩⟩
  rw [processUploadedZip, if_neg hsize]
  simp only [bind, Except.bind, doubledArchive_inspected, doubledArchive_unzips,
    doubledFiles_metadata]
  exact hparse

theorem artifact_view_iff_doubled :
    processUploadedZip demoYaml demoLimits doubledArchive = .ok ⟨"demo", "alice", "1.0.0", none⟩ ∧
      ∃ files, safeUnzip doubledArchive = .ok files ∧
        (ViewedAsInstalled asciiLower doubledArchive files ↔ EntriesAgree doubledArchive) :=
  ⟨doubledArchive_accepted,
    artifact_view_iff asciiLower demoYaml demoLimits doubledArchive _ doubledArchive_accepted⟩

/-- The viewer shows the first of two members of one name, and installing the
archive leaves the second. -/
theorem first_member_shown :
    ¬ ∀ (lower : String → String) (yaml : Yaml) (limits : UploadLimits) (archive : ZipArchive)
      (metadata : PluginMetadata) (files : FileSystem),
        processUploadedZip yaml limits archive = .ok metadata →
        safeUnzip archive = .ok files → ViewedAsInstalled lower archive files := by
  intro h
  have hviews := h asciiLower demoYaml demoLimits doubledArchive _ doubledFiles
    doubledArchive_accepted doubledArchive_unzips
  have hagree := (viewedAsInstalled_iff asciiLower doubledArchive_unzips).mp hviews
  have hparts : (storedFile "main.py" (utf8 "pass")).parts = ["main.py"] := by
    rw [ZipInfo.parts]
    decide
  have hfirst : doubledArchive.firstAt ["main.py"] =
      some (storedFile "main.py" (utf8 "pass")) := by
    unfold ZipArchive.firstAt ZipInfo.parts
    rfl
  have hlast : doubledArchive.lastFileAt ["main.py"] =
      some (storedFile "main.py" (utf8 "evil()")) := by
    unfold ZipArchive.lastFileAt ZipInfo.parts
    rfl
  obtain ⟨hsize, -⟩ := hagree (storedFile "main.py" (utf8 "pass")) (utf8 "pass")
    (storedFile "main.py" (utf8 "evil()")) (utf8 "evil()") (hparts ▸ hfirst) rfl rfl
    (hparts ▸ hlast) rfl
  revert hsize
  decide

end PluginRegistry
