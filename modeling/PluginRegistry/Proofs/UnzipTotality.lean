import PluginRegistry.Proofs.Extraction

namespace PluginRegistry
open Lib

def ZipArchive.unreadable (archive : ZipArchive) (infos : List ZipInfo) : Option PyErr :=
  infos.findSome? fun info =>
    match archive.readNamed info.filename with
    | .ok _ => none
    | .error e => some e

theorem testzip_spec (archive : ZipArchive) (infos : List ZipInfo) :
    (archive.unreadable infos = none ∧ testzip archive infos = .ok none) ∨
      ∃ e, archive.unreadable infos = some e ∧
        ((e.isA [.badZipFile] = true ∧ ∃ name, testzip archive infos = .ok (some name)) ∨
          (e.isA [.badZipFile] = false ∧ testzip archive infos = .error e)) := by
  induction infos with
  | nil => exact .inl ⟨rfl, rfl⟩
  | cons info infos ih =>
    rw [ZipArchive.unreadable, List.findSome?_cons, testzip]
    cases hread : archive.readNamed info.filename with
    | ok content => exact ih
    | error e =>
      refine .inr ⟨e, rfl, ?_⟩
      cases hbad : e.isA [.badZipFile] with
      | true => exact .inl ⟨rfl, info.filename, by simp [hbad]⟩
      | false => exact .inr ⟨rfl, by simp [hbad]⟩

/-- Reading a member never raises the error of this package. -/
theorem ZipArchive.unreadable_foreign {archive : ZipArchive} {infos : List ZipInfo} {e : PyErr}
    (h : archive.unreadable infos = some e) : e.cls ≠ .zipValidationError := by
  obtain ⟨info, -, hread⟩ := List.exists_of_findSome?_eq_some h
  cases hnamed : archive.readNamed info.filename with
  | ok content =>
    rw [hnamed] at hread
    cases hread
  | error e' =>
    rw [hnamed] at hread
    cases hread
    rw [readNamed] at hnamed
    split at hnamed
    · rename_i found _
      exact found.foreign e hnamed
    · rw [← Except.error.inj hnamed]
      simp

/-- The rules of `inspect_zip` for the regular files of an archive, after some
files. Nothing is measured where no file is left. -/
structure FilesAccepted (limits : UploadLimits) (infos : List ZipInfo)
    (fileCount totalSize : Nat) : Prop where
  count : infos ≠ [] → ((fileCount + infos.length : Nat) : Int) ≤ limits.maxZipEntries
  total : infos ≠ [] →
    ((totalSize + (infos.map (·.fileSize)).sum : Nat) : Int) ≤ limits.maxUnzipBytes
  single : ∀ info ∈ infos, (info.fileSize : Int) ≤ limits.maxSingleFileBytes
  regular : ∀ info ∈ infos, isSymlink info = false ∧ info.hasPath = true

/-- The check of one file, and then of the rest. -/
theorem filesAccepted_cons {limits : UploadLimits} {info : ZipInfo} {infos : List ZipInfo}
    {fileCount totalSize : Nat} : FilesAccepted limits (info :: infos) fileCount totalSize ↔
      ((fileCount : Int) + 1 ≤ limits.maxZipEntries ∧
        (info.fileSize : Int) ≤ limits.maxSingleFileBytes ∧
        (totalSize : Int) + info.fileSize ≤ limits.maxUnzipBytes ∧
        isSymlink info = false ∧ info.hasPath = true) ∧
        FilesAccepted limits infos (fileCount + 1) (totalSize + info.fileSize) := by
  constructor
  · rintro ⟨hcount, htotal, hsingle, hregular⟩
    have hcount := hcount (List.cons_ne_nil _ _)
    have htotal := htotal (List.cons_ne_nil _ _)
    rw [List.length_cons] at hcount
    rw [List.map_cons, List.sum_cons] at htotal
    have hinfo := hregular info List.mem_cons_self
    refine ⟨⟨by omega, hsingle info List.mem_cons_self, by omega, hinfo.1, hinfo.2⟩, ?_⟩
    exact ⟨fun _ => by omega, fun _ => by omega,
      fun other hother => hsingle other (List.mem_cons_of_mem _ hother),
      fun other hother => hregular other (List.mem_cons_of_mem _ hother)⟩
  · rintro ⟨⟨hcount, hsize, htotal, hlink, hpath⟩, hrest⟩
    refine ⟨fun _ => ?_, fun _ => ?_, ?_, ?_⟩
    · cases infos with
      | nil => simpa using hcount
      | cons other infos =>
        have := hrest.count (List.cons_ne_nil _ _)
        simp only [List.length_cons] at this ⊢
        omega
    · cases infos with
      | nil => simpa using htotal
      | cons other infos =>
        have := hrest.total (List.cons_ne_nil _ _)
        simp only [List.map_cons, List.sum_cons] at this ⊢
        omega
    · intro other hother
      rcases List.mem_cons.mp hother with rfl | hother
      · exact hsize
      · exact hrest.single other hother
    · intro other hother
      rcases List.mem_cons.mp hother with rfl | hother
      · exact ⟨hlink, hpath⟩
      · exact hrest.regular other hother

/-- The checks on the members pass if the rules hold, and raise the error of
this package otherwise. -/
theorem inspectMembers_spec (limits : UploadLimits) (infos : List ZipInfo)
    (fileCount totalSize : Nat) :
    (FilesAccepted limits (infos.filter fun info => !info.isDir) fileCount totalSize ∧
        inspectMembers limits infos fileCount totalSize = .ok ()) ∨
      (¬FilesAccepted limits (infos.filter fun info => !info.isDir) fileCount totalSize ∧
        ∃ e, inspectMembers limits infos fileCount totalSize = .error e ∧
          e.cls = .zipValidationError) := by
  induction infos generalizing fileCount totalSize with
  | nil => exact .inl ⟨⟨fun h => absurd rfl h, fun h => absurd rfl h, by simp, by simp⟩, rfl⟩
  | cons info infos ih =>
    rw [inspectMembers]
    cases hdir : info.isDir with
    | true =>
      rw [List.filter_cons_of_neg (by simp [hdir]), if_pos rfl]
      exact ih fileCount totalSize
    | false =>
      rw [List.filter_cons_of_pos (by simp [hdir]), if_neg (by simp), filesAccepted_cons]
      split
      · exact .inr ⟨by omega, _, rfl, rfl⟩
      · split
        · exact .inr ⟨by omega, _, rfl, rfl⟩
        · split
          · exact .inr ⟨by omega, _, rfl, rfl⟩
          · split
            · rename_i hlink
              refine .inr ⟨fun h => ?_, _, rfl, rfl⟩
              rw [h.1.2.2.2.1] at hlink
              cases hlink
            · rename_i hcount hsize htotal hlink
              cases hvalid : validateMemberPath info.filename with
              | error e =>
                refine .inr ⟨fun h => ?_, e, rfl, validateMemberPath_error hvalid⟩
                have hpath := h.1.2.2.2.2
                rw [ZipInfo.hasPath, hvalid] at hpath
                cases hpath
              | ok path =>
                have hpath : info.hasPath = true := by
                  rw [ZipInfo.hasPath, hvalid]
                  rfl
                have hinfo : (fileCount : Int) + 1 ≤ limits.maxZipEntries ∧
                    (info.fileSize : Int) ≤ limits.maxSingleFileBytes ∧
                    (totalSize : Int) + info.fileSize ≤ limits.maxUnzipBytes ∧
                    isSymlink info = false ∧ info.hasPath = true :=
                  ⟨by omega, by omega, by omega, Bool.eq_false_iff.mpr hlink, hpath⟩
                rw [and_iff_right hinfo]
                exact ih (fileCount + 1) (totalSize + info.fileSize)

def unzip (limits : UploadLimits) (root : Path) (disk : FileSystem) (archive : ZipArchive) :
    Except PyErr FileSystem := do
  inspectZip limits archive
  safeUnzipInto root disk archive

structure FreshDir (disk : FileSystem) (root : Path) : Prop where
  dir : disk.lookup root = some .dir
  empty : ∀ q, q ≠ [] → disk.lookup (root ++ q) = none

/-- Every regular file is below the root, the rest of the disk is as it was,
and the limits are kept. -/
structure Unzipped (limits : UploadLimits) (root : Path) (disk : FileSystem)
    (archive : ZipArchive) (disk' : FileSystem) : Prop where
  written : ∀ info ∈ archive.files, info.parts ≠ [] ∧ ".." ∉ info.parts ∧
    ∃ content size, disk'.lookup (root ++ info.parts) = some (.file content size)
  confined : ∀ p, (∀ q, q ≠ [] → p ≠ root ++ q) → disk'.lookup p = disk.lookup p
  count : (archive.files.length : Int) ≤ limits.maxZipEntries
  total : (((archive.files.map (·.fileSize)).sum : Nat) : Int) ≤ limits.maxUnzipBytes
  single : ∀ info ∈ archive.files, (info.fileSize : Int) ≤ limits.maxSingleFileBytes

def UnzipTotal (limits : UploadLimits) (root : Path) (disk : FileSystem) (archive : ZipArchive) :
    Prop :=
  (∃ e, unzip limits root disk archive = .error e ∧ e.cls = .zipValidationError) ∨
    ∃ disk', unzip limits root disk archive = .ok disk' ∧ Unzipped limits root disk archive disk'

theorem extracted_nil {root : Path} {disk : FileSystem} (h : FreshDir disk root) :
    Extracted root disk [] disk where
  outside := fun _ _ => rfl
  dirs := by
    intro q hq
    rw [h.empty q hq]
    simp
  files := by
    intro q hq
    rw [h.empty q hq]
    simp
  kinds := fun q hq => .inl (h.empty q hq)

theorem Extracted.unzipped {limits : UploadLimits} {root : Path} {disk disk' : FileSystem}
    {archive : ZipArchive} (h : Extracted root disk archive.infolist disk')
    (haccepted : FilesAccepted limits archive.files 0 0)
    (hempty : archive.files = [] → 0 ≤ limits.maxZipEntries ∧ 0 ≤ limits.maxUnzipBytes) :
    Unzipped limits root disk archive disk' where
  written := by
    intro info hinfo
    obtain ⟨hmem, hkept⟩ := List.mem_filter.mp hinfo
    have hvalid := ZipInfo.hasPath_iff.mp (haccepted.regular info hinfo).2
    obtain ⟨-, hne, hup, -⟩ := validateMemberPath_ok hvalid
    refine ⟨hne, hup, (h.files _ hne).mpr ⟨info, hmem, by simpa using hkept, rfl⟩⟩
  confined := h.outside
  count := by
    by_cases hfiles : archive.files = []
    · rw [hfiles]
      exact (hempty hfiles).1
    · simpa using haccepted.count hfiles
  total := by
    by_cases hfiles : archive.files = []
    · rw [hfiles]
      exact (hempty hfiles).2
    · simpa using haccepted.total hfiles
  single := haccepted.single

theorem unzip_failed {limits : UploadLimits} {root : Path} {disk : FileSystem}
    {archive : ZipArchive} {e : PyErr} (h : unzip limits root disk archive = .error e) :
    UnzipTotal limits root disk archive ↔ e.cls = .zipValidationError := by
  constructor
  · rintro (⟨e', he', hclass⟩ | ⟨disk', hok, -⟩)
    · rw [h] at he'
      rw [Except.error.inj he']
      exact hclass
    · rw [h] at hok
      cases hok
  · exact fun hclass => .inl ⟨e, h, hclass⟩

/-- What unzipping does once every member can be read by its name. -/
theorem unzip_readable {limits : UploadLimits} {root : Path} {disk : FileSystem}
    {archive : ZipArchive} (hfresh : FreshDir disk root)
    (htest : testzip archive archive.infolist = .ok none) :
    UnzipTotal limits root disk archive ↔ (FilesAccepted limits archive.files 0 0 →
      Extractable root (archive.infolist.takeWhile ZipInfo.hasPath) ∧
        (archive.infolist.all (·.hasPath) = true → archive.files = [] →
          0 ≤ limits.maxZipEntries ∧ 0 ≤ limits.maxUnzipBytes)) := by
  have hinspect : inspectZip limits archive = inspectMembers limits archive.infolist 0 0 := by
    rw [inspectZip, except_bind_eq htest]
  rcases inspectMembers_spec limits archive.infolist 0 0 with
    ⟨haccepted, hok⟩ | ⟨hrefused, e, herror, hclass⟩
  · have haccepted : FilesAccepted limits archive.files 0 0 := haccepted
    rw [imp_iff_right haccepted]
    have hunzip : unzip limits root disk archive = safeUnzipInto root disk archive := by
      rw [unzip, hinspect, except_bind_eq hok]
    have hempty : Extractable root [] := ⟨by simp, by simp [NoClash]⟩
    have hrun := safeUnzip_run archive.infolist (extracted_nil hfresh) hempty
    rw [List.nil_append, List.nil_append] at hrun
    rcases hrun with ⟨hall, ⟨hpaths, final, hfinal, hextracted⟩ | ⟨hpaths, e, herror, hclass⟩⟩ |
      ⟨hnot, e, herror, hclass⟩
    · rw [and_iff_right hall, imp_iff_right hpaths]
      constructor
      · rintro (⟨e, he, -⟩ | ⟨disk', hdisk', hunzipped⟩)
        · rw [hunzip, safeUnzipInto, hfinal] at he
          cases he
        · intro hnone
          have hcount := hunzipped.count
          have htotal := hunzipped.total
          rw [hnone] at hcount htotal
          exact ⟨hcount, htotal⟩
      · exact fun hlimits => .inr ⟨final, hunzip.trans hfinal, hextracted.unzipped haccepted hlimits⟩
    · rw [unzip_failed (hunzip.trans herror)]
      simp [hclass, hall, hpaths]
    · rw [unzip_failed (hunzip.trans herror)]
      simp [hclass, hnot]
  · have herror' : unzip limits root disk archive = .error e := by
      rw [unzip, hinspect, herror]
      rfl
    rw [unzip_failed herror']
    exact iff_of_true hclass fun haccepted => absurd haccepted hrefused

/-- Unzipping is total and confined exactly if the first member that cannot be
read by its name is corrupt in a way `zipfile` reports as such, and if, in an
archive that is accepted, the members before the first without a path can all be
read, named and placed; an archive of directories alone must not meet negative limits. -/
theorem unzip_total_iff {limits : UploadLimits} {root : Path} {disk : FileSystem}
    (hfresh : FreshDir disk root) (archive : ZipArchive) :
    UnzipTotal limits root disk archive ↔
      (∀ e, archive.unreadable archive.infolist = some e → e.isA [.badZipFile] = true) ∧
        (archive.unreadable archive.infolist = none → FilesAccepted limits archive.files 0 0 →
          Extractable root (archive.infolist.takeWhile ZipInfo.hasPath) ∧
            (archive.infolist.all (·.hasPath) = true → archive.files = [] →
              0 ≤ limits.maxZipEntries ∧ 0 ≤ limits.maxUnzipBytes)) := by
  rcases testzip_spec archive archive.infolist with ⟨hnone, htest⟩ | ⟨e, hsome, hcases⟩
  · rw [unzip_readable hfresh htest, hnone]
    simp
  · rw [hsome]
    simp only [Option.some.injEq, forall_eq', reduceCtorEq, false_imp_iff, and_true]
    rcases hcases with ⟨hbad, name, htest⟩ | ⟨hother, htest⟩
    · have herror : unzip limits root disk archive =
          .error (zipError ("zip contains a corrupt file: " ++ name)) := by
        rw [unzip, inspectZip, except_bind_eq htest]
        rfl
      rw [unzip_failed herror]
      exact iff_of_true rfl hbad
    · have herror : unzip limits root disk archive = .error e := by
        rw [unzip, inspectZip, htest]
        rfl
      rw [unzip_failed herror, hother]
      exact iff_of_false (ZipArchive.unreadable_foreign hsome) Bool.false_ne_true

def encryptedFile : ZipInfo where
  filename := "main.py"
  externalAttr := 0
  fileSize := 1
  data := .error ⟨.runtimeError, "File 'main.py' is encrypted, password required for extraction", 0⟩
  within := by
    intro content h
    cases h

def encryptedArchive : ZipArchive := ⟨200, [encryptedFile]⟩

def workDisk : FileSystem := AList.insert ["work"] .dir ∅

theorem workDisk_fresh : FreshDir workDisk ["work"] where
  dir := AList.lookup_insert _
  empty := by
    intro q hq
    rw [workDisk, AList.lookup_insert_ne (by simpa using hq), AList.lookup_empty]

theorem unzip_total_iff_encrypted :
    ¬UnzipTotal demoLimits ["work"] workDisk encryptedArchive := by
  intro htotal
  obtain ⟨hraised, -⟩ := (unzip_total_iff workDisk_fresh encryptedArchive).mp htotal
  cases hraised _ rfl

/-- The test of an archive with a password raises what nobody expects. -/
theorem encrypted_member_raises :
    ¬∀ (limits : UploadLimits) (root : Path) (disk : FileSystem), FreshDir disk root →
      ∀ archive, UnzipTotal limits root disk archive := by
  intro hall
  have herror : unzip demoLimits ["work"] workDisk encryptedArchive = .error ⟨.runtimeError,
      "File 'main.py' is encrypted, password required for extraction", 0⟩ := rfl
  have htotal := hall demoLimits ["work"] workDisk workDisk_fresh encryptedArchive
  rw [unzip_failed herror] at htotal
  cases htotal

end PluginRegistry
