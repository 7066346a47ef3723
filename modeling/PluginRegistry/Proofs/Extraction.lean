import PluginRegistry.Proofs.LlmVerdict

namespace PluginRegistry
open Lib

def OnWay (path q : Path) : Prop :=
  q ≠ [] ∧ q <+: path

theorem onWay_cons {name : String} {rest q : Path} :
    OnWay (name :: rest) q ↔ q = [name] ∨ ∃ q', OnWay rest q' ∧ q = name :: q' := by
  unfold OnWay
  constructor
  · rintro ⟨hne, hprefix⟩
    rcases List.prefix_cons_iff.mp hprefix with rfl | ⟨q', rfl, hq'⟩
    · exact absurd rfl hne
    · by_cases hempty : q' = []
      · subst hempty
        exact .inl rfl
      · exact .inr ⟨q', ⟨hempty, hq'⟩, rfl⟩
  · rintro (rfl | ⟨q', ⟨-, hq'⟩, rfl⟩)
    · exact ⟨by simp, by simp⟩
    · exact ⟨by simp, List.cons_prefix_cons.mpr ⟨rfl, hq'⟩⟩

structure MadeDirs (files : FileSystem) (base path : Path) (files' : FileSystem) : Prop where
  free : ∀ q, OnWay path q →
    files.lookup (base ++ q) = none ∨ files.lookup (base ++ q) = some .dir
  made : ∀ q, OnWay path q → files'.lookup (base ++ q) = some .dir
  kept : ∀ p, (∀ q, OnWay path q → p ≠ base ++ q) → files'.lookup p = files.lookup p

theorem append_name (base : Path) (name : String) (q : Path) :
    base ++ name :: q = (base ++ [name]) ++ q := by
  rw [List.append_assoc, List.singleton_append]

theorem deeper_ne {base : Path} {name : String} {rest q : Path} (h : OnWay rest q) :
    (base ++ [name]) ++ q ≠ base ++ [name] := by
  intro heq
  exact h.1 (List.append_cancel_left (heq.trans (List.append_nil _).symm))

/-- The first directory, then the others below it. -/
theorem MadeDirs.cons {files files₁ files' : FileSystem} {base rest : Path} {name : String}
    (hfree : files.lookup (base ++ [name]) = none ∨ files.lookup (base ++ [name]) = some .dir)
    (hdir : files₁.lookup (base ++ [name]) = some .dir)
    (hkept : ∀ p, p ≠ base ++ [name] → files₁.lookup p = files.lookup p)
    (h : MadeDirs files₁ (base ++ [name]) rest files') :
    MadeDirs files base (name :: rest) files' where
  free := by
    intro q hq
    rcases onWay_cons.mp hq with rfl | ⟨q', hq', rfl⟩
    · exact hfree
    · rw [append_name, ← hkept _ (deeper_ne hq')]
      exact h.free q' hq'
  made := by
    intro q hq
    rcases onWay_cons.mp hq with rfl | ⟨q', hq', rfl⟩
    · rw [h.kept _ fun q' hq' => (deeper_ne hq').symm]
      exact hdir
    · rw [append_name]
      exact h.made q' hq'
  kept := by
    intro p hp
    rw [h.kept p, hkept p (hp [name] (onWay_cons.mpr (.inl rfl)))]
    intro q' hq'
    rw [← append_name]
    exact hp (name :: q') (onWay_cons.mpr (.inr ⟨q', hq', rfl⟩))

/-- Directories are made unless something else stands in the way. -/
theorem makeDirs_spec (files : FileSystem) (base path : Path) :
    (∃ files', makeDirs files base path = .ok files' ∧ MadeDirs files base path files') ∨
      ∃ q, OnWay path q ∧ files.lookup (base ++ q) ≠ none ∧
        files.lookup (base ++ q) ≠ some .dir ∧
        makeDirs files base path = .error ⟨.osError, "Not a directory", 0⟩ := by
  induction path generalizing files base with
  | nil =>
    have hnone : ∀ q, ¬OnWay [] q := fun q hq => hq.1 (List.prefix_nil.mp hq.2)
    exact .inl ⟨files, rfl, fun q hq => absurd hq (hnone q), fun q hq => absurd hq (hnone q),
      fun _ _ => rfl⟩
  | cons name rest ih =>
    -- what is there already counts as made, so that both ways go on alike
    have hgoes : ∀ files₁ : FileSystem,
        (files.lookup (base ++ [name]) = none ∨ files.lookup (base ++ [name]) = some .dir) →
        files₁.lookup (base ++ [name]) = some .dir →
        (∀ p, p ≠ base ++ [name] → files₁.lookup p = files.lookup p) →
        makeDirs files base (name :: rest) = makeDirs files₁ (base ++ [name]) rest →
        (∃ files', makeDirs files base (name :: rest) = .ok files' ∧
            MadeDirs files base (name :: rest) files') ∨
          ∃ q, OnWay (name :: rest) q ∧ files.lookup (base ++ q) ≠ none ∧
            files.lookup (base ++ q) ≠ some .dir ∧
            makeDirs files base (name :: rest) = .error ⟨.osError, "Not a directory", 0⟩ := by
      intro files₁ hfree hdir hkept hstep
      rw [hstep]
      rcases ih files₁ (base ++ [name]) with ⟨files', hok, hmade⟩ | ⟨q, hq, hsome, hother, herror⟩
      · exact .inl ⟨files', hok, hmade.cons hfree hdir hkept⟩
      · rw [hkept _ (deeper_ne hq), ← append_name] at hsome hother
        exact .inr ⟨name :: q, onWay_cons.mpr (.inr ⟨q, hq, rfl⟩), hsome, hother, herror⟩
    cases hnode : files.lookup (base ++ [name]) with
    | none =>
      apply hgoes (AList.insert (base ++ [name]) .dir files) (.inl hnode) (AList.lookup_insert _)
      · exact fun p hp => AList.lookup_insert_ne hp
      · rw [makeDirs, hnode]
    | some node =>
      cases node with
      | dir =>
        apply hgoes files (.inr hnode) hnode fun _ _ => rfl
        rw [makeDirs, hnode]
      | _ =>
        refine .inr ⟨[name], onWay_cons.mpr (.inl rfl), ?_, ?_, ?_⟩
        · rw [hnode]; exact Option.some_ne_none _
        · rw [hnode]; simp
        · rw [makeDirs, hnode]

def ZipInfo.NeedsDir (info : ZipInfo) (q : Path) : Prop :=
  OnWay (if info.isDir then info.parts else info.parts.dropLast) q

def ZipInfo.WritesFile (info : ZipInfo) (q : Path) : Prop :=
  info.isDir = false ∧ q = info.parts

def ZipInfo.hasPath (info : ZipInfo) : Bool :=
  (validateMemberPath info.filename).isOk

structure ZipInfo.Writable (info : ZipInfo) (root : Path) : Prop where
  fits : checkPathLength (root ++ info.parts) = .ok ()
  readable : info.isDir = false → ∃ content, info.data = .ok content

def NoClash (infos : List ZipInfo) : Prop :=
  ∀ a ∈ infos, ∀ b ∈ infos, ∀ q, a.WritesFile q → ¬b.NeedsDir q

structure Extractable (root : Path) (infos : List ZipInfo) : Prop where
  writable : ∀ info ∈ infos, info.Writable root
  apart : NoClash infos

structure Extracted (root : Path) (disk : FileSystem) (done : List ZipInfo)
    (disk' : FileSystem) : Prop where
  outside : ∀ p, (∀ q, q ≠ [] → p ≠ root ++ q) → disk'.lookup p = disk.lookup p
  dirs : ∀ q, q ≠ [] →
    (disk'.lookup (root ++ q) = some .dir ↔ ∃ info ∈ done, info.NeedsDir q)
  files : ∀ q, q ≠ [] → ((∃ content size, disk'.lookup (root ++ q) = some (.file content size)) ↔
    ∃ info ∈ done, info.WritesFile q)
  kinds : ∀ q, q ≠ [] → disk'.lookup (root ++ q) = none ∨ disk'.lookup (root ++ q) = some .dir ∨
    ∃ content size, disk'.lookup (root ++ q) = some (.file content size)

theorem checkPathLength_cases (path : Path) :
    checkPathLength path = .ok () ∨
      checkPathLength path = .error ⟨.osError, "File name too long", 0⟩ := by
  unfold checkPathLength
  split
  · exact .inr rfl
  · exact .inl rfl

theorem checkPathLength_ok {path : Path} : checkPathLength path = .ok () ↔
    (∀ name ∈ path, name.utf8ByteSize ≤ 255) ∧ (path.map (·.utf8ByteSize + 1)).sum < 4096 := by
  unfold checkPathLength
  split
  · rename_i hlong
    simp only [reduceCtorEq, false_iff, not_and, not_lt]
    rw [Bool.or_eq_true, List.any_eq_true, decide_eq_true_eq] at hlong
    intro hnames
    rcases hlong with ⟨name, hname, hsize⟩ | hsum
    · have := hnames name hname
      simp only [decide_eq_true_eq] at hsize
      omega
    · exact hsum
  · rename_i hshort
    simp only [true_iff]
    rw [Bool.not_eq_true, Bool.or_eq_false_iff, List.any_eq_false, decide_eq_false_iff_not,
      not_le] at hshort
    refine ⟨fun name hname => ?_, hshort.2⟩
    have := hshort.1 name hname
    simp only [decide_eq_true_eq] at this
    omega

theorem checkPathLength_above {root path : Path} (h : checkPathLength (root ++ path) = .ok ()) :
    checkPathLength (root ++ path.dropLast) = .ok () := by
  rw [checkPathLength_ok] at h ⊢
  obtain ⟨last, hlast⟩ := List.dropLast_prefix path
  rw [← hlast, ← List.append_assoc, List.map_append, List.sum_append] at h
  exact ⟨fun name hname => h.1 name (List.mem_append_left last hname), by omega⟩

theorem validateMemberPath_error {name : String} {e : PyErr}
    (h : validateMemberPath name = .error e) : e.cls = .zipValidationError := by
  unfold validateMemberPath at h
  dsimp only at h
  split at h
  · rw [← Except.error.inj h]
    rfl
  · split at h
    · rw [← Except.error.inj h]
      rfl
    · split at h
      · rw [← Except.error.inj h]
        rfl
      · cases h

theorem ZipInfo.hasPath_iff {info : ZipInfo} :
    info.hasPath = true ↔ validateMemberPath info.filename = .ok info.parts := by
  rw [hasPath]
  cases h : validateMemberPath info.filename with
  | error e => simp [Except.isOk, Except.toBool]
  | ok path =>
    rw [(normalizeMemberPath_ok h).1]
    simp [Except.isOk, Except.toBool]

theorem dropLast_notOnWay {path : Path} (hne : path ≠ []) : ¬OnWay path.dropLast path := by
  intro hway
  have hlength := hway.2.length_le
  rw [List.length_dropLast] at hlength
  have := List.length_pos_iff.mpr hne
  omega

section
variable {root : Path} {disk disk' disk₁ : FileSystem} {done : List ZipInfo}

theorem MadeDirs.lookup_other {base path q : Path} {files files' : FileSystem}
    (h : MadeDirs files base path files') (hq : ¬OnWay path q) :
    files'.lookup (base ++ q) = files.lookup (base ++ q) := by
  apply h.kept
  intro q' hq' heq
  rw [List.append_cancel_left heq] at hq
  exact hq hq'

/-- What the disk holds once a member has its directories. -/
theorem Extracted.made {path : Path} (h : Extracted root disk done disk')
    (hmade : MadeDirs disk' root path disk₁) :
    (∀ p, (∀ q, q ≠ [] → p ≠ root ++ q) → disk₁.lookup p = disk.lookup p) ∧
      ∀ q, q ≠ [] →
        (disk₁.lookup (root ++ q) = some .dir ↔
          (∃ info ∈ done, info.NeedsDir q) ∨ OnWay path q) ∧
        ((∃ content size, disk₁.lookup (root ++ q) = some (.file content size)) ↔
          ∃ info ∈ done, info.WritesFile q) ∧
        (disk₁.lookup (root ++ q) = none ∨ disk₁.lookup (root ++ q) = some .dir ∨
          ∃ content size, disk₁.lookup (root ++ q) = some (.file content size)) := by
  refine ⟨?_, ?_⟩
  · intro p hp
    rw [hmade.kept p fun q hq => hp q hq.1]
    exact h.outside p hp
  · intro q hq
    by_cases hway : OnWay path q
    · have hdir := hmade.made q hway
      refine ⟨⟨fun _ => .inr hway, fun _ => hdir⟩, ?_, .inr (.inl hdir)⟩
      rw [← h.files q hq, hdir]
      constructor
      · rintro ⟨content, size, hfile⟩
        simp at hfile
      · rintro ⟨content, size, hfile⟩
        rcases hmade.free q hway with hnone | hdir'
        · rw [hnone] at hfile
          cases hfile
        · rw [hdir'] at hfile
          simp at hfile
    · rw [hmade.lookup_other hway]
      refine ⟨?_, h.files q hq, h.kinds q hq⟩
      rw [h.dirs q hq]
      exact ⟨.inl, fun hor => hor.resolve_right hway⟩

/-- A member whose directories are blocked clashes with a file that is there. -/
theorem Extracted.blocked (h : Extracted root disk done disk') {info : ZipInfo} {q : Path}
    (hway : info.NeedsDir q) (hsome : disk'.lookup (root ++ q) ≠ none)
    (hother : disk'.lookup (root ++ q) ≠ some .dir) : ¬NoClash (done ++ [info]) := by
  intro hclear
  have hfile := ((h.kinds q hway.1).resolve_left hsome).resolve_left hother
  obtain ⟨writer, hwriter, hwrites⟩ := (h.files q hway.1).mp hfile
  exact hclear writer (List.mem_append_left _ hwriter) info
    (List.mem_append_right _ (List.mem_singleton.mpr rfl)) q hwrites hway

theorem noClash_concat {info : ZipInfo} (hdone : NoClash done) (hparts : info.parts ≠ [])
    (hinfo : ∀ other ∈ done, ∀ q, (info.WritesFile q → ¬other.NeedsDir q) ∧
      (other.WritesFile q → ¬info.NeedsDir q)) : NoClash (done ++ [info]) := by
  intro a ha b hb q hwrites hneeds
  rcases List.mem_append.mp ha with ha | ha
  · rcases List.mem_append.mp hb with hb | hb
    · exact hdone a ha b hb q hwrites hneeds
    · rw [List.mem_singleton.mp hb] at hneeds
      exact (hinfo a ha q).2 hwrites hneeds
  · rw [List.mem_singleton.mp ha] at hwrites
    rcases List.mem_append.mp hb with hb | hb
    · exact (hinfo b hb q).1 hwrites hneeds
    · rw [List.mem_singleton.mp hb, ZipInfo.NeedsDir, hwrites.1, hwrites.2] at hneeds
      exact dropLast_notOnWay hparts hneeds

/-- Directories that were made are in the way of no file that is there. -/
theorem Extracted.clear {path q : Path} (h : Extracted root disk done disk')
    (hmade : MadeDirs disk' root path disk₁) {other : ZipInfo} (hother : other ∈ done)
    (hwrites : other.WritesFile q) : ¬OnWay path q := by
  intro hway
  obtain ⟨content, size, hfile⟩ := (h.files q hway.1).mpr ⟨other, hother, hwrites⟩
  rcases hmade.free q hway with hnone | hdir
  · rw [hnone] at hfile
    cases hfile
  · rw [hdir] at hfile
    simp at hfile

def ExtractsNext (root : Path) (disk : FileSystem) (done : List ZipInfo) (info : ZipInfo)
    (result : Except PyErr FileSystem) : Prop :=
  (∃ disk', result = .ok disk' ∧ Extracted root disk (done ++ [info]) disk' ∧
      Extractable root (done ++ [info])) ∨
    ∃ e, result = .error e ∧ e.cls ≠ .zipValidationError ∧ ¬Extractable root (done ++ [info])

theorem mem_concat (done : List ZipInfo) (info : ZipInfo) : info ∈ done ++ [info] :=
  List.mem_append_right _ (List.mem_singleton.mpr rfl)

theorem exists_concat {p : ZipInfo → Prop} {info : ZipInfo} :
    (∃ other ∈ done ++ [info], p other) ↔ (∃ other ∈ done, p other) ∨ p info := by
  simp [or_and_right, exists_or]

theorem writable_concat {info : ZipInfo} (hdone : Extractable root done)
    (hinfo : info.Writable root) : ∀ other ∈ done ++ [info], other.Writable root := by
  intro other hother
  rcases List.mem_append.mp hother with hother | hother
  · exact hdone.writable other hother
  · rw [List.mem_singleton.mp hother]
    exact hinfo

/-- A directory entry: it is made, or the kernel refuses it. -/
theorem extractInto_dir {info : ZipInfo} (h : Extracted root disk done disk')
    (hdone : Extractable root done) (hpath : info.hasPath = true) (hdir : info.isDir = true) :
    ExtractsNext root disk done info (extractInto root disk' info) := by
  have hstep : extractInto root disk' info = (do
      checkPathLength (root ++ info.parts)
      makeDirs disk' root info.parts) := by
    rw [extractInto, except_bind_eq (ZipInfo.hasPath_iff.mp hpath), if_pos hdir]
  have hparts := (normalizeMemberPath_ok (ZipInfo.hasPath_iff.mp hpath)).2.1
  have hneeds : ∀ q, info.NeedsDir q ↔ OnWay info.parts q := by
    intro q
    rw [ZipInfo.NeedsDir, if_pos hdir]
  have hnofile : ∀ q, ¬info.WritesFile q := by
    intro q hq
    rw [hq.1] at hdir
    cases hdir
  rw [hstep]
  rcases checkPathLength_cases (root ++ info.parts) with hfits | hlong
  · rw [except_bind_eq hfits]
    rcases makeDirs_spec disk' root info.parts with ⟨disk'', hok, hmade⟩ | ⟨q, hq, hsome, hother, herror⟩
    · obtain ⟨houtside, hbelow⟩ := h.made hmade
      left
      refine ⟨disk'', hok, ⟨houtside, ?_, ?_, fun q hq => (hbelow q hq).2.2⟩, ?_, ?_⟩
      · intro q hq
        rw [(hbelow q hq).1, exists_concat, hneeds]
      · intro q hq
        rw [(hbelow q hq).2.1, exists_concat]
        simp [hnofile]
      · apply writable_concat hdone
        refine ⟨hfits, fun hfile => ?_⟩
        rw [hdir] at hfile
        cases hfile
      · apply noClash_concat hdone.apart hparts
        intro other hother q
        refine ⟨fun hwrites => absurd hwrites (hnofile q), fun hwrites => ?_⟩
        rw [hneeds]
        exact h.clear hmade hother hwrites
    · right
      exact ⟨_, herror, by decide, fun hall => h.blocked ((hneeds q).mpr hq) hsome hother hall.apart⟩
  · right
    rw [hlong]
    refine ⟨_, rfl, by decide, fun hall => ?_⟩
    rw [(hall.writable info (mem_concat done info)).fits] at hlong
    cases hlong

/-- What the disk holds once a file is written where no directory is. -/
theorem Extracted.write {info : ZipInfo} {content : List UInt8}
    (h : Extracted root disk done disk')
    (hmade : MadeDirs disk' root info.parts.dropLast disk₁) (hfile : info.isDir = false)
    (hparts : info.parts ≠ []) (hfree : disk₁.lookup (root ++ info.parts) ≠ some .dir) :
    Extracted root disk (done ++ [info])
      (AList.insert (root ++ info.parts) (.file content content.length) disk₁) := by
  obtain ⟨houtside, hbelow⟩ := h.made hmade
  have hneeds : ∀ q, info.NeedsDir q ↔ OnWay info.parts.dropLast q := by
    intro q
    rw [ZipInfo.NeedsDir, if_neg (by simp [hfile])]
  have hwrites : ∀ q, info.WritesFile q ↔ q = info.parts :=
    fun q => and_iff_right hfile
  have hkept : ∀ q, q ≠ info.parts → (AList.insert (root ++ info.parts)
      (Node.file content content.length) disk₁).lookup (root ++ q) = disk₁.lookup (root ++ q) :=
    fun q hq => AList.lookup_insert_ne fun heq => hq (List.append_cancel_left heq)
  refine ⟨?_, ?_, ?_, ?_⟩
  · intro p hp
    rw [AList.lookup_insert_ne (hp info.parts hparts)]
    exact houtside p hp
  · intro q hq
    rw [exists_concat, hneeds]
    by_cases hself : q = info.parts
    · subst hself
      rw [← (hbelow _ hq).1, AList.lookup_insert]
      simp [hfree]
    · rw [hkept q hself]
      exact (hbelow q hq).1
  · intro q hq
    rw [exists_concat, hwrites]
    by_cases hself : q = info.parts
    · subst hself
      rw [AList.lookup_insert]
      exact ⟨fun _ => .inr rfl, fun _ => ⟨content, content.length, rfl⟩⟩
    · rw [hkept q hself, (hbelow q hq).2.1]
      simp [hself]
  · intro q hq
    by_cases hself : q = info.parts
    · subst hself
      rw [AList.lookup_insert]
      exact .inr (.inr ⟨content, content.length, rfl⟩)
    · rw [hkept q hself]
      exact (hbelow q hq).2.2

/-- A regular file: it is written, or it cannot be read, named or placed. -/
theorem extractInto_file {info : ZipInfo} (h : Extracted root disk done disk')
    (hdone : Extractable root done) (hpath : info.hasPath = true) (hfile : info.isDir = false) :
    ExtractsNext root disk done info (extractInto root disk' info) := by
  have hvalid := ZipInfo.hasPath_iff.mp hpath
  have hparts := (normalizeMemberPath_ok hvalid).2.1
  have hneeds : ∀ q, info.NeedsDir q ↔ OnWay info.parts.dropLast q := by
    intro q
    rw [ZipInfo.NeedsDir, if_neg (by simp [hfile])]
  have hself := mem_concat done info
  rw [extractInto, except_bind_eq hvalid, if_neg (by simp [hfile])]
  rcases checkPathLength_cases (root ++ info.parts.dropLast) with habove | habove
  · rw [except_bind_eq habove]
    rcases makeDirs_spec disk' root info.parts.dropLast with
      ⟨disk₁, hok, hmade⟩ | ⟨q, hq, hsome, hother, herror⟩
    · rw [except_bind_eq hok]
      cases hdata : info.data with
      | error e =>
        right
        refine ⟨e, rfl, info.foreign e hdata, fun hall => ?_⟩
        obtain ⟨content, hcontent⟩ := (hall.writable info hself).readable hfile
        rw [hdata] at hcontent
        cases hcontent
      | ok content =>
        rw [except_bind_eq (a := content) rfl]
        rcases checkPathLength_cases (root ++ info.parts) with hfits | hlong
        · rw [except_bind_eq hfits]
          by_cases htaken : disk₁.lookup (root ++ info.parts) = some .dir
          · right
            rw [writeNew, if_pos htaken]
            refine ⟨_, rfl, by decide, fun hall => ?_⟩
            rcases ((h.made hmade).2 _ hparts).1.mp htaken with ⟨other, hother, hin⟩ | hway
            · exact hall.apart info hself other (List.mem_append_left _ hother) info.parts
                ⟨hfile, rfl⟩ hin
            · exact dropLast_notOnWay hparts hway
          · left
            rw [writeNew, if_neg htaken]
            refine ⟨_, rfl, h.write hmade hfile hparts htaken, ?_, ?_⟩
            · exact writable_concat hdone ⟨hfits, fun _ => ⟨content, hdata⟩⟩
            · apply noClash_concat hdone.apart hparts
              intro other hother q
              constructor
              · intro hwrites hin
                rw [hwrites.2] at hin
                exact htaken (((h.made hmade).2 _ hparts).1.mpr (.inl ⟨other, hother, hin⟩))
              · intro hwrites
                rw [hneeds]
                exact h.clear hmade hother hwrites
        · right
          rw [hlong]
          refine ⟨_, rfl, by decide, fun hall => ?_⟩
          rw [(hall.writable info hself).fits] at hlong
          cases hlong
    · right
      rw [herror]
      exact ⟨_, rfl, by decide, fun hall => h.blocked ((hneeds q).mpr hq) hsome hother hall.apart⟩
  · right
    rw [habove]
    refine ⟨_, rfl, by decide, fun hall => ?_⟩
    rw [checkPathLength_above (hall.writable info hself).fits] at habove
    cases habove

theorem Extractable.of_append {infos : List ZipInfo} (h : Extractable root (done ++ infos)) :
    Extractable root done where
  writable := fun info hinfo => h.writable info (List.mem_append_left _ hinfo)
  apart := fun a ha b hb => h.apart a (List.mem_append_left _ ha) b (List.mem_append_left _ hb)

/-- The members up to the first without a path are extracted if they can be.
Then the archive is, or its member without a path is refused. -/
theorem safeUnzip_run (infos : List ZipInfo) (h : Extracted root disk done disk')
    (hdone : Extractable root done) :
    (Extractable root (done ++ infos.takeWhile ZipInfo.hasPath) ∧
      ((infos.all (·.hasPath) = true ∧ ∃ final, infos.foldlM (extractInto root) disk' = .ok final ∧
          Extracted root disk (done ++ infos) final) ∨
        (infos.all (·.hasPath) = false ∧ ∃ e, infos.foldlM (extractInto root) disk' = .error e ∧
          e.cls = .zipValidationError))) ∨
      (¬Extractable root (done ++ infos.takeWhile ZipInfo.hasPath) ∧
        ∃ e, infos.foldlM (extractInto root) disk' = .error e ∧ e.cls ≠ .zipValidationError) := by
  induction infos generalizing done disk' with
  | nil =>
    left
    rw [List.takeWhile_nil, List.append_nil]
    exact ⟨hdone, .inl ⟨rfl, disk', rfl, h⟩⟩
  | cons info infos ih =>
    rw [List.foldlM_cons]
    cases hpath : info.hasPath with
    | false =>
      left
      rw [List.takeWhile_cons_of_neg (by simp [hpath]), List.append_nil]
      refine ⟨hdone, .inr ⟨by simp [hpath], ?_⟩⟩
      cases hvalid : validateMemberPath info.filename with
      | ok path =>
        rw [ZipInfo.hasPath, hvalid] at hpath
        cases hpath
      | error e =>
        refine ⟨e, ?_, validateMemberPath_error hvalid⟩
        rw [extractInto, hvalid]
        rfl
    | true =>
      have hstep : ExtractsNext root disk done info (extractInto root disk' info) := by
        cases hdir : info.isDir with
        | true => exact extractInto_dir h hdone hpath hdir
        | false => exact extractInto_file h hdone hpath hdir
      have happend : ∀ rest, done ++ info :: rest = (done ++ [info]) ++ rest := by
        intro rest
        rw [List.append_assoc, List.singleton_append]
      rw [List.takeWhile_cons_of_pos hpath, happend infos, happend (infos.takeWhile ZipInfo.hasPath)]
      rcases hstep with ⟨disk'', hok, hnext, hall⟩ | ⟨e, herror, hclass, hnot⟩
      · rw [except_bind_eq hok, List.all_cons, hpath, Bool.true_and]
        exact ih hnext hall
      · right
        rw [herror]
        exact ⟨fun hall => hnot hall.of_append, e, rfl, hclass⟩

end

def SeenFrom (root : Path) (files disk : FileSystem) : Prop :=
  ∀ q, q ≠ [] → files.lookup q = disk.lookup (root ++ q)

section
variable {root : Path} {files disk disk' : FileSystem}

theorem SeenFrom.insert (h : SeenFrom root files disk) (path : Path) (node : Node) :
    SeenFrom root (AList.insert path node files) (AList.insert (root ++ path) node disk) := by
  intro q hq
  by_cases hself : q = path
  · subst hself
    rw [AList.lookup_insert, AList.lookup_insert]
  · rw [AList.lookup_insert_ne hself,
      AList.lookup_insert_ne fun heq => hself (List.append_cancel_left heq)]
    exact h q hq

theorem SeenFrom.makeDirs {base path : Path} (h : SeenFrom root files disk)
    (hmade : makeDirs disk (root ++ base) path = .ok disk') :
    ∃ files', PluginRegistry.makeDirs files base path = .ok files' ∧
      SeenFrom root files' disk' := by
  induction path generalizing base files disk with
  | nil =>
    rw [← Except.ok.inj hmade]
    exact ⟨files, rfl, h⟩
  | cons name rest ih =>
    have hnode := h (base ++ [name]) (by simp)
    rw [PluginRegistry.makeDirs, List.append_assoc, ← hnode] at hmade
    rw [PluginRegistry.makeDirs]
    cases hlookup : files.lookup (base ++ [name]) with
    | none =>
      rw [hlookup] at hmade
      exact ih (h.insert (base ++ [name]) .dir) hmade
    | some node =>
      rw [hlookup] at hmade
      cases node with
      | dir => exact ih h hmade
      | _ => cases hmade

/-- A member that is written to disk, seen from the directory, is the member written in memory. -/
theorem SeenFrom.extract {info : ZipInfo} (h : SeenFrom root files disk)
    (hstep : extractInto root disk info = .ok disk') :
    ∃ files', extractMember files info = .ok files' ∧ SeenFrom root files' disk' := by
  obtain ⟨path, hpath, hstep⟩ := except_bind_ok hstep
  have hparts := (normalizeMemberPath_ok hpath).2.1
  rw [← (normalizeMemberPath_ok hpath).1] at hparts
  rw [extractMember, except_bind_eq hpath]
  cases hdir : info.isDir with
  | true =>
    rw [hdir, if_pos rfl] at hstep
    obtain ⟨-, -, hstep⟩ := except_bind_ok hstep
    rw [if_pos rfl]
    rw [← List.append_nil root] at hstep
    exact SeenFrom.makeDirs h hstep
  | false =>
    rw [hdir, if_neg (by simp)] at hstep
    obtain ⟨-, -, hstep⟩ := except_bind_ok hstep
    obtain ⟨disk₁, hmade, hstep⟩ := except_bind_ok hstep
    obtain ⟨content, hdata, hstep⟩ := except_bind_ok hstep
    obtain ⟨-, -, hstep⟩ := except_bind_ok hstep
    rw [← List.append_nil root] at hmade
    obtain ⟨made, hok, hseen⟩ := SeenFrom.makeDirs h hmade
    rw [if_neg (by simp), except_bind_eq hok, except_bind_eq hdata]
    rw [writeNew, ← hseen path hparts] at hstep
    rw [writeNew]
    split at hstep
    · cases hstep
    · rename_i hfree
      rw [if_neg hfree]
      rw [← Except.ok.inj hstep]
      exact ⟨_, rfl, hseen.insert path _⟩

/-- Extraction on the disk leaves below its root what extraction alone leaves. -/
theorem safeUnzip_of_into {archive : ZipArchive}
    (hempty : ∀ q, q ≠ [] → disk.lookup (root ++ q) = none)
    (h : safeUnzipInto root disk archive = .ok disk') :
    ∃ files, safeUnzip archive = .ok files ∧ SeenFrom root files disk' := by
  have hrun : ∀ (infos : List ZipInfo) (files disk : FileSystem), SeenFrom root files disk →
      infos.foldlM (extractInto root) disk = .ok disk' →
        ∃ files', infos.foldlM extractMember files = .ok files' ∧ SeenFrom root files' disk' := by
    intro infos
    induction infos with
    | nil =>
      intro files disk hseen hend
      rw [← Except.ok.inj hend]
      exact ⟨files, rfl, hseen⟩
    | cons info infos ih =>
      intro files disk hseen hend
      obtain ⟨disk₁, hstep, hrest⟩ := foldlM_cons_ok hend
      obtain ⟨files₁, hfiles, hseen⟩ := hseen.extract hstep
      rw [List.foldlM_cons, except_bind_eq hfiles]
      exact ih files₁ disk₁ hseen hrest
  apply hrun archive.infolist ∅ disk ?_ h
  intro q hq
  rw [hempty q hq, AList.lookup_empty]

end

end PluginRegistry
