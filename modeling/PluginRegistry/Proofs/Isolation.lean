import PluginRegistry.Proofs.ArtifactNames

namespace PluginRegistry
open Lib

variable {env : Env} {db mid db' : Db} {x : Outside} {versionId : VersionId}
  {v : PluginVersion}

structure Db.Retains (db db' : Db) : Prop where
  rows : ∀ i v', db'.versions.lookup i = some v' →
    ∃ v, db.versions.lookup i = some v ∧ v'.origin = v.origin
  nextId : db.nextId ≤ db'.nextId

namespace Db.Retains

theorem refl (db : Db) : db.Retains db :=
  ⟨fun _ v hv => ⟨v, hv, rfl⟩, le_refl _⟩

theorem trans (h : db.Retains mid) (h' : mid.Retains db') : db.Retains db' := by
  refine ⟨fun i v' hv' => ?_, h.nextId.trans h'.nextId⟩
  obtain ⟨w, hw, hto⟩ := h'.rows i v' hv'
  obtain ⟨v, hv, hfrom⟩ := h.rows i w hw
  exact ⟨v, hv, hto.trans hfrom⟩

theorem rewritten {f : VersionId → PluginVersion → PluginVersion} {g : PluginId → Plugin → Plugin}
    (hw : db.Rewritten db' f g) (ho : ∀ i v, (f i v).origin = v.origin)
    (hn : db'.nextId = db.nextId) : db.Retains db' := by
  refine ⟨fun i v' hv' => ?_, hn.ge⟩
  obtain ⟨v, hv, rfl⟩ := Option.map_eq_some_iff.mp (hw.versions i ▸ hv')
  exact ⟨v, hv, ho i v⟩

theorem modifyVersion {f : PluginVersion → PluginVersion} (ho : ∀ v, (f v).origin = v.origin)
    (id : VersionId) : db.Retains (db.modifyVersion id f) := by
  refine ⟨fun i v' hv' => ?_, le_refl _⟩
  rw [Db.lookup_modifyVersion] at hv'
  obtain ⟨v, hv, rfl⟩ := Option.map_eq_some_iff.mp hv'
  refine ⟨v, hv, ?_⟩
  split
  · exact ho v
  · rfl

theorem restrict (hv : ∀ i v, db'.versions.lookup i = some v → db.versions.lookup i = some v)
    (hn : db'.nextId = db.nextId) : db.Retains db' :=
  ⟨fun i v hi => ⟨v, hv i v hi, rfl⟩, hn.ge⟩

/-- A write of scan columns. -/
theorem scanWrite {f : PluginVersion → PluginVersion} (hf : ∀ v, (f v).standing = v.standing)
    (id : VersionId) : db.Retains (db.modifyVersion id f) :=
  modifyVersion (fun v => PluginVersion.origin_of_standing (hf v)) id

theorem published (db : Db) (now : Time) (pluginId : PluginId) (versionId : VersionId)
    (reviewStatus : ReviewStatus) :
    db.Retains (db.published now pluginId versionId reviewStatus) := by
  refine rewritten (Db.published_rewritten ..) (fun i v => ?_) rfl
  split
  · exact v.published_origin ..
  · exact v.withoutLatest_origin ..

theorem autoPublished (db : Db) (now : Time) (versionId : VersionId) :
    db.Retains (db.autoPublished now versionId) := by
  unfold Db.autoPublished
  split
  · exact refl db
  · split
    · exact published ..
    · exact refl db

theorem handled {p c : Db} (hp : db.Retains p) (hc : db.Retains c) (versionId : VersionId)
    (exc : PyErr) : db.Retains (p.handled c versionId exc) := by
  unfold Db.handled
  split
  · exact hc
  · split
    · exact hc
    · refine hp.trans ?_
      apply modifyVersion
      exact fun v => rfl

theorem scanOpened (db : Db) (now : Time) (versionId : VersionId) (v : PluginVersion) :
    db.Retains (db.scanOpened now versionId v) := by
  unfold Db.scanOpened
  split
  · exact scanWrite (fun v => v.beginScan_standing now) versionId
  · exact refl db

theorem afterScan (env : Env) (db : Db) (versionId : VersionId)
    (outcomes : List (Provider × ScanOutcome)) :
    db.Retains ((db.scanned env.now versionId outcomes).afterScan env versionId outcomes) := by
  have hscan : db.Retains (db.scanned env.now versionId outcomes) :=
    scanWrite (fun v => v.scanned_standing env.now outcomes) versionId
  unfold Db.afterScan
  split
  · exact hscan.trans (autoPublished ..)
  · exact hscan

theorem scanResult (env : Env) (db : Db) (versionId : VersionId)
    (providers : Option (List String)) : db.Retains (db.scanResult env versionId providers) := by
  unfold Db.scanResult
  split
  · split
    · exact scanOpened ..
    · split
      · exact scanOpened ..
      · exact afterScan ..
  · exact refl db

theorem pollResult (env : Env) (db : Db) (versionId : VersionId) :
    db.Retains (db.pollResult env versionId) := by
  have hpolled : ∀ o track caller, db.Retains
      ((db.polled env.now versionId o track).afterPoll env caller versionId o) := by
    intro o track caller
    have hpoll : db.Retains (db.polled env.now versionId o track) :=
      scanWrite (fun v => v.polled_standing env.now o track) versionId
    unfold Db.afterPoll
    split
    · exact hpoll.trans (autoPublished ..)
    · exact hpoll
  unfold Db.pollResult
  split
  · exact refl db
  · split
    · exact refl db
    · exact refl db
    · exact hpolled ..
    · split
      · exact refl db
      · exact hpolled ..

/-- Every operation that adds no version. -/
theorem operation (env : Env) (db : Db) (op : Operation)
    (hop : ∀ pluginId metadata content version,
      op ≠ .uploadVersion pluginId metadata content version) : db.Retains (op.rows env db) := by
  cases op with
  | uploadVersion pluginId metadata content version => exact absurd rfl (hop _ _ _ _)
  | createPlugin metadata repoUrl =>
    rw [Operation.rows, Db.afterCreate]
    split
    · exact refl db
    · exact ⟨fun _ v hv => ⟨v, hv, rfl⟩, Nat.le_succ _⟩
  | setPluginStatus pluginId status reviewStatus =>
    rw [Operation.rows, Db.afterPluginStatus]
    split
    · refine rewritten (Db.pluginStatusSet_rewritten ..) (fun i v => ?_) ?_
      · split
        · exact v.withoutLatest_origin ..
        · rfl
      · unfold Db.pluginStatusSet
        split <;> rfl
    · exact refl db
  | deletePlugin pluginId =>
    rw [Operation.rows, Db.afterDeletePlugin]
    split
    · exact refl db
    · dsimp only
      split
      · refine ⟨fun i v' hv' => ?_, le_refl _⟩
        rw [Db.lookup_withoutPlugin] at hv'
        exact ⟨v', (Option.filter_eq_some_iff.mp hv').1, rfl⟩
      · exact refl db
  | deleteVersion pluginId id =>
    rw [Operation.rows, Db.afterDeleteVersion]
    split
    · exact refl db
    · dsimp only
      split
      · refine restrict (fun i v' hv' => ?_) rfl
        rw [Db.lookup_deleteVersionRow] at hv'
        split at hv'
        · cases hv'
        · exact hv'
      · exact refl db
  | setVersionStatus id status =>
    rw [Operation.rows, Db.afterVersionStatus]
    split
    · exact refl db
    · split
      · exact refl db
      · refine rewritten (Db.versionStatusSet_rewritten ..) (fun i v => ?_) rfl
        split
        · split
          · exact v.activated_origin
          · rfl
        · rfl
  | setLatestVersion pluginId id =>
    rw [Operation.rows, Db.afterLatest]
    split
    · refine rewritten (Db.latestSet_rewritten ..) (fun i v => ?_) rfl
      split
      · exact v.promoted_origin ..
      · exact v.withoutLatest_origin ..
    · exact refl db
  | publishPluginVersion pluginId id reviewStatus =>
    rw [Operation.rows, Db.afterPublish]
    split
    · exact published ..
    · exact refl db
  | scanVersion id providers => exact scanResult ..
  | markScanPending id providers =>
    rw [Operation.rows, Db.afterMarkPending]
    split
    · exact scanWrite (fun v => v.markedPending_standing ..) id
    · exact refl db
  | markScanSkipped id providers =>
    rw [Operation.rows, Db.afterMarkSkipped]
    split
    · exact scanWrite (fun v => v.markedSkipped_standing ..) id
    · exact refl db
  | pollVirustotalAnalysis id => exact pollResult ..
  | setConfig config => exact restrict (fun _ _ hv => hv) rfl

end Db.Retains

/-- A build step writes a key only when it records the upload. -/
theorem BuildJob.rows_keyed (env : Env) (db : Db) (x : Outside) (job : BuildJob)
    (step : BuildStep) :
    db.nextId ≤ (job.rows env db x step).nextId ∧
      ∀ i v', (job.rows env db x step).versions.lookup i = some v' →
        ∃ v, db.versions.lookup i = some v ∧ (v'.s3Key = v.s3Key ∨
          step = .update ∧ i = job.versionId ∧ v'.s3Key = some job.s3Key) := by
  have hself := Db.Retains.refl db
  have hkept : ∀ {d : Db}, db.Retains d → db.nextId ≤ d.nextId ∧
      ∀ i v', d.versions.lookup i = some v' →
        ∃ v, db.versions.lookup i = some v ∧ (v'.s3Key = v.s3Key ∨
          step = .update ∧ i = job.versionId ∧ v'.s3Key = some job.s3Key) := by
    intro d hd
    refine ⟨hd.nextId, fun i v' hv' => ?_⟩
    obtain ⟨v, hv, ho⟩ := hd.rows i v' hv'
    exact ⟨v, hv, .inl (congrArg Origin.s3Key ho)⟩
  cases step with
  | pack =>
    apply hkept
    unfold BuildJob.rows
    cases job.packError env with
    | none => exact hself
    | some e => exact hself.handled hself job.versionId e
  | upload =>
    apply hkept
    unfold BuildJob.rows
    cases job.uploadError env x with
    | none => exact hself
    | some e => exact hself.handled hself job.versionId e
  | update =>
    rw [BuildJob.rows, BuildJob.updateRows]
    split
    · exact hkept hself
    · have hwritten : ∀ {d : Db}, (job.builtRows db).Retains d → db.nextId ≤ d.nextId ∧
          ∀ i v', d.versions.lookup i = some v' →
            ∃ v, db.versions.lookup i = some v ∧ (v'.s3Key = v.s3Key ∨
              BuildStep.update = .update ∧ i = job.versionId ∧ v'.s3Key = some job.s3Key) := by
        intro d hd
        refine ⟨hd.nextId, fun i v' hv' => ?_⟩
        obtain ⟨u, hu, ho⟩ := hd.rows i v' hv'
        rw [BuildJob.builtRows, Db.lookup_modifyVersion] at hu
        obtain ⟨v, hv, rfl⟩ := Option.map_eq_some_iff.mp hu
        refine ⟨v, hv, ?_⟩
        have hkey := congrArg Origin.s3Key ho
        by_cases hi : i = job.versionId
        · rw [if_pos hi] at hkey
          exact .inr ⟨rfl, hi, hkey⟩
        · rw [if_neg hi] at hkey
          exact .inl hkey
      cases env.fault (.refresh .updateVersionAfterBuild) with
      | none => exact hwritten (.refl _)
      | some e =>
        apply hwritten
        exact (Db.Retains.refl _).handled (.refl _) job.versionId e
  | scan =>
    apply hkept
    rw [BuildJob.rows, BuildJob.scanRows]
    cases hv : db.versions.lookup job.versionId with
    | none => exact hself
    | some v =>
      have hsaved := Db.Retains.scanOpened db env.now job.versionId v
      have hopen : db.Retains (db.modifyVersion job.versionId (·.beginScan env.now)) :=
        .scanWrite (fun v => v.beginScan_standing env.now) job.versionId
      dsimp only
      cases scanSelectedProviders env db.config db.enabledProviders with
      | error e => exact hopen.handled hsaved job.versionId e
      | ok outcomes =>
        have hdone : db.Retains (db.scanned env.now job.versionId outcomes) :=
          .scanWrite (fun v => v.scanned_standing env.now outcomes) job.versionId
        have hafter := Db.afterBuildScan_keeps hdone
          (Db.Retains.afterScan env db job.versionId outcomes)
        dsimp only
        split
        · exact hsaved
        · cases (db.scanned env.now job.versionId outcomes).afterBuildScanError env job
              outcomes with
          | none => exact hafter
          | some e => exact hafter.handled hafter job.versionId e

def BuildJob.artifactName (job : BuildJob) : ArtifactName :=
  job.s3Layout.artifactName job.plugin job.version .gitAuto (some job.commitSha)

theorem BuildJob.s3Key_eq (job : BuildJob) : job.s3Key = job.artifactName.key := rfl

namespace World

/-- The version an event uploads an archive for, and the name the archive goes under. -/
def uploadOf (w : World) : Event → Option (VersionId × ArtifactName)
  | .perform (.uploadVersion pluginId metadata _ version) env =>
    match w.db.uploadInputs env pluginId metadata version, env.fault .uploadFile with
    | .ok (plugin, label), none =>
      some (w.db.nextId, w.db.config.s3Layout.artifactName plugin label .manualUpload none)
    | _, _ => none
  | .advance versionId env =>
    match w.builds.lookup versionId with
    | none => none
    | some build =>
      match build.next, build.job.archive w.outside, env.fault .uploadFile with
      | .upload, some _, none => some (versionId, build.job.artifactName)
      | _, _, _ => none
  | _ => none

variable {w : World} {past : List (World × Event)}

theorem uploadOf_real {e : Event} {i : VersionId} {n : ArtifactName}
    (h : w.uploadOf e = some (i, n)) : ¬ n.IsPlaceholder := by
  unfold uploadOf at h
  split at h
  · split at h
    · cases h
      exact fun hc => by cases hc.1
    · cases h
  · split at h
    · cases h
    · split at h
      · cases h
        exact fun hc => by cases hc.2
      · cases h
  · cases h

/-- An event records an upload for its version and leaves the others alone. -/
theorem step_uploaded (h : w.db.Sound) (e : Event) (i : VersionId) :
    (∀ n, w.uploadOf e = some (i, n) →
      ∃ content, (w.step e).uploaded.lookup i = some ⟨n.key, content⟩) ∧
    ((∀ n, w.uploadOf e ≠ some (i, n)) →
      (w.step e).uploaded.lookup i = w.uploaded.lookup i) := by
  have hother : ∀ {u : Table VersionId Artifact}, w.uploadOf e = none → u = w.uploaded →
      (∀ n, w.uploadOf e = some (i, n) → ∃ content, u.lookup i = some ⟨n.key, content⟩) ∧
      ((∀ n, w.uploadOf e ≠ some (i, n)) → u.lookup i = w.uploaded.lookup i) := by
    rintro u hno rfl
    exact ⟨fun n hn => (by rw [hno] at hn; cases hn), fun _ => rfl⟩
  have hwrite : ∀ {u : Table VersionId Artifact} {id : VersionId} {m : ArtifactName}
      {content : Blob} {k : String}, w.uploadOf e = some (id, m) → k = m.key →
      u = AList.insert id ⟨k, content⟩ w.uploaded →
      (∀ n, w.uploadOf e = some (i, n) → ∃ content, u.lookup i = some ⟨n.key, content⟩) ∧
      ((∀ n, w.uploadOf e ≠ some (i, n)) → u.lookup i = w.uploaded.lookup i) := by
    rintro u id m content k hm rfl rfl
    constructor
    · intro n hn
      cases hm.symm.trans hn
      exact ⟨content, by rw [Table.lookup_insert_eq, if_pos rfl]⟩
    · intro hno
      rw [Table.lookup_insert_eq, if_neg]
      rintro rfl
      exact hno m hm
  cases e with
  | perform op env =>
    have hup := perform_uploaded h op env
    rw [step]
    cases op with
    | uploadVersion pluginId metadata content version =>
      dsimp only at hup
      cases hin : w.db.uploadInputs env pluginId metadata version with
      | error exc =>
        rw [hin] at hup
        exact hother (by simp only [uploadOf, hin]) hup
      | ok inputs =>
        obtain ⟨plugin, label⟩ := inputs
        cases hf : env.fault .uploadFile with
        | some exc =>
          rw [hin, hf] at hup
          exact hother (by simp only [uploadOf, hin, hf]) hup
        | none =>
          rw [hin, hf] at hup
          have hof : w.uploadOf (.perform (.uploadVersion pluginId metadata content version) env) =
              some (w.db.nextId,
                w.db.config.s3Layout.artifactName plugin label .manualUpload none) := by
            simp only [uploadOf, hin, hf]
          exact hwrite hof (buildS3KeyWithLayout_eq ..) hup
    | createPlugin _ _ | setPluginStatus _ _ _ | deletePlugin _ | setVersionStatus _ _
    | deleteVersion _ _ | setLatestVersion _ _ | publishPluginVersion _ _ _ | scanVersion _ _
    | markScanPending _ _ | markScanSkipped _ _ | pollVirustotalAnalysis _ | setConfig _ =>
      dsimp only at hup
      exact hother rfl hup
  | startBuild pluginId version env =>
    apply hother rfl
    rw [step, startBuild_eq h]
    split
    · rfl
    · split <;> rfl
  | advance versionId env =>
    rw [step]
    cases hb : w.builds.lookup versionId with
    | none =>
      rw [advance_none hb]
      exact hother (by simp only [uploadOf, hb]) rfl
    | some build =>
      obtain ⟨x', -, heq⟩ := advance_some h hb env
      have hup : (w.advance versionId env).uploaded = w.uploadedAfter env versionId build := by
        rw [heq]
      rw [uploadedAfter] at hup
      cases hn : build.next with
      | upload =>
        cases ha : build.job.archive w.outside with
        | none =>
          rw [hn, ha] at hup
          exact hother (by simp only [uploadOf, hb, hn, ha]) hup
        | some content =>
          cases hf : env.fault .uploadFile with
          | some exc =>
            rw [hn, ha, hf] at hup
            exact hother (by simp only [uploadOf, hb, hn, ha, hf]) hup
          | none =>
            rw [hn, ha, hf] at hup
            have hof : w.uploadOf (.advance versionId env) =
                some (versionId, build.job.artifactName) := by
              simp only [uploadOf, hb, hn, ha, hf]
            exact hwrite hof build.job.s3Key_eq hup
      | pack =>
        rw [hn] at hup
        exact hother (by simp only [uploadOf, hb, hn]) hup
      | update =>
        rw [hn] at hup
        exact hother (by simp only [uploadOf, hb, hn]) hup
      | scan =>
        rw [hn] at hup
        exact hother (by simp only [uploadOf, hb, hn]) hup

def KeyFrom (w : World) (e : Event) (i : VersionId) (s3Key : Option String) : Prop :=
  (∃ v, w.db.versions.lookup i = some v ∧ (s3Key = v.s3Key ∨ ∃ b : Build,
    w.builds.lookup i = some b ∧ b.next = .update ∧ s3Key = some b.job.s3Key)) ∨
  i = w.db.nextId ∧
    ((w.uploadOf e = none ∧ ∃ n : ArtifactName, n.IsPlaceholder ∧ s3Key = some n.key) ∨
      ∃ n, w.uploadOf e = some (i, n) ∧ s3Key = some n.key)

/-- What a step can write into an artifact column, and that ids only grow. -/
theorem step_rows (h : w.Tracked) (e : Event) : w.db.nextId ≤ (w.step e).db.nextId ∧
    ∀ i v', (w.step e).db.versions.lookup i = some v' → w.KeyFrom e i v'.s3Key := by
  have hkept : ∀ {d : Db}, w.db.Retains d → w.db.nextId ≤ d.nextId ∧
      ∀ i v', d.versions.lookup i = some v' → w.KeyFrom e i v'.s3Key := by
    intro d hd
    refine ⟨hd.nextId, fun i v' hv' => ?_⟩
    obtain ⟨v, hv, ho⟩ := hd.rows i v' hv'
    exact .inl ⟨v, hv, .inl (congrArg Origin.s3Key ho)⟩
  have hself := hkept (.refl w.db)
  have hadded : ∀ {u : PluginVersion}, ((w.uploadOf e = none ∧
        ∃ n : ArtifactName, n.IsPlaceholder ∧ u.s3Key = some n.key) ∨
        ∃ n, w.uploadOf e = some (w.db.nextId, n) ∧ u.s3Key = some n.key) →
        w.db.nextId ≤ (w.db.addVersion u).nextId ∧
      ∀ i v', (w.db.addVersion u).versions.lookup i = some v' → w.KeyFrom e i v'.s3Key := by
    intro u hu
    refine ⟨Nat.le_succ _, fun i v' hv' => ?_⟩
    rw [Db.lookup_addVersion] at hv'
    split at hv'
    · rename_i hi
      cases hv'
      subst hi
      exact .inr ⟨rfl, hu⟩
    · exact .inl ⟨v', hv', .inl rfl⟩
  cases e with
  | perform op env =>
    rw [step, perform_db h.sound]
    by_cases hop : ∀ pluginId metadata content version,
        op ≠ .uploadVersion pluginId metadata content version
    · exact hkept (.operation env w.db op hop)
    · push Not at hop
      obtain ⟨pluginId, metadata, content, version, rfl⟩ := hop
      rw [Operation.rows, Db.afterUpload]
      cases hin : w.db.uploadInputs env pluginId metadata version with
      | error exc => exact hself
      | ok inputs =>
        obtain ⟨plugin, label⟩ := inputs
        cases hf : env.fault .uploadFile with
        | some exc => exact hself
        | none =>
          have hof : w.uploadOf (.perform (.uploadVersion pluginId metadata content version) env) =
              some (w.db.nextId,
                w.db.config.s3Layout.artifactName plugin label .manualUpload none) := by
            simp only [uploadOf, hin, hf]
          exact hadded (.inr ⟨_, hof, congrArg some (buildS3KeyWithLayout_eq ..)⟩)
  | startBuild pluginId version env =>
    rw [step, startBuild_eq h.sound]
    cases w.db.plugins.lookup pluginId with
    | none => exact hself
    | some plugin =>
      dsimp only
      cases w.db.buildInputs env pluginId plugin version with
      | error exc => exact hself
      | ok inputs =>
        exact hadded (.inl ⟨rfl, w.db.config.s3Layout.artifactName plugin inputs.1 .gitAuto none,
          ⟨rfl, rfl⟩, congrArg some (buildS3KeyWithLayout_eq ..)⟩)
  | advance versionId env =>
    rw [step]
    cases hb : w.builds.lookup versionId with
    | none =>
      rw [advance_none hb]
      exact hself
    | some build =>
      obtain ⟨x', -, heq⟩ := advance_some h.sound hb env
      rw [heq]
      obtain ⟨hn, hrows⟩ := BuildJob.rows_keyed env w.db w.outside build.job build.next
      refine ⟨hn, fun i v' hv' => ?_⟩
      obtain ⟨v, hv, hkey | ⟨hnext, hi, hkey⟩⟩ := hrows i v' hv'
      · exact .inl ⟨v, hv, .inl hkey⟩
      · rw [h.ids versionId build hb] at hi
        subst hi
        exact .inl ⟨v, hv, .inr ⟨build, hb, hnext, hkey⟩⟩

/-- A build's own upload, when its upload step lets it go on. -/
theorem uploadOf_advance {versionId : VersionId} {build : Build}
    (hb : w.builds.lookup versionId = some build) (hn : build.next = .upload)
    (hok : build.job.ok env w.db w.outside .upload = true) :
    w.uploadOf (.advance versionId env) = some (versionId, build.job.artifactName) := by
  simp only [BuildJob.ok, BuildJob.uploadError] at hok
  cases ha : build.job.archive w.outside with
  | none =>
    rw [ha] at hok
    cases hok
  | some content =>
    rw [ha] at hok
    cases hf : env.fault .uploadFile with
    | some exc =>
      rw [hf] at hok
      cases hok
    | none => simp only [uploadOf, hb, hn, ha, hf]

theorem uploadOf_advance_id {i versionId : VersionId} {n : ArtifactName}
    (h : w.uploadOf (.advance versionId env) = some (i, n)) :
    i = versionId ∧ ∃ b, w.builds.lookup i = some b ∧ b.next = .upload := by
  unfold uploadOf at h
  cases hb : w.builds.lookup versionId with
  | none =>
    simp only [hb] at h
    cases h
  | some build =>
    simp only [hb] at h
    split at h
    · rename_i hn _ _
      cases h
      exact ⟨rfl, build, hb, hn⟩
    · cases h

theorem uploadOf_perform (h : w.db.Sound) {op : Operation} {i : VersionId} {n : ArtifactName}
    (hn : w.uploadOf (.perform op env) = some (i, n)) :
    i = w.db.nextId ∧ w.db.nextId < (w.step (.perform op env)).db.nextId := by
  rw [step, perform_db h]
  cases op with
  | uploadVersion pluginId metadata content version =>
    simp only [uploadOf] at hn
    split at hn
    · rename_i hin hf
      cases hn
      rw [Operation.rows, Db.afterUpload, hin, hf]
      exact ⟨rfl, Nat.lt_succ_self _⟩
    · cases hn
  | createPlugin _ _ | setPluginStatus _ _ _ | deletePlugin _ | setVersionStatus _ _
  | deleteVersion _ _ | setLatestVersion _ _ | publishPluginVersion _ _ _ | scanVersion _ _
  | markScanPending _ _ | markScanSkipped _ _ | pollVirustotalAnalysis _ | setConfig _ => cases hn

/-- An upload is for the version an operation adds, or by a build at its upload step. -/
theorem uploadOf_cases (h : w.db.Sound) {e : Event} {i : VersionId} {n : ArtifactName}
    (hn : w.uploadOf e = some (i, n)) :
    (i = w.db.nextId ∧ w.db.nextId < (w.step e).db.nextId) ∨
      ∃ b, w.builds.lookup i = some b ∧ b.next = .upload := by
  cases e with
  | perform op env => exact .inl (uploadOf_perform h hn)
  | startBuild pluginId version env => cases hn
  | advance versionId env => exact .inr (uploadOf_advance_id hn).2

/-- The builds after one step: as before, one step further, or new. -/
theorem step_builds (h : w.Tracked) (e : Event) {i : VersionId} {b : Build}
    (hb : (w.step e).builds.lookup i = some b) :
    (w.builds.lookup i = some b ∧ ∀ n, w.uploadOf e = some (i, n) → i = w.db.nextId) ∨
    (∃ b' d, w.builds.lookup i = some b' ∧ b.job = b'.job.after b'.next d ∧
      b'.next.next = some b.next ∧
      (b'.next = .upload → w.uploadOf e = some (i, b.job.artifactName))) ∨
    (i = w.db.nextId ∧ i < (w.step e).db.nextId ∧ b.next = .pack ∧ w.uploadOf e = none) := by
  cases e with
  | perform op env => exact .inl ⟨hb, fun n hn => (uploadOf_perform h.sound hn).1⟩
  | startBuild pluginId version env =>
    have hno : w.uploadOf (.startBuild pluginId version env) = none := rfl
    have hsame : w.builds.lookup i = some b → w.builds.lookup i = some b ∧
        ∀ n, w.uploadOf (.startBuild pluginId version env) = some (i, n) → i = w.db.nextId :=
      fun hold => ⟨hold, fun n hn => by rw [hno] at hn; cases hn⟩
    rw [step, startBuild_eq h.sound] at hb ⊢
    cases ha : w.db.plugins.lookup pluginId with
    | none =>
      rw [ha] at hb
      exact .inl (hsame hb)
    | some plugin =>
      rw [ha] at hb
      dsimp only at hb ⊢
      cases hin : w.db.buildInputs env pluginId plugin version with
      | error exc =>
        rw [hin] at hb
        exact .inl (hsame hb)
      | ok inputs =>
        rw [hin] at hb
        simp only [started] at hb ⊢
        split at hb
        · rw [Table.lookup_insert_eq] at hb
          split at hb
          · rename_i hi
            cases hb
            exact .inr (.inr ⟨hi, hi ▸ Nat.lt_succ_self _, rfl, hno⟩)
          · exact .inl (hsame hb)
        · exact .inl (hsame hb)
  | advance versionId env =>
    rw [step] at hb ⊢
    cases hbuild : w.builds.lookup versionId with
    | none =>
      rw [advance_none hbuild] at hb
      refine .inl ⟨hb, fun n hn => ?_⟩
      obtain ⟨rfl, b', hb', -⟩ := uploadOf_advance_id hn
      cases hbuild.symm.trans hb'
    | some build =>
      obtain ⟨x', -, heq⟩ := advance_some h.sound hbuild env
      rw [heq] at hb
      rcases buildsAfter_lookup hb with ⟨rfl, hjob, hnext, hok⟩ | ⟨hne, hold⟩
      · refine .inr (.inl ⟨build, _, hbuild, hjob, hnext, fun hn => ?_⟩)
        rw [hn] at hok
        rw [hjob]
        exact uploadOf_advance hbuild hn hok
      · exact .inl ⟨hold, fun n hn => absurd (uploadOf_advance_id hn).1 hne⟩

end World

/-- Two uploads of a run do not go under clashing names while the first version is stored. -/
def World.Apart (s t : World × Event) : Prop :=
  ∀ i n j m, s.1.uploadOf s.2 = some (i, n) → t.1.uploadOf t.2 = some (j, m) → i ≠ j →
    (t.1.db.versions.lookup i).isSome → ¬ n.Clashes m

namespace World

structure Traced (past : List (World × Event)) (w : World) : Prop where
  tracked : w.Tracked
  below : ∀ i, (w.uploaded.lookup i).isSome ∨ (w.builds.lookup i).isSome → i < w.db.nextId
  logged : ∀ i a, w.uploaded.lookup i = some a →
    ∃ s ∈ past, ∃ n, s.1.uploadOf s.2 = some (i, n) ∧ a.s3Key = n.key
  waiting : ∀ i b, w.builds.lookup i = some b → b.next = .pack ∨ b.next = .upload →
    w.uploaded.lookup i = none
  ready : ∀ i b, w.builds.lookup i = some b → b.next = .update →
    ∃ content, w.uploaded.lookup i = some ⟨b.job.s3Key, content⟩
  keyed : ∀ i v, w.db.versions.lookup i = some v →
    (∃ n : ArtifactName, n.IsPlaceholder ∧ v.s3Key = some n.key) ∨
      ∃ a, w.uploaded.lookup i = some a ∧ v.s3Key = some a.s3Key
  keys : ∀ i j v u a b, i ≠ j → w.db.versions.lookup i = some v →
    w.db.versions.lookup j = some u → w.uploaded.lookup i = some a →
    w.uploaded.lookup j = some b → a.s3Key ≠ b.s3Key

variable {w : World} {past : List (World × Event)}

theorem init_traced (config : RuntimeConfig) : Traced [] (service config).init := by
  refine ⟨init_tracked config, ?_, ?_, ?_, ?_, ?_, ?_⟩
  · rintro i (h | h) <;> cases h
  · exact fun i a h => by cases h
  · exact fun i b h => by cases h
  · exact fun i b h => by cases h
  · exact fun i v h => by cases h
  · exact fun i j v u a b _ h => by cases h

/-- The artifact of an older upload is nobody else's. -/
theorem Traced.fresh {e : Event} (h : Traced past w) (hR : ∀ s ∈ past, Apart s (w, e))
    {i j : VersionId} {v : PluginVersion} {a : Artifact} {m : ArtifactName}
    (hv : w.db.versions.lookup i = some v) (ha : w.uploaded.lookup i = some a)
    (hm : w.uploadOf e = some (j, m)) (hne : i ≠ j) : a.s3Key ≠ m.key := by
  obtain ⟨s, hs, n, hn, hkey⟩ := h.logged i a ha
  rw [hkey]
  intro hc
  exact hR s hs i n j m hn hm hne (by rw [hv]; rfl) (ArtifactName.key_eq_iff.mp hc)

/-- No event uploads again for a version that has an upload. -/
theorem Traced.uploaded_once (h : Traced past w) {e : Event} {i : VersionId} {a : Artifact}
    (ha : w.uploaded.lookup i = some a) (n : ArtifactName) : w.uploadOf e ≠ some (i, n) := by
  intro hn
  rcases uploadOf_cases h.tracked.sound hn with ⟨hi, -⟩ | ⟨b, hb, hnext⟩
  · have hlt := h.below i (.inl (by rw [ha]; rfl))
    rw [hi] at hlt
    exact absurd hlt (lt_irrefl _)
  · have hno := h.waiting i b hb (.inr hnext)
    rw [ha] at hno
    cases hno

/-- What has been uploaded for a version stays on record. -/
theorem Traced.uploaded_kept (h : Traced past w) (e : Event) {i : VersionId} {a : Artifact}
    (ha : w.uploaded.lookup i = some a) : (w.step e).uploaded.lookup i = some a := by
  rw [(step_uploaded h.tracked.sound e i).2 (h.uploaded_once ha), ha]

/-- A record after one step is an old one or that of the step's own upload. -/
theorem Traced.uploaded_from (h : Traced past w) {e : Event} {i : VersionId} {a : Artifact}
    (ha : (w.step e).uploaded.lookup i = some a) :
    w.uploaded.lookup i = some a ∨ ∃ n, w.uploadOf e = some (i, n) ∧ a.s3Key = n.key := by
  obtain ⟨hnew, hother⟩ := step_uploaded h.tracked.sound e i
  by_cases hn : ∃ n, w.uploadOf e = some (i, n)
  · obtain ⟨n, hn⟩ := hn
    obtain ⟨content, hc⟩ := hnew n hn
    cases ha.symm.trans hc
    exact .inr ⟨n, hn, rfl⟩
  · exact .inl ((hother fun n hc => hn ⟨n, hc⟩).symm.trans ha)

/-- A version with an upload that is stored after a step was stored before it. -/
theorem Traced.stored_before (h : Traced past w) {e : Event} {i : VersionId} {a : Artifact}
    {v' : PluginVersion} (ha : w.uploaded.lookup i = some a)
    (hv' : (w.step e).db.versions.lookup i = some v') : ∃ v, w.db.versions.lookup i = some v := by
  rcases (step_rows h.tracked e).2 i v' hv' with ⟨v, hv, -⟩ | ⟨hi, -⟩
  · exact ⟨v, hv⟩
  · have hlt := h.below i (.inl (by rw [ha]; rfl))
    rw [hi] at hlt
    exact absurd hlt (lt_irrefl _)

/-- A build that has yet to upload has not been recorded as uploaded. -/
theorem Traced.step_waiting (h : Traced past w) (e : Event) {i : VersionId} {b : Build}
    (hb : (w.step e).builds.lookup i = some b) (hnext : b.next = .pack ∨ b.next = .upload) :
    (w.step e).uploaded.lookup i = none := by
  obtain ⟨-, hother⟩ := step_uploaded h.tracked.sound e i
  rcases step_builds h.tracked e hb with ⟨hold, hid⟩ | ⟨b', d, hb', -, hstep, -⟩ | ⟨hi, -, -, hno⟩
  · rw [hother, h.waiting i b hold hnext]
    intro n hn
    have hlt := h.below i (.inr (by rw [hold]; rfl))
    rw [hid n hn] at hlt
    exact absurd hlt (lt_irrefl _)
  · have hpack : b'.next = .pack := by
      cases hn : b'.next with
      | pack => rfl
      | upload =>
        rw [hn] at hstep
        have hupdate := Option.some.inj hstep
        rcases hnext with hc | hc <;> cases hupdate.trans hc
      | update =>
        rw [hn] at hstep
        have hscan := Option.some.inj hstep
        rcases hnext with hc | hc <;> cases hscan.trans hc
      | scan =>
        rw [hn] at hstep
        cases hstep
    rw [hother, h.waiting i b' hb' (.inl hpack)]
    intro n hn
    rcases uploadOf_cases h.tracked.sound hn with ⟨hi, -⟩ | ⟨b'', hb'', hup⟩
    · have hlt := h.below i (.inr (by rw [hb']; rfl))
      rw [hi] at hlt
      exact absurd hlt (lt_irrefl _)
    · cases hb'.symm.trans hb''
      rw [hpack] at hup
      cases hup
  · rw [hother (by rw [hno]; exact fun n hc => by cases hc)]
    by_contra hsome
    have hlt := h.below i (.inl (Option.isSome_iff_ne_none.mpr hsome))
    rw [hi] at hlt
    exact absurd hlt (lt_irrefl _)

/-- One step keeps the record if its upload clashes with no stored version. -/
theorem Traced.step (h : Traced past w) (e : Event) (hR : ∀ s ∈ past, Apart s (w, e)) :
    Traced (past ++ [(w, e)]) (w.step e) := by
  have hsound := h.tracked.sound
  obtain ⟨hnext, hrows⟩ := step_rows h.tracked e
  refine ⟨step_tracked h.tracked e, ?_, ?_, fun i b hb => h.step_waiting e hb, ?_, ?_, ?_⟩
  · intro i hi
    rcases hi with hi | hi
    · obtain ⟨a, ha⟩ := Option.isSome_iff_exists.mp hi
      rcases h.uploaded_from ha with hold | ⟨n, hn, -⟩
      · exact (h.below i (.inl (by rw [hold]; rfl))).trans_le hnext
      · rcases uploadOf_cases hsound hn with ⟨hi, hlt⟩ | ⟨b, hb, -⟩
        · rw [hi]
          exact hlt
        · exact (h.below i (.inr (by rw [hb]; rfl))).trans_le hnext
    · obtain ⟨b, hb⟩ := Option.isSome_iff_exists.mp hi
      rcases step_builds h.tracked e hb with ⟨hold, -⟩ | ⟨b', d, hb', -⟩ | ⟨-, hlt, -⟩
      · exact (h.below i (.inr (by rw [hold]; rfl))).trans_le hnext
      · exact (h.below i (.inr (by rw [hb']; rfl))).trans_le hnext
      · exact hlt
  · intro i a ha
    rcases h.uploaded_from ha with hold | ⟨n, hn, hkey⟩
    · obtain ⟨s, hs, hlog⟩ := h.logged i a hold
      exact ⟨s, List.mem_append_left _ hs, hlog⟩
    · exact ⟨(w, e), by simp, n, hn, hkey⟩
  · intro i b hb hupdate
    rcases step_builds h.tracked e hb with ⟨hold, -⟩ | ⟨b', d, hb', -, hstep, hup⟩ | ⟨-, -, hpack, -⟩
    · obtain ⟨content, hc⟩ := h.ready i b hold hupdate
      exact ⟨content, h.uploaded_kept e hc⟩
    · have hwas : b'.next = .upload := by
        rw [hupdate] at hstep
        cases hn : b'.next <;> rw [hn] at hstep <;> cases hstep
      obtain ⟨content, hc⟩ := (step_uploaded hsound e i).1 _ (hup hwas)
      rw [← b.job.s3Key_eq] at hc
      exact ⟨content, hc⟩
    · rw [hpack] at hupdate
      cases hupdate
  · intro i v' hv'
    rcases hrows i v' hv' with ⟨v, hv, hkey | ⟨b, hb, hupdate, hkey⟩⟩ | ⟨rfl, ⟨-, hnew⟩ | ⟨n, hn, hkey⟩⟩
    · rw [hkey]
      rcases h.keyed i v hv with hplace | ⟨a, ha, hown⟩
      · exact .inl hplace
      · exact .inr ⟨a, h.uploaded_kept e ha, hown⟩
    · obtain ⟨content, hc⟩ := h.ready i b hb hupdate
      exact .inr ⟨_, h.uploaded_kept e hc, hkey⟩
    · exact .inl hnew
    · obtain ⟨content, hc⟩ := (step_uploaded hsound e _).1 n hn
      exact .inr ⟨_, hc, hkey⟩
  · intro i j v' u' a b hne hv' hu' ha hb
    rcases h.uploaded_from ha with hold | ⟨n, hn, hkey⟩
    · obtain ⟨v, hv⟩ := h.stored_before hold hv'
      rcases h.uploaded_from hb with hold' | ⟨m, hm, hkey'⟩
      · obtain ⟨u, hu⟩ := h.stored_before hold' hu'
        exact h.keys i j v u a b hne hv hu hold hold'
      · rw [hkey']
        exact h.fresh hR hv hold hm hne
    · rcases h.uploaded_from hb with hold' | ⟨m, hm, -⟩
      · obtain ⟨u, hu⟩ := h.stored_before hold' hu'
        rw [hkey]
        exact (h.fresh hR hu hold' hn hne.symm).symm
      · cases hn.symm.trans hm
        exact absurd rfl hne

end World

def Event.Owns (i : VersionId) (v : PluginVersion) : Event → Prop
  | .perform (.deleteVersion _ versionId) _ => versionId = i
  | .perform (.deletePlugin pluginId) _ => pluginId = v.pluginId
  | .advance versionId _ => versionId = i
  | _ => False

theorem Bucket.lookup_without {bucket : Bucket} {keys : List String} {k : String} (h : k ∉ keys) :
    (bucket.without keys).lookup k = bucket.lookup k := by
  induction keys generalizing bucket with
  | nil => rfl
  | cons key keys ih =>
    rw [List.mem_cons, not_or] at h
    refine (ih h.2).trans ?_
    rw [Table.lookup_erase_eq, if_neg h.1]

namespace World

variable {w : World} {past : List (World × Event)}

def KeepsBytes (w : World) (e : Event) : Prop :=
  ∀ i v a, w.db.versions.lookup i = some v → w.uploaded.lookup i = some a → ¬ e.Owns i v →
    (w.step e).outside.bucket.lookup a.s3Key = w.outside.bucket.lookup a.s3Key

/-- No other row names the object of an uploaded version. -/
theorem Traced.column_ne (h : Traced past w) {i j : VersionId} {v u : PluginVersion}
    {a : Artifact} (hne : i ≠ j) (hv : w.db.versions.lookup i = some v)
    (hu : w.db.versions.lookup j = some u) (ha : w.uploaded.lookup i = some a) :
    u.s3Key ≠ some a.s3Key := by
  intro hc
  rcases h.keyed j u hu with ⟨n, hplace, hkey⟩ | ⟨b, hb, hkey⟩
  · obtain ⟨s, -, m, hm, hown⟩ := h.logged i a ha
    have hsame : m.key = n.key := hown.symm.trans (Option.some.inj (hc.symm.trans hkey))
    exact uploadOf_real hm (ArtifactName.placeholder_of_key hsame hplace)
  · exact h.keys i j v u a b hne hv hu ha hb (Option.some.inj (hc.symm.trans hkey))

/-- The step lemma of the isolation: where its names are apart from those of the past, a
step leaves the bytes of every version that it does not own. -/
theorem Traced.keepsBytes (h : Traced past w) (e : Event) (hR : ∀ s ∈ past, Apart s (w, e)) :
    w.KeepsBytes e := by
  intro i v a hv ha hown
  have hsound := h.tracked.sound
  cases e with
  | perform op env =>
    have hbucket : (w.step (.perform op env)).outside.bucket = op.bucket env w.db w.outside.bucket :=
      (op.performs env w.outside hsound).bucket
    rw [hbucket]
    cases op with
    | deletePlugin pluginId =>
      rw [Operation.bucket, Db.afterDeletePlugin]
      split
      · rfl
      · apply Bucket.lookup_without
        intro hmem
        have hkey := List.takeWhile_subset _ hmem
        obtain ⟨⟨j, u⟩, hu, hcolumn⟩ := List.mem_filterMap.mp hkey
        have hu := Table.mem_entries.mp hu
        dsimp only at hcolumn
        split at hcolumn
        · rename_i hplugin
          have hne : i ≠ j := by
            rintro rfl
            cases hv.symm.trans hu
            exact hown hplugin.symm
          exact h.column_ne hne hv hu ha (Option.filter_eq_some_iff.mp hcolumn).1
        · cases hcolumn
    | uploadVersion pluginId metadata content version =>
      rw [Operation.bucket, Db.afterUpload]
      cases hin : w.db.uploadInputs env pluginId metadata version with
      | error exc => rfl
      | ok inputs =>
        obtain ⟨plugin, label⟩ := inputs
        cases hf : env.fault .uploadFile with
        | some exc => rfl
        | none =>
          have hof : w.uploadOf (.perform (.uploadVersion pluginId metadata content version) env) =
              some (w.db.nextId,
                w.db.config.s3Layout.artifactName plugin label .manualUpload none) := by
            simp only [uploadOf, hin, hf]
          have hne : i ≠ w.db.nextId := by
            rintro rfl
            exact absurd (h.below _ (.inl (by rw [ha]; rfl))) (lt_irrefl _)
          have hkey : a.s3Key ≠ w.db.manualKey plugin label := by
            rw [Db.manualKey, buildS3KeyWithLayout_eq]
            exact h.fresh hR hv ha hof hne
          rw [Table.lookup_insert_eq, if_neg hkey]
    | deleteVersion pluginId versionId =>
      rw [Operation.bucket, Db.afterDeleteVersion]
      cases hrow : (w.db.versions.lookup versionId).filter fun v => v.pluginId = pluginId with
      | none => rfl
      | some u =>
        dsimp only
        split
        · have hu := (Option.filter_eq_some_iff.mp hrow).1
          have hne : i ≠ versionId := fun hc => hown hc.symm
          have hcolumn := h.column_ne hne hv hu ha
          rw [Table.lookup_erase_eq, if_neg]
          intro hc
          rcases h.keyed versionId u hu with ⟨n, -, hkey⟩ | ⟨b, -, hkey⟩
          · rw [hkey] at hc hcolumn
            exact hcolumn (congrArg some hc.symm)
          · rw [hkey] at hc hcolumn
            exact hcolumn (congrArg some hc.symm)
        · rfl
    | createPlugin _ _ | setPluginStatus _ _ _ | setVersionStatus _ _ | setLatestVersion _ _
    | publishPluginVersion _ _ _ | scanVersion _ _ | markScanPending _ _ | markScanSkipped _ _
    | pollVirustotalAnalysis _ | setConfig _ => rfl
  | startBuild pluginId version env =>
    rw [World.step, startBuild_eq hsound]
    split
    · rfl
    · split <;> rfl
  | advance versionId env =>
    rw [World.step]
    cases hb : w.builds.lookup versionId with
    | none => rw [advance_none hb]
    | some build =>
      obtain ⟨x', hfiles, heq⟩ := advance_some hsound hb env
      have hbucket : (w.advance versionId env).outside.bucket =
          (build.job.files env w.outside build.next).1 := by
        rw [heq]
        exact congrArg Prod.fst hfiles
      rw [hbucket]
      cases hn : build.next with
      | upload =>
        rw [BuildJob.files, BuildJob.uploadBucket]
        cases harc : build.job.archive w.outside with
        | none => rfl
        | some content =>
          cases hf : env.fault .uploadFile with
          | some exc => rfl
          | none =>
            have hof : w.uploadOf (.advance versionId env) =
                some (versionId, build.job.artifactName) := by
              simp only [uploadOf, hb, hn, harc, hf]
            dsimp only
            have hkey : a.s3Key ≠ build.job.s3Key := by
              rw [build.job.s3Key_eq]
              exact h.fresh hR hv ha hof fun hc => hown hc.symm
            rw [Table.lookup_insert_eq, if_neg hkey]
      | pack =>
        rw [BuildJob.files, BuildJob.packFiles]
        cases env.fault .openZipFile <;> rfl
      | update => rfl
      | scan => rfl

/-- Uploaded versions have objects of their own, and a row that names its object
shares its key with no other. -/
structure Isolated (w : World) : Prop where
  objects : ∀ i j v u a b, i ≠ j → w.db.versions.lookup i = some v →
    w.db.versions.lookup j = some u → w.uploaded.lookup i = some a →
    w.uploaded.lookup j = some b → a.s3Key ≠ b.s3Key
  columns : ∀ i j v u a, i ≠ j → w.db.versions.lookup i = some v →
    w.db.versions.lookup j = some u → w.uploaded.lookup i = some a →
    v.s3Key = some a.s3Key → u.s3Key ≠ v.s3Key

theorem Traced.isolated (h : Traced past w) : w.Isolated := by
  refine ⟨h.keys, fun i j v u a hne hv hu ha hown => ?_⟩
  rw [hown]
  exact h.column_ne hne hv hu ha

def KeysDistinct (w : World) : Prop :=
  ∀ i j v u, i ≠ j → w.db.versions.lookup i = some v → w.db.versions.lookup j = some u →
    (w.uploaded.lookup i).isSome → (w.uploaded.lookup j).isSome → v.s3Key ≠ u.s3Key

/-- A build uploads while the row of another uploaded version still has the
placeholder key that its own row has. -/
def SharesPlaceholder (w : World) (e : Event) : Prop :=
  ∃ i n j v u, w.uploadOf e = some (i, n) ∧ j ≠ i ∧ w.db.versions.lookup i = some v ∧
    w.db.versions.lookup j = some u ∧ (w.uploaded.lookup j).isSome ∧ u.s3Key = v.s3Key

/-- Only a row that was there before has a placeholder and an upload. -/
theorem Traced.placeholder_before (h : Traced past w) {e : Event} {i : VersionId} {a : Artifact}
    {v' : PluginVersion} {n : ArtifactName} (hv' : (w.step e).db.versions.lookup i = some v')
    (ha : (w.step e).uploaded.lookup i = some a) (hn : n.IsPlaceholder)
    (hkey : v'.s3Key = some n.key) :
    ∃ v, w.db.versions.lookup i = some v ∧ v'.s3Key = v.s3Key := by
  rcases (step_rows h.tracked e).2 i v' hv' with
    ⟨v, hv, hsame | ⟨b, -, -, hjob⟩⟩ | ⟨rfl, ⟨hno, -⟩ | ⟨m, hm, hnew⟩⟩
  · exact ⟨v, hv, hsame⟩
  · rw [b.job.s3Key_eq] at hjob
    have hplace := ArtifactName.placeholder_of_key (Option.some.inj (hjob.symm.trans hkey)) hn
    cases hplace.2
  · rcases h.uploaded_from ha with hold | ⟨m, hm, -⟩
    · exact absurd (h.below _ (.inl (by rw [hold]; rfl))) (lt_irrefl _)
    · rw [hno] at hm
      cases hm
  · exact absurd (ArtifactName.placeholder_of_key (Option.some.inj (hnew.symm.trans hkey)) hn)
      (uploadOf_real hm)

theorem Traced.step_keysDistinct (h : Traced past w) (hd : w.KeysDistinct) (e : Event)
    (hR : ∀ s ∈ past, Apart s (w, e)) (hno : ¬ w.SharesPlaceholder e) :
    (w.step e).KeysDistinct := by
  intro i j v' u' hne hv' hu' ha hb hc
  obtain ⟨a, ha⟩ := Option.isSome_iff_exists.mp ha
  obtain ⟨b, hb⟩ := Option.isSome_iff_exists.mp hb
  have hstep := h.step e hR
  rcases hstep.keyed i v' hv' with ⟨n, hn, hkey⟩ | ⟨a', ha', hown⟩
  · have hkey' : u'.s3Key = some n.key := hc.symm.trans hkey
    obtain ⟨v, hv, hsame⟩ := h.placeholder_before hv' ha hn hkey
    obtain ⟨u, hu, hsame'⟩ := h.placeholder_before hu' hb hn hkey'
    have hcolumn : v.s3Key = u.s3Key := hsame.symm.trans (hc.trans hsame')
    rcases h.uploaded_from ha with hold | ⟨m, hm, -⟩
    · rcases h.uploaded_from hb with hold' | ⟨m', hm', -⟩
      · exact hd i j v u hne hv hu (by rw [hold]; rfl) (by rw [hold']; rfl) hcolumn
      · exact hno ⟨j, m', i, u, v, hm', hne, hu, hv, by rw [hold]; rfl, hcolumn⟩
    · rcases h.uploaded_from hb with hold' | ⟨m', hm', -⟩
      · exact hno ⟨i, m, j, v, u, hm, hne.symm, hv, hu, by rw [hold']; rfl, hcolumn.symm⟩
      · cases hm.symm.trans hm'
        exact hne rfl
  · exact hstep.column_ne hne hv' hu' ha' (hc.symm.trans hown)

end World

/-- In every run in which no two uploads go under clashing names while the first
version is stored, uploaded versions have objects of their own in every state,
and no step changes the object of another version. If moreover no build uploads
next to an uploaded version with the same placeholder, the keys of the rows
differ as well. -/
theorem artifacts_isolated (config : RuntimeConfig) (events : List Event)
    (h : ((service config).steps (service config).init events).Pairwise World.Apart) :
    (∀ w ∈ (service config).states (service config).init events, w.Isolated) ∧
    (∀ s ∈ (service config).steps (service config).init events, s.1.KeepsBytes s.2) ∧
    ((∀ s ∈ (service config).steps (service config).init events,
        ¬ s.1.SharesPlaceholder s.2) →
      ∀ w ∈ (service config).states (service config).init events, w.KeysDistinct) := by
  have hgood : ∀ before x after, (service config).steps (service config).init events =
      before ++ x :: after → ∀ s ∈ [] ++ before, World.Apart s (x.1, x.2) := by
    intro before x after heq s hs
    rw [heq] at h
    exact (List.pairwise_append.mp h).2.2 s hs x List.mem_cons_self
  obtain ⟨hstates, hsteps⟩ := Machine.history_run (m := service config) World.Traced
    (fun past w e => ∀ s ∈ past, World.Apart s (w, e))
    (fun past w e hw hR => hw.step e hR) (World.init_traced config) hgood
  refine ⟨fun w hw => ?_, fun s hs => ?_, fun hplace w hw => ?_⟩
  · obtain ⟨past, htraced⟩ := hstates w hw
    exact htraced.isolated
  · obtain ⟨past, htraced, hR⟩ := hsteps s hs
    exact htraced.keepsBytes s.2 hR
  · have hrun := Machine.history_run (m := service config)
      (fun past w => World.Traced past w ∧ w.KeysDistinct)
      (fun past w e => (∀ s ∈ past, World.Apart s (w, e)) ∧ ¬ w.SharesPlaceholder e)
      (fun past w e hw hg => ⟨hw.1.step e hg.1, hw.1.step_keysDistinct hw.2 e hg.1 hg.2⟩)
      ⟨World.init_traced config, fun i j v u _ hv => by cases hv⟩
      fun before x after heq => ⟨hgood before x after heq, hplace x (by rw [heq]; simp)⟩
    obtain ⟨past, -, hdistinct⟩ := hrun.1 w hw
    exact hdistinct

instance (s t : World × Event) : Decidable (World.Apart s t) :=
  decidable_of_iff (∀ x ∈ s.1.uploadOf s.2, ∀ y ∈ t.1.uploadOf t.2, x.1 ≠ y.1 →
      (t.1.db.versions.lookup x.1).isSome → ¬ x.2.Clashes y.2)
    ⟨fun h i n j m hn hm => h (i, n) hn (j, m) hm, fun h x hx y hy => h x.1 x.2 y.1 y.2 hx hy⟩

def twoLabelsRun : List Event :=
  [.perform (.createPlugin .demo "") (.calm 0),
    .perform (.uploadVersion 0 .demo [] "1.0.0") (.calm 1),
    .perform (.uploadVersion 0 .demo [] "2.0.0") (.calm 2),
    .perform (.deleteVersion 0 1) (.calm 3)]

theorem artifacts_isolated_two_labels :
    ((service .default).steps (service .default).init twoLabelsRun).Pairwise World.Apart ∧
    (∀ w ∈ (service .default).states (service .default).init twoLabelsRun, w.Isolated) ∧
    (∀ s ∈ (service .default).steps (service .default).init twoLabelsRun,
      s.1.KeepsBytes s.2) ∧
    ((∀ s ∈ (service .default).steps (service .default).init twoLabelsRun,
        ¬ s.1.SharesPlaceholder s.2) →
      ∀ w ∈ (service .default).states (service .default).init twoLabelsRun,
        w.KeysDistinct) := by
  have h : ((service .default).steps (service .default).init twoLabelsRun).Pairwise
      World.Apart := by
    decide +kernel
  exact ⟨h, artifacts_isolated .default twoLabelsRun h⟩

def sameLabelRun : List Event :=
  publishedRun ++ [.perform (.uploadVersion 0 .demo [⟨["main.py"], []⟩] "") (.calm 4)]

/-- The rows of two manual uploads with one label name the same object. -/
theorem same_label_shares_key :
    ¬ ∀ (config : RuntimeConfig) (events : List Event),
      (∀ w ∈ (service config).states (service config).init events, w.KeysDistinct) ∧
      ∀ s ∈ (service config).steps (service config).init events, s.1.KeepsBytes s.2 := by
  intro h
  have hrows : ((World.run .default sameLabelRun).db.versions.lookup 1).isSome = true ∧
      ((World.run .default sameLabelRun).db.versions.lookup 2).isSome = true ∧
      ((World.run .default sameLabelRun).uploaded.lookup 1).isSome = true ∧
      ((World.run .default sameLabelRun).uploaded.lookup 2).isSome = true ∧
      ((World.run .default sameLabelRun).db.versions.lookup 1).bind (·.s3Key) =
        ((World.run .default sameLabelRun).db.versions.lookup 2).bind (·.s3Key) := by
    decide +kernel
  obtain ⟨hv, hu, ha, hb, hsame⟩ := hrows
  obtain ⟨v, hv⟩ := Option.isSome_iff_exists.mp hv
  obtain ⟨u, hu⟩ := Option.isSome_iff_exists.mp hu
  rw [hv, hu] at hsame
  exact (h .default sameLabelRun).1 _ (Machine.run_mem_states _ _) 1 2 v u (by decide) hv hu ha hb
    hsame

end PluginRegistry
