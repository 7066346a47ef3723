import PluginRegistry.Proofs.StoreRuns

namespace PluginRegistry
open Lib

variable {env : Env} {db p c : Db} {x : Outside} {r : Bool} {job : BuildJob}

/-- The committed rows after the handler, for the rows it finds pending and committed. -/
def Db.handled (p c : Db) (versionId : VersionId) (exc : PyErr) : Db :=
  match p.versions.lookup versionId with
  | none => c
  | some v => if v.isLatest then c else p.modifyVersion versionId (·.failedWith exc)

def Db.handledRefused (p : Db) (versionId : VersionId) : Bool :=
  (p.versions.lookup versionId).any (·.isLatest)

theorem Db.Sound.handled (hp : p.Sound) (hc : c.Sound) (versionId : VersionId) (exc : PyErr) :
    (p.handled c versionId exc).Sound := by
  unfold Db.handled
  cases hv : p.versions.lookup versionId with
  | none => exact hc
  | some v =>
    cases hl : v.isLatest with
    | true => simpa only [hl, if_true] using hc
    | false => simpa only [hl, Bool.false_eq_true, if_false] using hp.failedWith hv hl exc

structure Advances (w : Op Unit) (db : Db) (x : Outside) (db' : Db)
    (files : Bucket × Table String Blob) (ok refused : Bool) : Prop where
  rows : (w.after (Session.start db x)).committed = db'
  files : (w.after (Session.start db x)).outside.files = files
  ok : (w.perform db x).outcome.isOk = ok
  refused : (w.after (Session.start db x)).rejected = refused

theorem Advances.of_ok {w : Op Unit} {s : Session Db Outside}
    (h : w.run (Session.start db x) = .ok () s) :
    Advances w db x s.committed s.outside.files true s.rejected := by
  have hs : w.after (Session.start db x) = s := Work.after_of_run (.inl ⟨(), h⟩)
  refine ⟨by rw [hs], by rw [hs], ?_, by rw [hs]⟩
  rw [Work.perform, h]
  rfl

theorem Advances.of_error {w : Op Unit} {e : PyErr} {s : Session Db Outside}
    (h : w.run (Session.start db x) = .error e s) :
    Advances w db x s.committed s.outside.files false s.rejected := by
  have hs : w.after (Session.start db x) = s := Work.after_of_run (.inr ⟨e, h⟩)
  refine ⟨by rw [hs], by rw [hs], ?_, by rw [hs]⟩
  rw [Work.perform, h]
  rfl

/-- The handler always raises. -/
theorem buildFailed_ends (hp : p.Sound) (versionId : VersionId) (exc : PyErr) :
    ∃ e s, (buildFailed versionId exc).run ⟨p, c, x, false, r⟩ = .error e s ∧
      s.committed = p.handled c versionId exc ∧ s.outside = x ∧
      s.rejected = (r || p.handledRefused versionId) := by
  unfold Db.handled Db.handledRefused
  cases hv : p.versions.lookup versionId with
  | none => exact ⟨_, _, buildFailed_missing hv, rfl, rfl, (Bool.or_false r).symm⟩
  | some v =>
    cases hl : v.isLatest with
    | true =>
      refine ⟨_, _, buildFailed_refused hv hl, ?_, rfl, ?_⟩
      · simp only [hl, if_true, Session.refused]
      · simp [hl, Session.refused]
    | false =>
      refine ⟨_, _, buildFailed_run hv (hp.failedWith hv hl exc).constraints, ?_, rfl, ?_⟩
      · simp only [hl, Bool.false_eq_true, if_false]
      · simp [hl]

theorem guarded_ok (step : BuildStep) {s : Session Db Outside}
    (h : (job.step env step).run (Session.start db x) = .ok () s) :
    Advances (job.guarded env step) db x s.committed s.outside.files true s.rejected := by
  refine .of_ok ?_
  rw [BuildJob.guarded, Work.try_run, h]

theorem guarded_error (step : BuildStep) (hp : p.Sound) {exc : PyErr} {x' : Outside}
    (h : (job.step env step).run (Session.start db x) = .error exc ⟨p, c, x', false, r⟩) :
    Advances (job.guarded env step) db x (p.handled c job.versionId exc) x'.files false
      (r || p.handledRefused job.versionId) := by
  obtain ⟨e, s, hrun, hrows, hx, hr⟩ :=
    buildFailed_ends (c := c) (x := x') (r := r) hp job.versionId exc
  have hg : (job.guarded env step).run (Session.start db x) = .error e s := by
    rw [BuildJob.guarded, Work.try_run, h]
    exact hrun
  rw [← hrows, ← hx, ← hr]
  exact .of_error hg

/-- A session whose flush has failed keeps what it had committed. -/
theorem guarded_broken (step : BuildStep) {exc : PyErr} {x' : Outside}
    (h : (job.step env step).run (Session.start db x) = .error exc ⟨p, c, x', true, r⟩) :
    Advances (job.guarded env step) db x c x'.files false r := by
  have hg : (job.guarded env step).run (Session.start db x) = .error (Schema.inactive Db)
      (⟨p.modifyVersion job.versionId (·.failedWith exc), c, x', true, r⟩ :
        Session Db Outside) := by
    rw [BuildJob.guarded, Work.try_run, h]
    exact buildFailed_broken
  exact .of_error hg

def BuildJob.packError (job : BuildJob) (env : Env) : Option PyErr :=
  env.fault .openZipFile <|> (createZip job.checkout job.maxReleaseZipBytes).2

def BuildJob.packFiles (job : BuildJob) (env : Env) (x : Outside) : Outside :=
  if (env.fault .openZipFile).isSome then x
  else
    let zip := (createZip job.checkout job.maxReleaseZipBytes).1
    { x with zipFiles := AList.insert job.zipPath zip x.zipFiles }

theorem packStep_run (env : Env) (job : BuildJob) (s : Session Db Outside) :
    (job.step env .pack).run s = match job.packError env with
      | none => .ok () { s with outside := job.packFiles env s.outside }
      | some e => .error e { s with outside := job.packFiles env s.outside } := by
  simp only [BuildJob.step, packStep, Work.bind_run, call_run, BuildJob.packError, BuildJob.packFiles]
  cases env.fault .openZipFile with
  | some e => rfl
  | none =>
    simp only [Work.emit_run, Option.isSome_none, Bool.false_eq_true, if_false]
    cases hz : (createZip job.checkout job.maxReleaseZipBytes).2 <;> rfl

theorem packStep_advances (h : db.Sound) :
    Advances (job.guarded env .pack) db x
      ((job.packError env).elim db (db.handled db job.versionId))
      (job.packFiles env x).files (job.packError env).isNone
      ((job.packError env).isSome && db.handledRefused job.versionId) := by
  have hrun := packStep_run env job (Session.start db x)
  cases he : job.packError env with
  | none =>
    rw [he] at hrun
    exact guarded_ok _ hrun
  | some e =>
    rw [he] at hrun
    exact guarded_error _ h hrun

def BuildJob.archive (job : BuildJob) (x : Outside) : Option Blob :=
  x.zipFiles.lookup job.zipPath

def BuildJob.uploadError (job : BuildJob) (env : Env) (x : Outside) : Option PyErr :=
  match job.archive x with
  | none => some ⟨.osError, "No such file or directory: " ++ job.zipPath, 0⟩
  | some _ => env.fault .uploadFile

def BuildJob.uploadBucket (job : BuildJob) (env : Env) (x : Outside) : Bucket :=
  match job.archive x, env.fault .uploadFile with
  | some content, none => AList.insert job.s3Key content x.bucket
  | _, _ => x.bucket

theorem readZipFile_run (path : String) (db : Db) (x : Outside) :
    (readZipFile path).run (Session.start db x) = match x.zipFiles.lookup path with
      | some content => .ok content (Session.start db x)
      | none => .error ⟨.osError, "No such file or directory: " ++ path, 0⟩
          (Session.start db x) := rfl

theorem uploadStep_run (env : Env) (job : BuildJob) (db : Db) (x : Outside) :
    (job.step env .upload).run (Session.start db x) = match job.uploadError env x with
      | none => .ok () (Session.start db { x with bucket := job.uploadBucket env x })
      | some e => .error e (Session.start db x) := by
  unfold BuildJob.uploadError BuildJob.uploadBucket BuildJob.archive
  simp only [BuildJob.step, uploadStep, Work.bind_run, readZipFile_run]
  cases x.zipFiles.lookup job.zipPath with
  | none => rfl
  | some content =>
    simp only [Session.start, uploadFile_run]
    cases env.fault .uploadFile <;> rfl

theorem uploadStep_advances (h : db.Sound) :
    Advances (job.guarded env .upload) db x
      ((job.uploadError env x).elim db (db.handled db job.versionId))
      (job.uploadBucket env x, x.zipFiles) (job.uploadError env x).isNone
      ((job.uploadError env x).isSome && db.handledRefused job.versionId) := by
  have hrun := uploadStep_run env job db x
  cases he : job.uploadError env x with
  | none =>
    rw [he] at hrun
    exact guarded_ok _ hrun
  | some e =>
    rw [he] at hrun
    have hb : job.uploadBucket env x = x.bucket := by
      unfold BuildJob.uploadError at he
      unfold BuildJob.uploadBucket
      cases ha : job.archive x with
      | none => rfl
      | some content =>
        rw [ha] at he
        dsimp only at he ⊢
        rw [he]
    rw [hb]
    exact guarded_error _ h hrun

def Db.commitTaken (db : Db) (versionId : VersionId) (commitSha : CommitSha) : Bool :=
  (db.versions.lookup versionId).any fun v => v.sourceType = .gitAuto &&
    (db.versions.first fun i w => i ≠ versionId && w.pluginId = v.pluginId &&
      w.sourceType = .gitAuto && w.commitSha = some commitSha).isSome

def BuildJob.publicUrl (job : BuildJob) : String :=
  buildPublicUrlWithBase job.s3Key job.s3PublicUrl

def BuildJob.builtRows (job : BuildJob) (db : Db) : Db :=
  db.modifyVersion job.versionId (·.built job.s3Key job.publicUrl job.commitSha)

theorem BuildJob.builtRows_sound (h : db.Sound) {v : PluginVersion}
    (hv : db.versions.lookup job.versionId = some v)
    (hnew : db.commitTaken job.versionId job.commitSha = false) : (job.builtRows db).Sound := by
  refine h.built hv (truthy_s3Key ..) (truthy_publicUrl ..) fun hself i w hw hi hp hs hc => ?_
  simp only [Db.commitTaken, hv, Option.any_some, hself, decide_true, Bool.true_and] at hnew
  rw [Option.isSome_eq_false_iff, Option.isNone_iff_eq_none] at hnew
  have hnone := Table.first_none.mp hnew i w hw
  simp [hi, hp, hs, hc] at hnone

theorem BuildJob.builtRows_refused
    (hold : db.commitTaken job.versionId job.commitSha = true) :
    ¬ (job.builtRows db).Constraints := by
  intro hc
  cases hv : db.versions.lookup job.versionId with
  | none => simp [Db.commitTaken, hv] at hold
  | some v =>
    simp only [Db.commitTaken, hv, Option.any_some, Bool.and_eq_true, decide_eq_true_eq] at hold
    obtain ⟨hself, hsome⟩ := hold
    obtain ⟨⟨i, w⟩, hfirst⟩ := Option.isSome_iff_exists.mp hsome
    obtain ⟨hw, hrow⟩ := Table.first_some hfirst
    simp only [Bool.and_eq_true, decide_eq_true_eq, ne_eq] at hrow
    obtain ⟨⟨⟨hi, hp⟩, hs⟩, hcommit⟩ := hrow
    have hself' : (job.builtRows db).versions.lookup job.versionId =
        some (v.built job.s3Key job.publicUrl job.commitSha) := by
      simp [BuildJob.builtRows, hv]
    have hother : (job.builtRows db).versions.lookup i = some w := by
      simp [BuildJob.builtRows, hw, hi]
    exact (hc.apart i w hother _ _ hself' hi).commit hp hs hself (by simp [hcommit]) hcommit

/-- Another session may have deleted the row or taken the commit. -/
theorem updateStep_run (env : Env) (job : BuildJob) (x : Outside) (h : db.Sound) :
    (job.step env .update).run (Session.start db x) =
      match db.versions.lookup job.versionId with
      | none => .error staleRow ⟨db, db, x, true, false⟩
      | some _ =>
        if db.commitTaken job.versionId job.commitSha then
          .error (Schema.refused Db) (Session.refused (job.builtRows db) db x)
        else (call env (.refresh .updateVersionAfterBuild)).run
          (Session.start (job.builtRows db) x) := by
  simp only [BuildJob.step, updateStep, Work.bind_run, Session.start, requireRow_run]
  cases hv : db.versions.lookup job.versionId with
  | none => rfl
  | some v =>
    have hrow : db.modifyVersion job.versionId (fun v =>
        { v with
          s3Key := some job.s3Key
          downloadUrl := some (buildPublicUrlWithBase job.s3Key job.s3PublicUrl)
          commitSha := some job.commitSha
          buildStatus := .success }) = job.builtRows db := rfl
    simp only [updateVersionAfterBuild, Work.bind_run, updateVersion_run, hrow]
    by_cases hold : db.commitTaken job.versionId job.commitSha = true
    · have hrun := Work.commit_refused (ε := PyErr) (c := db) (x := x) (r := false)
        (BuildJob.builtRows_refused hold)
      simp only [hold, if_true, hrun]
    · rw [Bool.not_eq_true] at hold
      simp only [hold, Bool.false_eq_true, if_false,
        commit_run (BuildJob.builtRows_sound h hv hold).constraints]

def BuildJob.updateRows (job : BuildJob) (env : Env) (db : Db) : Db :=
  if (db.versions.lookup job.versionId).isNone || db.commitTaken job.versionId job.commitSha then
    db
  else (env.fault (.refresh .updateVersionAfterBuild)).elim (job.builtRows db)
    ((job.builtRows db).handled (job.builtRows db) job.versionId)

def BuildJob.updateOk (job : BuildJob) (env : Env) (db : Db) : Bool :=
  (db.versions.lookup job.versionId).isSome && !db.commitTaken job.versionId job.commitSha &&
    (env.fault (.refresh .updateVersionAfterBuild)).isNone

/-- What the update step leaves behind, whether it returns or raises. -/
theorem updateStep_advances (env : Env) (job : BuildJob) (x : Outside) (h : db.Sound) :
    ∃ refused, Advances (job.guarded env .update) db x (job.updateRows env db) x.files
      (job.updateOk env db) refused := by
  have hrun := updateStep_run env job x h
  unfold BuildJob.updateRows BuildJob.updateOk
  cases hv : db.versions.lookup job.versionId with
  | none =>
    rw [hv] at hrun
    exact ⟨_, guarded_broken _ hrun⟩
  | some v =>
    rw [hv] at hrun
    dsimp only at hrun
    by_cases hold : db.commitTaken job.versionId job.commitSha = true
    · rw [if_pos hold] at hrun
      simp only [hold, Bool.or_true, if_true, Bool.not_true, Bool.and_false, Bool.false_and]
      exact ⟨_, guarded_broken _ hrun⟩
    · rw [if_neg hold, call_run] at hrun
      rw [Bool.not_eq_true] at hold
      have hb := BuildJob.builtRows_sound h hv hold
      simp only [hold, Option.isNone_some, Option.isSome_some, Bool.or_self, Bool.false_eq_true,
        if_false, Bool.not_false, Bool.and_self, Bool.true_and]
      cases hf : env.fault (.refresh .updateVersionAfterBuild) with
      | none =>
        rw [hf] at hrun
        exact ⟨_, guarded_ok _ hrun⟩
      | some e =>
        rw [hf] at hrun
        exact ⟨_, guarded_error _ hb hrun⟩

theorem BuildJob.updateRows_sound (h : db.Sound) : (job.updateRows env db).Sound := by
  unfold BuildJob.updateRows
  split
  · exact h
  · rename_i hgo
    simp only [Bool.or_eq_true, not_or, Bool.not_eq_true, Option.isNone_eq_false_iff] at hgo
    obtain ⟨v, hv⟩ := Option.isSome_iff_exists.mp hgo.1
    have hb := BuildJob.builtRows_sound h hv hgo.2
    cases env.fault (.refresh .updateVersionAfterBuild) with
    | none => exact hb
    | some e => exact hb.handled hb job.versionId e

def Db.enabledProviders (db : Db) : List Provider :=
  Provider.names.filter db.config.scanEnabledProviders.contains

def BuildJob.scanRows (job : BuildJob) (env : Env) (db : Db) : Db :=
  match db.versions.lookup job.versionId with
  | none => db
  | some v =>
    let saved := db.scanOpened env.now job.versionId v
    match scanSelectedProviders env db.config db.enabledProviders with
    | .error e => (db.modifyVersion job.versionId (·.beginScan env.now)).handled saved
        job.versionId e
    | .ok outcomes =>
      if v.isLatest ∧ anyPending outcomes then saved
      else
        let done := db.scanned env.now job.versionId outcomes
        let rows := done.afterBuildScan env job outcomes
        (done.afterBuildScanError env job outcomes).elim rows
          (rows.handled rows job.versionId)

theorem Db.Sound.scanOpened (h : db.Sound) (now : Time) (versionId : VersionId)
    (v : PluginVersion) : (db.scanOpened now versionId v).Sound := by
  unfold Db.scanOpened
  split
  · exact h.beginScan now
  · exact h

theorem Db.Sound.autoPublished (h : db.Sound) (now : Time) (versionId : VersionId) :
    (db.autoPublished now versionId).Sound := by
  unfold Db.autoPublished
  cases hv : db.versions.lookup versionId with
  | none => exact h
  | some v =>
    by_cases hp : db.autoPublishes v = true
    · simp only [hp, if_true]
      refine h.published now .skipped hv rfl ?_
      rw [Db.autoPublishes, Bool.and_eq_true] at hp
      exact hp.2
    · simp only [hp, Bool.false_eq_true, if_false]
      exact h

theorem Db.Sound.afterScan (env : Env) (h : db.Sound) (versionId : VersionId)
    (outcomes : List (Provider × ScanOutcome)) : (db.afterScan env versionId outcomes).Sound := by
  unfold Db.afterScan
  split
  · exact h.autoPublished env.now versionId
  · exact h

theorem Db.Sound.afterBuildScan (env : Env) (h : db.Sound) (job : BuildJob)
    (outcomes : List (Provider × ScanOutcome)) : (db.afterBuildScan env job outcomes).Sound := by
  unfold Db.afterBuildScan
  split
  · exact h.afterScan env job.versionId outcomes
  · exact h

theorem BuildJob.scanRows_sound (h : db.Sound) : (job.scanRows env db).Sound := by
  unfold BuildJob.scanRows
  cases hv : db.versions.lookup job.versionId with
  | none => exact h
  | some v =>
    have hopen := h.scanOpened env.now job.versionId v
    dsimp only
    cases scanSelectedProviders env db.config db.enabledProviders with
    | error e => exact (h.beginScan env.now).handled hopen job.versionId e
    | ok outcomes =>
      dsimp only
      split
      · exact hopen
      · rename_i hlate
        have hdone := (h.scanned env hv outcomes hlate).afterBuildScan env job outcomes
        cases (db.scanned env.now job.versionId outcomes).afterBuildScanError env job outcomes with
        | none => exact hdone
        | some e => exact hdone.handled hdone job.versionId e

/-- What the scan step leaves behind, whether it returns or raises. -/
theorem scanStep_advances (env : Env) (job : BuildJob) (x : Outside) (h : db.Sound) :
    ∃ ok refused, Advances (job.guarded env .scan) db x (job.scanRows env db) x.files ok
      refused := by
  have hrun := scanVersion_run env x h job.versionId none job.resultsLoaded
  have hsel : db.selectedProviders none = .ok db.enabledProviders := rfl
  rw [hsel] at hrun
  unfold BuildJob.scanRows
  cases hv : db.versions.lookup job.versionId with
  | none =>
    rw [hv] at hrun
    have hend := guarded_error .scan h hrun
    rw [Db.handled, hv] at hend
    exact ⟨_, _, hend⟩
  | some v =>
    rw [hv] at hrun
    dsimp only at hrun ⊢
    cases hans : scanSelectedProviders env db.config db.enabledProviders with
    | error e =>
      rw [hans] at hrun
      exact ⟨_, _, guarded_error .scan (h.beginScan env.now) hrun⟩
    | ok outcomes =>
      rw [hans] at hrun
      dsimp only at hrun ⊢
      by_cases hlate : v.isLatest = true ∧ anyPending outcomes = true
      · rw [if_pos hlate] at hrun ⊢
        exact ⟨_, _, guarded_broken .scan hrun⟩
      · rw [if_neg hlate] at hrun ⊢
        have hdone := h.scanned env hv outcomes hlate
        obtain ⟨x', hx, hafter⟩ := afterBuildScan_done env x hdone job
          (Db.scanned_lookup _ hv outcomes) outcomes
        rw [hafter] at hrun
        cases he : (db.scanned env.now job.versionId outcomes).afterBuildScanError env job
            outcomes with
        | none =>
          rw [he] at hrun
          rw [← hx]
          exact ⟨_, _, guarded_ok .scan hrun⟩
        | some e =>
          rw [he] at hrun
          rw [← hx]
          exact ⟨_, _, guarded_error .scan (hdone.afterBuildScan _ job outcomes) hrun⟩

end PluginRegistry
