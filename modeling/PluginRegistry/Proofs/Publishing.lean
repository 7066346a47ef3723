import PluginRegistry.Proofs.VirusTotalVerdict

namespace PluginRegistry
open Lib

variable {env : Env} {db : Db} {x : Outside} {pluginId : PluginId} {versionId : VersionId}

structure Db.Promotes (db db' : Db) (pluginId : PluginId) (versionId : VersionId) : Prop where
  target : ∃ v, db'.versions.lookup versionId = some v ∧ v.pluginId = pluginId ∧
    v.isLatest = true ∧ v.versionStatus = .active ∧ v.buildStatus = .success ∧
    v.Cleared db'.config
  only : ∀ i v, db'.versions.lookup i = some v → v.pluginId = pluginId → v.isLatest = true →
    i = versionId
  active : ∃ a, db'.plugins.lookup pluginId = some a ∧ a.status = .active
  siblings : ∀ i, i ≠ versionId → db'.versions.lookup i =
    (db.versions.lookup i).map fun v => if v.pluginId = pluginId then { v with isLatest := false }
      else v
  otherPlugins : ∀ p, p ≠ pluginId → db'.plugins.lookup p = db.plugins.lookup p
  config : db'.config = db.config

/-- A call that publishes when it returns, and otherwise changes nothing unless it is
the cache refresh after its commit that raises. -/
structure PublishesExactly (env : Env) (db : Db) (report : Report PyErr Db Outside Unit)
    (pluginId : PluginId) (versionId : VersionId) (caller : Caller) : Prop where
  returned : report.outcome = .ok () → db.Promotes report.db pluginId versionId
  raised : ∀ e, report.outcome = .error e → env.fault (.refresh caller) ≠ some e →
    report.db = db

/-- The three ways a session reaches the database, if it refuses the rows. -/
theorem flush_stopped {p c : Db} {r : Bool} (h : ¬p.Constraints) :
    (Work.flush : Op Unit).run ⟨p, c, x, false, r⟩ =
      .error (Schema.refused Db) (Session.refused p c x) :=
  Work.flush_refused h

theorem commit_stopped {p c : Db} {r : Bool} (h : ¬p.Constraints) :
    (Work.commit : Op Unit).run ⟨p, c, x, false, r⟩ =
      .error (Schema.refused Db) (Session.refused p c x) :=
  Work.commit_refused h

theorem execute_stopped {p c : Db} {r : Bool} (g : Db → Db) (h : ¬p.Constraints) :
    (execute g).run ⟨p, c, x, false, r⟩ =
      .error (Schema.refused Db) (Session.refused p c x) := by
  rw [execute, Work.bind_run, flush_stopped h]

def CommitsOrRefuses (w : Op Unit) (env : Env) (db : Db) (x : Outside) (caller : Caller)
    (goes : Prop) (db' : Db) : Prop :=
  (∃ e s, w.run (Session.start db x) = .error e s ∧ s.committed = db) ∨
    goes ∧ w.run (Session.start db x) = (call env (.refresh caller)).run (Session.start db' x)

/-- Under the table constraints alone the flushes may be refused too. -/
theorem setLatestVersion_commits (h : db.Constraints) (env : Env) (x : Outside)
    (pluginId : PluginId) (versionId : VersionId) :
    CommitsOrRefuses (setLatestVersion env pluginId versionId) env db x .setLatestVersion
      (db.latestRefusal pluginId versionId = none) (db.latestSet pluginId versionId) := by
  unfold CommitsOrRefuses Db.latestRefusal
  simp only [setLatestVersion, Session.start, Work.bind_run, getPlugin_run h]
  cases ha : db.plugins.lookup pluginId with
  | none => exact .inl ⟨_, _, rfl, rfl⟩
  | some a =>
    by_cases hs : a.status = .active
    · simp only [Work.bind_run, Work.refuse_run, getVersionOf_run h, hs, ne_eq,
        not_true_eq_false, if_false]
      cases hv : (db.versions.lookup versionId).filter fun v => v.pluginId = pluginId with
      | none => exact .inl ⟨_, _, rfl, rfl⟩
      | some v =>
        by_cases hst : v.versionStatus = .active
        · simp only [Work.bind_run, Work.refuse_run, hst, not_true_eq_false, if_false,
            requirePassed_run h]
          cases hr : db.passRefusal v "Version build must be successful to be set as latest"
              "Version security scan must pass before setting latest" with
          | some e => exact .inl ⟨_, _, rfl, rfl⟩
          | none =>
            simp only [updateVersion_run]
            by_cases h1 : (db.modifyVersion versionId (·.settleBuild)).Constraints
            · simp only [execute_run _ h1, updateVersion_run]
              by_cases h2 : (db.latestSet pluginId versionId).Constraints
              · simp only [Db.latestSet] at h2 ⊢
                simp only [commit_run h2]
                exact .inr ⟨trivial, trivial⟩
              · simp only [Db.latestSet] at h2
                simp only [commit_stopped h2]
                exact .inl ⟨_, _, rfl, rfl⟩
            · simp only [execute_stopped _ h1]
              exact .inl ⟨_, _, rfl, rfl⟩
        · simp only [Work.bind_run, Work.refuse_run, hst, not_false_eq_true, if_true]
          exact .inl ⟨_, _, rfl, rfl⟩
    · simp only [Work.bind_run, Work.refuse_run, hs, ne_eq, not_false_eq_true, if_true]
      exact .inl ⟨_, _, rfl, rfl⟩

/-- Under the table constraints alone: the publication goes through with its rows, or raises
with the database as it was. -/
theorem publishPluginVersion_commits (h : db.Constraints) (env : Env) (x : Outside)
    (pluginId : PluginId) (versionId : VersionId) (reviewStatus : ReviewStatus) :
    CommitsOrRefuses (publishPluginVersion env pluginId versionId reviewStatus) env db x
      .publishPluginVersion (db.publishRefusal pluginId versionId reviewStatus = none)
      (db.published env.now pluginId versionId reviewStatus) := by
  unfold CommitsOrRefuses Db.publishRefusal
  simp only [publishPluginVersion, Session.start, Work.bind_run, Work.refuse_run]
  by_cases hrev : reviewStatus ≠ .approved ∧ reviewStatus ≠ .skipped
  · simp only [hrev, ne_eq, not_false_eq_true, and_self, if_true]
    exact .inl ⟨_, _, rfl, rfl⟩
  simp only [hrev, if_false, getPlugin_run h]
  cases ha : db.plugins.lookup pluginId with
  | none => exact .inl ⟨_, _, rfl, rfl⟩
  | some a =>
    simp only [Work.bind_run, getVersionOf_run h]
    cases hv : (db.versions.lookup versionId).filter fun v => v.pluginId = pluginId with
    | none => exact .inl ⟨_, _, rfl, rfl⟩
    | some v =>
      simp only [Work.bind_run, PluginVersion.selected_false, requirePassed_run h]
      cases hr : db.passRefusal v "Version build must be successful before publishing"
          "Version security scan must pass before publishing" with
      | some e => exact .inl ⟨_, _, rfl, rfl⟩
      | none =>
        have he : ((db.modifyVersion versionId (·.settleBuild)).modifyPlugin pluginId fun a =>
            { a with status := .active, reviewStatus }).modifyVersion versionId
              (fun v => { v with versionStatus := .active }) =
            db.activating pluginId versionId reviewStatus :=
          congrArg (fun d => Db.modifyPlugin d pluginId fun a =>
            { a with status := .active, reviewStatus }) (Db.modifyVersion_modifyVersion ..)
        simp only [updateVersion_run, updatePlugin_run, he, setHumanReviewResult]
        by_cases h1 : (db.activating pluginId versionId reviewStatus).Constraints
        · simp only [execute_run _ h1, Work.bind_run, updateVersion_run]
          by_cases h2 : (db.promoting pluginId versionId reviewStatus).Constraints
          · by_cases h3 : (db.published env.now pluginId versionId reviewStatus).Constraints
            · simp only [Db.published, Db.promoting] at h2 h3 ⊢
              simp only [flush_run h2, updateVersion_run, commit_run h3]
              exact .inr ⟨trivial, trivial⟩
            · simp only [Db.published, Db.promoting] at h2 h3
              simp only [flush_run h2, updateVersion_run, commit_stopped h3]
              exact .inl ⟨_, _, rfl, rfl⟩
          · simp only [Db.promoting] at h2
            simp only [flush_stopped h2]
            exact .inl ⟨_, _, rfl, rfl⟩
        · simp only [execute_stopped _ h1]
          exact .inl ⟨_, _, rfl, rfl⟩

/-- A call that commits only what promotes publishes exactly. -/
theorem CommitsOrRefuses.exactly {w : Op Unit} {caller : Caller} {goes : Prop} {db' : Db}
    (h : CommitsOrRefuses w env db x caller goes db')
    (hpromotes : goes → db.Promotes db' pluginId versionId) :
    PublishesExactly env db (w.perform db x) pluginId versionId caller := by
  rcases h with ⟨e, s, hrun, hs⟩ | ⟨hgo, hrun⟩
  · rw [Work.perform_of_error hrun]
    refine ⟨fun hok => ?_, fun _ _ _ => hs⟩
    cases hok
  · rw [call_run] at hrun
    cases hf : env.fault (.refresh caller) with
    | none =>
      rw [hf] at hrun
      rw [Work.perform_of_ok hrun]
      refine ⟨fun _ => hpromotes hgo, fun e he => ?_⟩
      cases he
    | some broken =>
      rw [hf] at hrun
      rw [Work.perform_of_error hrun]
      refine ⟨fun hok => ?_, fun e he hne => ?_⟩
      · cases hok
      · cases he
        exact absurd hf hne

/-- A rewriting that marks one version and takes the mark from the other ones of its plugin
is a promotion. -/
theorem Db.Rewritten.promotes {db' : Db} {f : VersionId → PluginVersion → PluginVersion}
    {g : PluginId → Plugin → Plugin} {u : PluginVersion} {a : Plugin}
    (hw : db.Rewritten db' f g) (hconfig : db'.config = db.config)
    (hv : db.versions.lookup versionId = some u) (ha : db.plugins.lookup pluginId = some a)
    (htarget : (f versionId u).pluginId = pluginId ∧ (f versionId u).isLatest = true ∧
      (f versionId u).versionStatus = .active ∧ (f versionId u).buildStatus = .success ∧
      (f versionId u).Cleared db.config)
    (hother : ∀ i v, i ≠ versionId → f i v = v.withoutLatest pluginId)
    (hactive : (g pluginId a).status = .active) (hsame : ∀ p b, p ≠ pluginId → g p b = b) :
    db.Promotes db' pluginId versionId where
  target := by
    refine ⟨f versionId u, ?_, ?_⟩
    · rw [hw.versions, hv, Option.map_some]
    · rw [hconfig]
      exact htarget
  only := by
    intro i v' hv' hown hlatest
    by_contra hi
    rw [hw.versions] at hv'
    obtain ⟨v, -, rfl⟩ := Option.map_eq_some_iff.mp hv'
    rw [hother i v hi] at hown hlatest
    have hkept := (v.withoutLatest_isLatest pluginId).mp hlatest
    exact hkept.1 ((congrArg Origin.pluginId (v.withoutLatest_origin pluginId)).symm.trans hown)
  active := by
    refine ⟨g pluginId a, ?_, hactive⟩
    rw [hw.plugins, ha, Option.map_some]
  siblings := by
    intro i hi
    rw [hw.versions]
    congr 1
    funext v
    exact hother i v hi
  otherPlugins := by
    intro p hp
    rw [hw.plugins]
    cases db.plugins.lookup p with
    | none => rfl
    | some b => rw [Option.map_some, hsame p b hp]
  config := hconfig

theorem Db.published_promotes {reviewStatus : ReviewStatus} (now : Time)
    (h : db.publishRefusal pluginId versionId reviewStatus = none) :
    db.Promotes (db.published now pluginId versionId reviewStatus) pluginId versionId := by
  obtain ⟨-, hplugin, u, hu, hown, hpass⟩ := Db.publishRefusal_eq_none.mp h
  obtain ⟨a, ha⟩ := Option.isSome_iff_exists.mp hplugin
  have hready := (Bool.and_eq_true_iff.mp hpass).1
  apply (Db.published_rewritten now pluginId versionId reviewStatus).promotes rfl hu ha
  · rw [if_pos rfl]
    refine ⟨?_, rfl, ?_, ?_, ?_⟩
    · exact (congrArg Origin.pluginId (u.published_origin pluginId now reviewStatus)).trans hown
    · exact (u.activated.withoutLatest_versionStatus pluginId).trans rfl
    · exact (u.activated.withoutLatest_buildStatus pluginId).trans
        (PluginVersion.settleBuild_success hready)
    · exact (Db.passes_cleared hpass).congr fun p => PluginVersion.published_result
  · intro i v hi
    rw [if_neg hi]
  · rw [if_pos rfl]
  · intro p b hp
    rw [if_neg hp]

theorem PluginVersion.promoted_result (v : PluginVersion) (pluginId : PluginId) (p : Provider) :
    (v.promoted pluginId).result p = v.result p := by
  unfold promoted withoutLatest settleBuild
  split <;> split <;> rfl

theorem Db.latestSet_promotes (h : db.latestRefusal pluginId versionId = none) :
    db.Promotes (db.latestSet pluginId versionId) pluginId versionId := by
  obtain ⟨a, u, ha, hactive, hu, hown, hst, hpass⟩ := Db.latestRefusal_eq_none.mp h
  have hready := (Bool.and_eq_true_iff.mp hpass).1
  apply (Db.latestSet_rewritten pluginId versionId).promotes rfl hu ha
  · rw [if_pos rfl]
    refine ⟨?_, rfl, ?_, ?_, ?_⟩
    · exact (congrArg Origin.pluginId (u.promoted_origin pluginId)).trans hown
    · exact ((u.settleBuild.withoutLatest_versionStatus pluginId).trans
        u.settleBuild_versionStatus).trans hst
    · exact (u.settleBuild.withoutLatest_buildStatus pluginId).trans
        (PluginVersion.settleBuild_success hready)
    · exact (Db.passes_cleared hpass).congr fun p => u.promoted_result pluginId p
  · intro i v hi
    rw [if_neg hi]
  · exact hactive
  · intro p b hp
    rfl

/-- Both ways to make a version the latest are exact and atomic, whatever rows the
constraints let through. -/
theorem publishing_exact (h : db.Constraints) (env : Env) (x : Outside) (pluginId : PluginId)
    (versionId : VersionId) :
    (∀ reviewStatus, PublishesExactly env db
        ((publishPluginVersion env pluginId versionId reviewStatus).perform db x) pluginId
        versionId .publishPluginVersion) ∧
      PublishesExactly env db ((setLatestVersion env pluginId versionId).perform db x) pluginId
        versionId .setLatestVersion := by
  constructor
  · intro reviewStatus
    exact (publishPluginVersion_commits h env x pluginId versionId reviewStatus).exactly
      (Db.published_promotes env.now)
  · exact (setLatestVersion_commits h env x pluginId versionId).exactly Db.latestSet_promotes

/-- Publishing a scanned version returns. -/
theorem publishing_exact_scanned :
    let w := World.run .default (publishedRun.take 3)
    ((publishPluginVersion (.calm 3) 0 1 .approved).perform w.db w.outside).outcome = .ok () ∧
      PublishesExactly (.calm 3) w.db
        ((publishPluginVersion (.calm 3) 0 1 .approved).perform w.db w.outside) 0 1
        .publishPluginVersion := by
  refine ⟨by decide +kernel, ?_⟩
  exact (publishing_exact (reachable_sound (World.run_reachable _ _)).constraints _ _ 0 1).1 _

end PluginRegistry
