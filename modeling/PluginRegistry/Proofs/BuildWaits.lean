import PluginRegistry.Clients.BuildWait
import PluginRegistry.Proofs.GlobalFlags

namespace PluginRegistry
open Acprctl

def awaited (version ref : String) (versions : List WaitVersion) : Option WaitVersion :=
  if version ≠ "" then pickWaitVersion versions version else pickWaitVersionBySourceRef versions ref

def Acprctl.Poll.Finished (built : String) (poll : Poll) : Prop :=
  ∃ versions, poll.detail = .ok versions ∧
    ∃ version ∈ versions, version.id = built ∧ version.buildStatus = "success"

/-- The version that a poll looks at is the one of the queued build, or is not successful. -/
def Acprctl.Poll.Clear (version ref built : String) (poll : Poll) : Prop :=
  ∀ versions, poll.detail = .ok versions → ∀ found, awaited version ref versions = some found →
    found.buildStatus = "success" → found.id = built

section
variable {version ref built : String} {polls : List Poll} {poll : Poll} {found : WaitVersion}

theorem mem_of_awaited {versions : List WaitVersion}
    (h : awaited version ref versions = some found) : found ∈ versions := by
  unfold awaited at h
  split at h
  · rename_i hversion
    rw [pickWaitVersion, if_pos hversion] at h
    exact List.mem_of_find?_eq_some h
  · exact List.mem_of_find?_eq_some h

/-- A version whose label nobody else carries is waited for safely. -/
theorem Acprctl.Poll.clear_of_fresh (hversion : version ≠ "")
    (h : ∀ versions, poll.detail = .ok versions → ∀ other ∈ versions,
      other.id = version ∨ other.version = version → other.id = built) :
    poll.Clear version ref built := by
  intro versions hdetail found hfound _
  have hmem := mem_of_awaited hfound
  rw [awaited, if_pos hversion, pickWaitVersion, if_pos hversion, findVersion] at hfound
  exact h versions hdetail found hmem (by simpa using List.find?_some hfound)

theorem Acprctl.Poll.timeout_ne_ok (poll : Poll) : poll.timeout ≠ some (.ok found) := by
  unfold Poll.timeout
  split <;> simp

/-- A round ends with success exactly where it looks at a successful version. -/
theorem pollResult_ok {pick : List WaitVersion → Option WaitVersion} :
    pollResult pick poll = some (.ok found) ↔
      ∃ versions, poll.detail = .ok versions ∧ pick versions = some found ∧
        found.buildStatus = "success" := by
  unfold pollResult
  cases poll.detail with
  | error err =>
    refine iff_of_false ?_ (by simp)
    dsimp only
    split
    · simp
    · exact poll.timeout_ne_ok
  | ok versions =>
    have hlisted : (∃ others, (Except.ok versions : Except CliError _) = .ok others ∧
        pick others = some found ∧ found.buildStatus = "success") ↔
          pick versions = some found ∧ found.buildStatus = "success" := by
      simp
    rw [hlisted]
    dsimp only
    cases pick versions with
    | none => exact iff_of_false poll.timeout_ne_ok (by simp)
    | some version =>
      dsimp only
      rw [Option.some.injEq]
      by_cases hsuccess : version.buildStatus = "success"
      · rw [if_pos hsuccess]
        constructor
        · rintro heq
          cases heq
          exact ⟨rfl, hsuccess⟩
        · rintro ⟨rfl, _⟩
          rfl
      · rw [if_neg hsuccess]
        refine iff_of_false ?_ ?_
        · split
          · simp
          · exact poll.timeout_ne_ok
        · rintro ⟨rfl, hfound⟩
          exact hsuccess hfound

/-- The rounds of a build command. -/
theorem handlePluginBuild_wait (hwaits : version ≠ "" ∨ ref ≠ "") (status : String)
    (polls : List Poll) :
    handlePluginBuild version ref true (.ok status) polls =
      (polls.findSome? (pollResult (awaited version ref))).map fun result =>
        result.map fun version => (status, WaitReport.success version) := by
  unfold handlePluginBuild
  by_cases hversion : version ≠ ""
  · have hpick : awaited version ref = fun versions => pickWaitVersion versions version := by
      funext versions
      rw [awaited, if_pos hversion]
    rw [hpick]
    simp [hversion, waitForPluginVersion]
  · have hpick : awaited version ref = fun versions => pickWaitVersionBySourceRef versions ref := by
      funext versions
      rw [awaited, if_neg hversion]
    have href : ref ≠ "" := hwaits.resolve_left hversion
    rw [hpick]
    simp [not_not.mp hversion, href, waitForPluginVersionBySourceRef]

end

/-- If at every poll the version looked at is that of the queued build or is not successful,
then the command reports success only with the built version, at a poll that lists it as
successful; and the first poll where this fails is reported as the success of another one. -/
theorem build_wait_reports (version ref built status : String)
    (hwaits : version ≠ "" ∨ ref ≠ "") (polls : List Poll) :
    ((∀ poll ∈ polls, poll.Clear version ref built) → ∀ report,
        handlePluginBuild version ref true (.ok status) polls = some (.ok report) →
          ∃ found, report = (status, .success found) ∧ found.id = built ∧
            ∃ before poll after, polls = before ++ poll :: after ∧ poll.Finished built ∧
              handlePluginBuild version ref true (.ok status) before = none) ∧
      ∀ poll, handlePluginBuild version ref true (.ok status) polls = none →
        ¬ poll.Clear version ref built →
          ∃ found, found.id ≠ built ∧
            handlePluginBuild version ref true (.ok status) (polls ++ [poll]) =
              some (.ok (status, .success found)) := by
  have hbuild := handlePluginBuild_wait hwaits status
  constructor
  · intro hclear report hreport
    rw [hbuild, Option.map_eq_some_iff] at hreport
    obtain ⟨result, hresult, hmap⟩ := hreport
    cases result with
    | error err => cases hmap
    | ok found =>
      obtain ⟨before, poll, after, hpolls, hpoll, hbefore⟩ := List.findSome?_eq_some_iff.mp hresult
      obtain ⟨versions, hdetail, hfound, hsuccess⟩ := pollResult_ok.mp hpoll
      have hmem : poll ∈ polls := by simp [hpolls]
      have hid := hclear poll hmem versions hdetail found hfound hsuccess
      refine ⟨found, (Except.ok.inj hmap).symm, hid, before, poll, after, hpolls, ?_, ?_⟩
      · exact ⟨versions, hdetail, found, mem_of_awaited hfound, hid, hsuccess⟩
      · rw [hbuild, List.findSome?_eq_none_iff.mpr hbefore]
        rfl
  · intro poll hwaiting hpoll
    rw [hbuild, Option.map_eq_none_iff] at hwaiting
    unfold Poll.Clear at hpoll
    push Not at hpoll
    obtain ⟨versions, hdetail, found, hfound, hsuccess, hid⟩ := hpoll
    refine ⟨found, hid, ?_⟩
    have hlast := pollResult_ok.mpr ⟨versions, hdetail, hfound, hsuccess⟩
    rw [hbuild, List.findSome?_append, hwaiting]
    simp [hlast, Except.map]

def waitVersion (id version buildStatus : String) : WaitVersion :=
  ⟨id, version, "", buildStatus⟩

def freshPolls : List Poll :=
  [⟨.ok [waitVersion "old" "v1" "success"], false, false⟩,
    ⟨.ok [waitVersion "old" "v1" "success", waitVersion "new" "v2" "building"], false, false⟩,
    ⟨.ok [waitVersion "old" "v1" "success", waitVersion "new" "v2" "success"], false, true⟩]

theorem fresh_build_reported :
    ∃ found : WaitVersion, found.id = "new" ∧
      handlePluginBuild "v2" "" true (.ok "queued") freshPolls =
        some (.ok ("queued", .success found)) := by
  have hclear : ∀ poll ∈ freshPolls, poll.Clear "v2" "" "new" := by
    intro poll hpoll
    apply Poll.clear_of_fresh (by decide)
    simp only [freshPolls, List.mem_cons, List.not_mem_nil, or_false] at hpoll
    rcases hpoll with rfl | rfl | rfl <;> rintro versions heq <;> cases heq <;>
      simp [waitVersion]
  obtain ⟨found, hreport, hid, _⟩ :=
    (build_wait_reports "v2" "" "new" "queued" (by decide) freshPolls).1 hclear
      ("queued", .success (waitVersion "new" "v2" "success")) (by decide)
  exact ⟨found, hid, hreport ▸ by decide⟩

/-- An older version of the same label is reported at once. -/
theorem older_build_reported :
    let poll : Poll := ⟨.ok [waitVersion "old" "v1" "success"], false, false⟩
    handlePluginBuild "v1" "" true (.ok "queued") [poll] =
        some (.ok ("queued", .success (waitVersion "old" "v1" "success"))) ∧
      ¬ poll.Finished "new" := by
  refine ⟨by decide, ?_⟩
  rintro ⟨versions, heq, found, hfound, hid, _⟩
  cases heq
  rw [List.mem_singleton.mp hfound] at hid
  exact absurd hid (by decide)

end PluginRegistry
