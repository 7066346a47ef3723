import PluginRegistry.Lib.Escapes
import PluginRegistry.Proofs.AccountPower
import PluginRegistry.Proofs.ReviewContext
import PluginRegistry.Proofs.VirusTotalVerdict
import PluginRegistry.Services.Scanners

namespace PluginRegistry
open Lib

variable {text : PyText} {config : VirusTotalConfig} {calls : VirusTotalCalls}

def PyErr.clamavCatches (e : PyErr) : Bool :=
  e.isA [.timeoutError] || e.isA [.osError]

def PyErr.virustotalCatches (e : PyErr) : Bool :=
  e.isA [.httpStatusError] || e.isA [.httpError] || e.isA [.keyError, .typeError, .valueError]

def PyErr.llmCatches (e : PyErr) : Bool :=
  e.isA [.osError, .badZipFile, .keyError, .typeError, .valueError] ||
    e.isA [.httpStatusError] || e.isA [.httpError]

theorem virustotalFailure_caught {e : PyErr} (h : e.virustotalCatches = true) :
    ∃ o, virustotalFailure e = .ok o := by
  unfold virustotalFailure
  rw [PyErr.virustotalCatches, Bool.or_eq_true, Bool.or_eq_true] at h
  split
  · exact ⟨_, rfl⟩
  · rename_i hstatus
    split
    · exact ⟨_, rfl⟩
    · rename_i hhttp
      rw [if_pos ((h.resolve_left fun hc => hc.elim hstatus hhttp))]
      exact ⟨_, rfl⟩

theorem virustotalFailure_uncaught {e : PyErr} (h : e.virustotalCatches = false) :
    virustotalFailure e = .error e := by
  rw [PyErr.virustotalCatches, Bool.or_eq_false_iff, Bool.or_eq_false_iff] at h
  obtain ⟨⟨hstatus, hhttp⟩, hrest⟩ := h
  simp only [virustotalFailure, hstatus, hhttp, hrest, Bool.false_eq_true, if_false]

theorem llmFailure_caught {e : PyErr} (h : e.llmCatches = true) :
    ∃ o, llmFailure e = .ok o := by
  unfold llmFailure
  rw [PyErr.llmCatches, Bool.or_eq_true, Bool.or_eq_true] at h
  split
  · exact ⟨_, rfl⟩
  · rename_i hlisted
    split
    · exact ⟨_, rfl⟩
    · rename_i hstatus
      rw [if_pos (h.resolve_left fun hc => hc.elim hlisted hstatus)]
      exact ⟨_, rfl⟩

theorem llmFailure_uncaught {e : PyErr} (h : e.llmCatches = false) : llmFailure e = .error e := by
  rw [PyErr.llmCatches, Bool.or_eq_false_iff, Bool.or_eq_false_iff] at h
  obtain ⟨⟨hlisted, hstatus⟩, hhttp⟩ := h
  simp only [llmFailure, hlisted, hstatus, hhttp, Bool.false_eq_true, if_false]

def artifactRead {α : Type} (s3Key : Option String) (localFile : Option α)
    (download : Except PyErr α) : Option α :=
  match localFile with
  | some file => some file
  | none => if truthy s3Key then download.toOption else none

def forVersion {α : Type} (s3Key : Option String) (localFile : Option α)
    (download : Except PyErr α) (missing : ScanOutcome) (failed : PyErr → ScanOutcome)
    (scan : α → Except PyErr ScanOutcome) : Except PyErr ScanOutcome :=
  match localFile with
  | some file => scan file
  | none =>
    if !truthy s3Key then .ok missing
    else match download with
      | .ok file => scan file
      | .error e => .ok (failed e)

/-- A provider raises over an artifact that it can read, and nowhere else. -/
theorem forVersion_raises {α : Type} {s3Key : Option String} {localFile : Option α}
    {download : Except PyErr α} {missing : ScanOutcome} {failed : PyErr → ScanOutcome}
    {scan : α → Except PyErr ScanOutcome} :
    (∃ e, forVersion s3Key localFile download missing failed scan = .error e) ↔
      ∃ file, artifactRead s3Key localFile download = some file ∧ ∃ e, scan file = .error e := by
  unfold forVersion artifactRead
  cases localFile with
  | some file => simp only [Option.some.injEq, exists_eq_left']
  | none =>
    cases hkey : truthy s3Key with
    | false => simp
    | true => cases download <;> simp [Except.toOption]

/-- ClamAV raises exactly where the connection fails with an error that its handler does not
name. -/
theorem scanClamav_raises {config : ClamavConfig} {size : Nat}
    {reply : Except SocketError String} :
    (∃ e, scanClamav config size reply = .error e) ↔
      (size : Int) ≤ config.streamLimit ∧
        ∃ failure, reply = .error failure ∧ failure.error.clamavCatches = false := by
  unfold scanClamav
  by_cases hlarge : config.streamLimit < size
  · rw [if_pos hlarge]
    constructor
    · rintro ⟨e, he⟩
      cases he
    · rintro ⟨hsmall, -⟩
      omega
  · rw [if_neg hlarge]
    have hsmall : (size : Int) ≤ config.streamLimit := by omega
    rw [and_iff_right hsmall]
    cases reply with
    | ok reply =>
      constructor
      · rintro ⟨e, he⟩
        cases he
      · rintro ⟨failure, hfailure, -⟩
        cases hfailure
    | error failure =>
      simp only [Except.error.injEq, exists_eq_left', PyErr.clamavCatches]
      cases htime : failure.error.isA [.timeoutError] <;>
        cases hos : failure.error.isA [.osError] <;> simp

def Json.NoMapping (value : Json) : Prop :=
  value.truthy = true ∧ ∀ fields, value ≠ .obj fields

inductive Json.Unreadable : Json → Prop
  | body {body : Json} (h : ∀ fields, body ≠ .obj fields) : Unreadable body
  | data {fields : JsonObject} {data : Json} (hdata : JsonObject.get fields "data" = some data)
      (h : data.NoMapping) : Unreadable (.obj fields)
  | attributes {fields data : JsonObject} {attributes : Json}
      (hdata : JsonObject.get fields "data" = some (.obj data))
      (hattributes : JsonObject.get data "attributes" = some attributes)
      (h : attributes.NoMapping) : Unreadable (.obj fields)

theorem Json.getKey_escapes {key : String} {value : Json} :
    Escapes PyErr.virustotalCatches (value.getKey key) ↔ ∀ fields, value ≠ .obj fields := by
  cases value with
  | obj fields =>
    constructor
    · intro h
      exact absurd h not_escapes_ok
    · intro h
      exact absurd rfl (h fields)
  | _ =>
    constructor
    · intro _ fields h
      cases h
    · intro _
      exact escapes_error.mpr rfl

theorem Json.getKey_ok {key : String} {value found : Json} (h : value.getKey key = .ok found) :
    ∃ fields, value = .obj fields ∧ found = (JsonObject.get fields key).getD .null := by
  cases value with
  | obj fields => exact ⟨fields, rfl, (Except.ok.inj h).symm⟩
  | _ => cases h

theorem Json.orEmpty_escapes (key : String) {value : Json} :
    Escapes PyErr.virustotalCatches (value.orEmpty.getKey key) ↔ value.NoMapping := by
  rw [Json.getKey_escapes, Json.orEmpty, Json.NoMapping]
  cases value.truthy with
  | true => simp
  | false =>
    simp only [Bool.false_eq_true, if_false, false_and, iff_false]
    intro h
    exact h [] rfl

theorem Json.noMapping_getD {fields : JsonObject} {key : String} :
    ((JsonObject.get fields key).getD .null).NoMapping ↔
      ∃ value, JsonObject.get fields key = some value ∧ value.NoMapping := by
  cases JsonObject.get fields key with
  | none =>
    simp only [Option.getD_none, reduceCtorEq, false_and, exists_false, iff_false]
    rintro ⟨h, -⟩
    cases h
  | some value => simp only [Option.getD_some, Option.some.injEq, exists_eq_left']

/-- What is truthy and has a `get` is an object. -/
theorem Json.orEmpty_eq_obj {value : Json} {fields : JsonObject} (h : value.orEmpty = .obj fields) :
    value = .obj fields ∨ value.truthy = false ∧ fields = [] := by
  rw [Json.orEmpty] at h
  cases htruthy : value.truthy with
  | true =>
    rw [if_pos htruthy] at h
    exact .inl h
  | false =>
    rw [if_neg (by simp [htruthy])] at h
    cases h
    exact .inr ⟨rfl, rfl⟩

theorem Json.orEmpty_of_get {fields : JsonObject} {key : String} {value : Json}
    (h : JsonObject.get fields key = some value) : (Json.obj fields).orEmpty = .obj fields := by
  cases fields with
  | nil => cases h
  | cons field fields => rfl

/-- The chain of lookups stops at the first value without a `get`. -/
theorem attributes_escapes (reply : HttpReply) (key : String) :
    Escapes PyErr.virustotalCatches (reply.attributes >>= fun a => a.getKey key) ↔
      (∃ e, reply.json = .error e ∧ e.virustotalCatches = false) ∨
        ∃ body, reply.json = .ok body ∧ body.Unreadable := by
  have hchain : (reply.attributes >>= fun a => a.getKey key) =
      (reply.json >>= fun body => body.getKey "data" >>= fun data =>
        data.orEmpty.getKey "attributes" >>= fun attributes =>
          attributes.orEmpty.getKey key) := by
    unfold HttpReply.attributes
    cases reply.json with
    | error e => rfl
    | ok body =>
      change (body.getKey "data" >>= _) >>= _ = (body.getKey "data" >>= _)
      cases body.getKey "data" with
      | error e => rfl
      | ok data =>
        change (data.orEmpty.getKey "attributes" >>= _) >>= _ =
          (data.orEmpty.getKey "attributes" >>= _)
        cases data.orEmpty.getKey "attributes" <;> rfl
  rw [hchain, escapes_bind]
  refine or_congr Iff.rfl (exists_congr fun body => and_congr_right fun _ => ?_)
  rw [escapes_bind, Json.getKey_escapes]
  constructor
  · rintro (hbody | ⟨data, hdata, h⟩)
    · exact .body hbody
    · obtain ⟨fields, rfl, rfl⟩ := Json.getKey_ok hdata
      rcases escapes_bind.mp h with hdata | ⟨attributes, hattributes, h⟩
      · obtain ⟨data, hdata, hno⟩ := Json.noMapping_getD.mp ((Json.orEmpty_escapes _).mp hdata)
        exact .data hdata hno
      · obtain ⟨inner, hinner, rfl⟩ := Json.getKey_ok hattributes
        obtain ⟨attributes, hattributes, hno⟩ :=
          Json.noMapping_getD.mp ((Json.orEmpty_escapes _).mp h)
        rcases Json.orEmpty_eq_obj hinner with hobj | ⟨-, rfl⟩
        · cases hdata' : JsonObject.get fields "data" with
          | none =>
            rw [hdata'] at hobj
            cases hobj
          | some data =>
            rw [hdata'] at hobj
            exact .attributes (hdata'.trans (congrArg some hobj)) hattributes hno
        · cases hattributes
  · intro h
    cases h with
    | body hbody => exact .inl hbody
    | data hdata hno =>
      right
      refine ⟨_, rfl, escapes_bind.mpr (.inl ?_)⟩
      rw [hdata]
      exact (Json.orEmpty_escapes _).mpr hno
    | attributes hdata hattributes hno =>
      right
      refine ⟨_, rfl, escapes_bind.mpr ?_⟩
      rw [hdata, Option.getD_some, Json.orEmpty_of_get hattributes]
      refine .inr ⟨_, rfl, ?_⟩
      rw [hattributes]
      exact (Json.orEmpty_escapes _).mpr hno

/-- A request that raises, or an answer whose text is no JSON, outside the handlers. -/
inductive RequestEscapes (call : Except PyErr HttpReply) : Prop
  | request {e : PyErr} (hcall : call = .error e) (h : e.virustotalCatches = false) :
    RequestEscapes call
  | body {reply : HttpReply} {e : PyErr} (hcall : call = .ok reply)
      (hstatus : 200 ≤ reply.status ∧ reply.status < 300) (hjson : reply.json = .error e)
      (h : e.virustotalCatches = false) : RequestEscapes call

inductive ReportEscapes (call : Except PyErr HttpReply) : Prop
  | request (h : RequestEscapes call) : ReportEscapes call
  | shape {reply : HttpReply} {body : Json} (hcall : call = .ok reply)
      (hstatus : 200 ≤ reply.status ∧ reply.status < 300) (hjson : reply.json = .ok body)
      (h : body.Unreadable) : ReportEscapes call

/-- A status outside 2xx is always reported. -/
theorem raiseForStatus_escapes {reply : HttpReply} :
    ¬ Escapes PyErr.virustotalCatches reply.raiseForStatus := by
  unfold HttpReply.raiseForStatus
  split
  · exact not_escapes_ok
  · rw [escapes_error]
    simp [PyErr.virustotalCatches, PyErr.isA, ExcClass.base]

theorem raiseForStatus_ok {reply : HttpReply} :
    reply.raiseForStatus = .ok () ↔ 200 ≤ reply.status ∧ reply.status < 300 := by
  unfold HttpReply.raiseForStatus
  split
  · rename_i h
    exact iff_of_true rfl h
  · rename_i h
    constructor
    · intro hc
      cases hc
    · intro hc
      exact absurd hc h

/-- What is read of a 2xx answer. -/
theorem answered_escapes {α : Type} {reply : HttpReply} {x : Except PyErr α} :
    Escapes PyErr.virustotalCatches (reply.raiseForStatus >>= fun _ => x) ↔
      (200 ≤ reply.status ∧ reply.status < 300) ∧ Escapes PyErr.virustotalCatches x := by
  rw [escapes_bind, or_iff_right raiseForStatus_escapes]
  constructor
  · rintro ⟨⟨⟩, hstatus, h⟩
    exact ⟨raiseForStatus_ok.mp hstatus, h⟩
  · rintro ⟨hstatus, h⟩
    exact ⟨(), raiseForStatus_ok.mpr hstatus, h⟩

/-- An answer whose attributes are looked up, whatever is made of the value. -/
theorem lookup_escapes {α : Type} {call : Except PyErr HttpReply} (key : String)
    (use : Json → Json → Except PyErr α)
    (huse : ∀ attributes value, ¬ Escapes PyErr.virustotalCatches (use attributes value)) :
    Escapes PyErr.virustotalCatches (call >>= fun reply => reply.raiseForStatus >>= fun _ =>
        reply.attributes >>= fun attributes => attributes.getKey key >>= use attributes) ↔
      ReportEscapes call := by
  have hread : ∀ reply : HttpReply, Escapes PyErr.virustotalCatches
      (reply.attributes >>= fun attributes => attributes.getKey key >>= use attributes) ↔
        (∃ e, reply.json = .error e ∧ e.virustotalCatches = false) ∨
          ∃ body, reply.json = .ok body ∧ body.Unreadable := by
    intro reply
    rw [← attributes_escapes reply key, escapes_bind, escapes_bind]
    refine or_congr Iff.rfl (exists_congr fun attributes => and_congr_right fun _ => ?_)
    rw [escapes_bind, or_iff_left]
    rintro ⟨value, -, h⟩
    exact huse attributes value h
  rw [escapes_bind]
  constructor
  · rintro (⟨e, he, hno⟩ | ⟨reply, hreply, h⟩)
    · exact .request (.request he hno)
    · obtain ⟨hstatus, h⟩ := answered_escapes.mp h
      rcases (hread reply).mp h with ⟨e, hjson, hno⟩ | ⟨body, hjson, hbody⟩
      · exact .request (.body hreply hstatus hjson hno)
      · exact .shape hreply hstatus hjson hbody
  · intro h
    cases h with
    | request h =>
      cases h with
      | request hcall hno => exact .inl ⟨_, hcall, hno⟩
      | body hcall hstatus hjson hno =>
        exact .inr ⟨_, hcall, answered_escapes.mpr ⟨hstatus, (hread _).mpr (.inl ⟨_, hjson, hno⟩)⟩⟩
    | shape hcall hstatus hjson hbody =>
      exact .inr ⟨_, hcall, answered_escapes.mpr ⟨hstatus, (hread _).mpr (.inr ⟨_, hjson, hbody⟩)⟩⟩

def keepStats : Json → Except PyErr (Option JsonObject)
  | .obj stats => .ok (some stats)
  | _ => .ok none

theorem getVirustotalFileReport_eq {reply : HttpReply} (h : reply.status ≠ 404) :
    getVirustotalFileReport (.ok reply) = (reply.raiseForStatus >>= fun _ =>
      reply.attributes >>= fun attributes =>
        attributes.getKey "last_analysis_stats" >>= keepStats) := by
  change (if reply.status = 404 then _ else _) = _
  rw [if_neg h]
  refine congrArg (reply.raiseForStatus >>= ·) (funext fun _ => ?_)
  refine congrArg (reply.attributes >>= ·) (funext fun attributes => ?_)
  refine congrArg (attributes.getKey "last_analysis_stats" >>= ·) (funext fun value => ?_)
  cases value <;> rfl

/-- What gets out of the lookup of a report. -/
theorem report_escapes {call : Except PyErr HttpReply} :
    Escapes PyErr.virustotalCatches (getVirustotalFileReport call) ↔ ReportEscapes call := by
  have hkeep : ∀ attributes value : Json,
      ¬ Escapes PyErr.virustotalCatches ((fun _ => keepStats) attributes value) := by
    intro attributes value
    cases value <;> exact not_escapes_ok
  rw [← lookup_escapes "last_analysis_stats" (fun _ => keepStats) hkeep]
  cases call with
  | error e => exact Iff.rfl
  | ok reply =>
    by_cases hmissing : reply.status = 404
    · have hleft : getVirustotalFileReport (.ok reply) = .ok none := by
        change (if reply.status = 404 then _ else _) = _
        rw [if_pos hmissing]
        rfl
      have hstatus : ¬ (200 ≤ reply.status ∧ reply.status < 300) := by omega
      rw [hleft, escapes_bind]
      refine iff_of_false not_escapes_ok ?_
      rintro (h | ⟨reply', hreply, h⟩)
      · exact not_escapes_ok h
      · cases hreply
        exact hstatus (answered_escapes.mp h).1
    · rw [getVirustotalFileReport_eq hmissing]
      exact Iff.rfl

theorem item_escapes {key : String} {value : Json} :
    ¬ Escapes PyErr.virustotalCatches (value.item key) := by
  cases value with
  | obj fields =>
    rw [Json.item]
    split
    · exact not_escapes_ok
    · exact fun h => absurd (escapes_error.mp h) (by simp [PyErr.virustotalCatches, PyErr.isA])
  | _ => exact fun h => absurd (escapes_error.mp h) (by simp [PyErr.virustotalCatches, PyErr.isA])

/-- The identifier of an upload is looked up by keys, and what that raises is caught. -/
theorem upload_escapes (text : PyText) {call : Except PyErr HttpReply} :
    Escapes PyErr.virustotalCatches (uploadToVirustotal text call) ↔ RequestEscapes call := by
  have hread : ∀ reply : HttpReply, Escapes PyErr.virustotalCatches (reply.json >>= fun data =>
      data.item "data" >>= fun data => data.item "id" >>= fun id =>
        (pure (id.toStr text) : Except PyErr String)) ↔
        ∃ e, reply.json = .error e ∧ e.virustotalCatches = false := by
    intro reply
    rw [escapes_bind]
    refine or_iff_left ?_
    rintro ⟨data, -, h⟩
    rcases escapes_bind.mp h with h | ⟨data, -, h⟩
    · exact item_escapes h
    · rcases escapes_bind.mp h with h | ⟨id, -, h⟩
      · exact item_escapes h
      · exact not_escapes_pure h
  unfold uploadToVirustotal
  rw [escapes_bind]
  constructor
  · rintro (⟨e, he, hno⟩ | ⟨reply, hreply, h⟩)
    · exact .request he hno
    · obtain ⟨hstatus, h⟩ := answered_escapes.mp h
      obtain ⟨e, hjson, hno⟩ := (hread reply).mp h
      exact .body hreply hstatus hjson hno
  · intro h
    cases h with
    | request hcall hno => exact .inl ⟨_, hcall, hno⟩
    | body hcall hstatus hjson hno =>
      exact .inr ⟨_, hcall, answered_escapes.mpr ⟨hstatus, (hread _).mpr ⟨_, hjson, hno⟩⟩⟩

def JsonObject.Overflows (stats : JsonObject) : List String → Prop
  | [] => False
  | key :: keys =>
    (∃ negative, JsonObject.get stats key = some (.float (.infinite negative))) ∨
      (∃ n, (Json.obj stats).counter key = .ok n) ∧ JsonObject.Overflows stats keys

theorem parseInt_escapes {s : String} : ¬ Escapes PyErr.virustotalCatches (parseInt s) := by
  unfold parseInt
  dsimp only
  split
  · exact fun h => absurd (escapes_error.mp h)
      (by simp [valueError, PyErr.virustotalCatches, PyErr.isA])
  · split
    · exact fun h => absurd (escapes_error.mp h)
        (by simp [valueError, PyErr.virustotalCatches, PyErr.isA])
    · exact not_escapes_ok

theorem toInt_escapes {value : Json} :
    Escapes PyErr.virustotalCatches value.toInt ↔
      ∃ negative, value = .float (.infinite negative) := by
  cases value with
  | float f =>
    cases f with
    | infinite negative =>
      rw [Json.toInt, escapes_error]
      exact iff_of_true (by simp [PyErr.virustotalCatches, PyErr.isA, ExcClass.base]) ⟨negative, rfl⟩
    | finite significand exponent =>
      rw [Json.toInt]
      exact iff_of_false not_escapes_ok (by simp)
    | nan =>
      rw [Json.toInt, escapes_error]
      exact iff_of_false (by simp [valueError, PyErr.virustotalCatches, PyErr.isA]) (by simp)
  | str s =>
    rw [Json.toInt]
    exact iff_of_false parseInt_escapes (by simp)
  | bool b => exact iff_of_false not_escapes_ok (by simp)
  | int n => exact iff_of_false not_escapes_ok (by simp)
  | _ =>
    rw [Json.toInt, escapes_error]
    · exact iff_of_false (by simp [PyErr.virustotalCatches, PyErr.isA]) (by simp)
    all_goals simp

theorem counter_escapes {stats : JsonObject} {key : String} :
    Escapes PyErr.virustotalCatches ((Json.obj stats).counter key) ↔
      ∃ negative, JsonObject.get stats key = some (.float (.infinite negative)) := by
  have hcounter : (Json.obj stats).counter key =
      if ((JsonObject.get stats key).getD .null).truthy then
        ((JsonObject.get stats key).getD .null).toInt else .ok 0 := rfl
  rw [hcounter]
  cases JsonObject.get stats key with
  | none =>
    refine iff_of_false not_escapes_ok ?_
    rintro ⟨negative, h⟩
    cases h
  | some value =>
    simp only [Option.getD_some, Option.some.injEq]
    split
    · exact toInt_escapes
    · rename_i hfalsy
      refine iff_of_false not_escapes_ok ?_
      rintro ⟨negative, rfl⟩
      exact hfalsy rfl

theorem counters_escape {α : Type} {stats : JsonObject} {key : String} {keys : List String}
    {f : Int → Except PyErr α}
    (hf : ∀ n, Escapes PyErr.virustotalCatches (f n) ↔ stats.Overflows keys) :
    Escapes PyErr.virustotalCatches ((Json.obj stats).counter key >>= f) ↔
      stats.Overflows (key :: keys) := by
  rw [escapes_bind, counter_escapes, JsonObject.Overflows]
  refine or_congr Iff.rfl ?_
  constructor
  · rintro ⟨n, hn, h⟩
    exact ⟨⟨n, hn⟩, (hf n).mp h⟩
  · rintro ⟨⟨n, hn⟩, h⟩
    exact ⟨n, hn, (hf n).mpr h⟩

theorem formatVirustotalResult_escapes {stats : JsonObject} {analysisId : String} :
    Escapes PyErr.virustotalCatches (formatVirustotalResult (.obj stats) analysisId) ↔
      stats.Overflows verdictKeys := by
  unfold formatVirustotalResult verdictKeys
  refine counters_escape fun malicious => ?_
  refine counters_escape fun suspicious => ?_
  refine counters_escape fun harmless => ?_
  refine counters_escape fun undetected => ?_
  exact iff_of_false not_escapes_pure id

inductive VirusTotalCalls.ScanEscapes (text : PyText) (calls : VirusTotalCalls) : Prop
  | report (h : ReportEscapes calls.report) : ScanEscapes text calls
  | upload (hreport : getVirustotalFileReport calls.report = .ok none)
      (h : RequestEscapes calls.upload) : ScanEscapes text calls
  | again {e : PyErr} (hreport : getVirustotalFileReport calls.report = .ok none)
      (hupload : uploadToVirustotal text calls.upload = .error e)
      (hconflict : (e.isA [.httpStatusError] && e.status = 409) = true)
      (h : ReportEscapes calls.reportAgain) : ScanEscapes text calls
  | statistics {stats : JsonObject} (hstats : calls.Scans text (.obj stats))
      (h : stats.Overflows verdictKeys) : ScanEscapes text calls

inductive PollEscapes (text : PyText) (call : Except PyErr HttpReply) : Prop
  | analysis (h : ReportEscapes call) : PollEscapes text call
  | shape {attributes : JsonObject} {stats : Json}
      (hanalysis : readAnalysis text call = .ok ("completed", .obj attributes))
      (hstats : JsonObject.get attributes "stats" = some stats) (h : stats.NoMapping) :
    PollEscapes text call
  | statistics {attributes stats : JsonObject}
      (hanalysis : readAnalysis text call = .ok ("completed", .obj attributes))
      (hstats : JsonObject.get attributes "stats" = some (.obj stats))
      (h : stats.Overflows verdictKeys) : PollEscapes text call

theorem httpStatus_caught {e : PyErr} (h : e.isA [.httpStatusError] = true) :
    e.virustotalCatches = true := by
  rw [PyErr.virustotalCatches, h]
  rfl

/-- What gets out of a scan before its handlers: a lookup, an upload and the reading of the
statistics. -/
theorem askVirustotal_escapes {now : Time} {file : ScannedFile} :
    Escapes PyErr.virustotalCatches (askVirustotal text now config file calls) ↔
      calls.ScanEscapes text := by
  unfold askVirustotal
  rw [escapes_bind, report_escapes]
  constructor
  · rintro (h | ⟨found, hreport, h⟩)
    · exact .report h
    · cases found with
      | some stats => exact .statistics (.existing hreport) (formatVirustotalResult_escapes.mp h)
      | none =>
        dsimp only at h
        cases hupload : uploadToVirustotal text calls.upload with
        | ok analysisId =>
          rw [hupload] at h
          exact absurd h not_escapes_pure
        | error e =>
          rw [hupload] at h
          dsimp only at h
          split at h
          · rename_i hconflict
            have hcaught := httpStatus_caught (Bool.and_eq_true_iff.mp hconflict).1
            rcases escapes_bind.mp h with h | ⟨again, hagain, h⟩
            · exact .again hreport hupload hconflict (report_escapes.mp h)
            · cases again with
              | some stats =>
                exact .statistics (.conflict hreport hupload hconflict hagain)
                  (formatVirustotalResult_escapes.mp h)
              | none => exact absurd (hcaught.symm.trans (escapes_error.mp h)) (by decide)
          · exact .upload hreport ((upload_escapes text).mp ⟨e, hupload, escapes_error.mp h⟩)
  · intro h
    cases h with
    | report h => exact .inl h
    | upload hreport h =>
      right
      refine ⟨none, hreport, ?_⟩
      obtain ⟨e, hupload, hno⟩ := (upload_escapes text).mpr h
      have hplain : ¬ (e.isA [.httpStatusError] && decide (e.status = 409)) = true := by
        intro hc
        rw [httpStatus_caught (Bool.and_eq_true_iff.mp hc).1] at hno
        cases hno
      dsimp only
      rw [hupload]
      dsimp only
      rw [if_neg hplain]
      exact escapes_error.mpr hno
    | again hreport hupload hconflict h =>
      right
      refine ⟨none, hreport, ?_⟩
      dsimp only
      rw [hupload]
      dsimp only
      rw [if_pos hconflict]
      exact escapes_bind.mpr (.inl (report_escapes.mpr h))
    | statistics hstats h =>
      right
      cases hstats with
      | existing hreport => exact ⟨_, hreport, formatVirustotalResult_escapes.mpr h⟩
      | conflict hreport hupload hconflict hagain =>
        refine ⟨none, hreport, ?_⟩
        dsimp only
        rw [hupload]
        dsimp only
        rw [if_pos hconflict]
        exact escapes_bind.mpr (.inr ⟨_, hagain, formatVirustotalResult_escapes.mpr h⟩)

def VirusTotalConfig.Accepts (config : VirusTotalConfig) (file : ScannedFile) : Prop :=
  0 < config.maxDirectUploadBytes → (file.size : Int) ≤ config.maxDirectUploadBytes

theorem scanVirustotal_raises {now : Time} {file : ScannedFile} :
    (∃ e, scanVirustotal text now config file calls = .error e) ↔
      config.Accepts file ∧ calls.ScanEscapes text := by
  unfold scanVirustotal VirusTotalConfig.Accepts
  split
  · rename_i hlarge
    constructor
    · rintro ⟨e, he⟩
      cases he
    · rintro ⟨haccepts, -⟩
      have hsmall := haccepts hlarge.1
      omega
  · rename_i hsmall
    rw [and_iff_right (by omega), ← askVirustotal_escapes]
    apply escapes_iff_handled (fun _ => virustotalFailure_caught)
      (fun _ => virustotalFailure_uncaught)
    · intro o ho
      rw [ho]
      exact ⟨o, rfl⟩
    · intro e he
      rw [he]

theorem readAnalysis_escapes {call : Except PyErr HttpReply} :
    Escapes PyErr.virustotalCatches (readAnalysis text call) ↔ ReportEscapes call := by
  have hread : readAnalysis text call = (call >>= fun reply => reply.raiseForStatus >>= fun _ =>
      reply.attributes >>= fun attributes => attributes.getKey "status" >>= fun status =>
        pure (if status.truthy then status.toStr text else "unknown", attributes)) := rfl
  rw [hread]
  exact lookup_escapes _ _ fun _ _ => not_escapes_pure

/-- The attributes of an analysis that could be read are an object. -/
theorem readAnalysis_object {call : Except PyErr HttpReply} {status : String} {attributes : Json}
    (h : readAnalysis text call = .ok (status, attributes)) :
    ∃ fields, attributes = .obj fields := by
  obtain ⟨reply, -, h⟩ := except_bind_ok h
  obtain ⟨_, -, h⟩ := except_bind_ok h
  obtain ⟨attributes', -, h⟩ := except_bind_ok h
  obtain ⟨value, hvalue, h⟩ := except_bind_ok h
  obtain ⟨fields, rfl, -⟩ := Json.getKey_ok hvalue
  exact ⟨fields, (Prod.mk.inj (Except.ok.inj h)).2.symm⟩

/-- The formatter of a completed analysis. -/
theorem formatStats_escapes {analysisId : String} {stats : Json} :
    Escapes PyErr.virustotalCatches (formatVirustotalResult stats.orEmpty analysisId) ↔
      stats.NoMapping ∨ ∃ fields, stats = .obj fields ∧ JsonObject.Overflows fields verdictKeys := by
  by_cases hno : stats.NoMapping
  · refine iff_of_true ?_ (.inl hno)
    obtain ⟨e, he, huncaught⟩ := (Json.orEmpty_escapes "malicious").mpr hno
    refine ⟨e, ?_, huncaught⟩
    unfold formatVirustotalResult Json.counter
    rw [he]
    rfl
  · rw [or_iff_right hno]
    rw [Json.NoMapping, not_and] at hno
    cases htruthy : stats.truthy with
    | true =>
      have hobj : ∃ fields, stats = .obj fields := by
        by_contra hc
        exact hno htruthy fun fields hf => hc ⟨fields, hf⟩
      obtain ⟨fields, rfl⟩ := hobj
      rw [Json.orEmpty, if_pos htruthy, formatVirustotalResult_escapes]
      simp only [Json.obj.injEq, exists_eq_left']
    | false =>
      rw [Json.orEmpty, if_neg (by simp [htruthy]), formatVirustotalResult_escapes]
      have hnone : ¬ JsonObject.Overflows [] verdictKeys := by
        simp [JsonObject.Overflows, verdictKeys, JsonObject.get]
      refine iff_of_false hnone ?_
      rintro ⟨fields, rfl, h⟩
      have hnil : fields = [] := by simpa [Json.truthy] using htruthy
      subst hnil
      exact hnone h

/-- A poll raises exactly in the cases that `PollEscapes` lists. -/
theorem pollVirustotalAnalysisOnce_raises {analysisId : String} {call : Except PyErr HttpReply} :
    (∃ e, pollVirustotalAnalysisOnce text analysisId call = .error e) ↔ PollEscapes text call := by
  have hask : Escapes PyErr.virustotalCatches (askAnalysis text analysisId call) ↔
      PollEscapes text call := by
    unfold askAnalysis
    rw [escapes_bind, readAnalysis_escapes]
    constructor
    · rintro (h | ⟨⟨status, attributes⟩, hanalysis, h⟩)
      · exact .analysis h
      · obtain ⟨fields, rfl⟩ := readAnalysis_object hanalysis
        dsimp only at h
        split at h
        · rename_i hstatus
          subst hstatus
          rcases escapes_bind.mp h with h | ⟨value, hvalue, h⟩
          · exact absurd rfl (Json.getKey_escapes.mp h fields)
          · cases hvalue
            cases hstats : JsonObject.get fields "stats" with
            | none =>
              rw [hstats] at h
              rcases formatStats_escapes.mp h with ⟨hc, -⟩ | ⟨_, hc, -⟩
              · cases hc
              · cases hc
            | some stats =>
              rw [hstats] at h
              rcases formatStats_escapes.mp h with hno | ⟨inner, hinner, hover⟩
              · exact .shape hanalysis hstats hno
              · rw [Option.getD_some] at hinner
                subst hinner
                exact .statistics hanalysis hstats hover
        · exact absurd h not_escapes_pure
    · intro h
      cases h with
      | analysis h => exact .inl h
      | shape hanalysis hstats hno =>
        right
        refine ⟨_, hanalysis, ?_⟩
        dsimp only
        rw [if_pos rfl]
        refine escapes_bind.mpr (.inr ⟨_, rfl, ?_⟩)
        rw [hstats]
        exact formatStats_escapes.mpr (.inl hno)
      | statistics hanalysis hstats hover =>
        right
        refine ⟨_, hanalysis, ?_⟩
        dsimp only
        rw [if_pos rfl]
        refine escapes_bind.mpr (.inr ⟨_, rfl, ?_⟩)
        rw [hstats]
        exact formatStats_escapes.mpr (.inr ⟨_, rfl, hover⟩)
  rw [← hask]
  unfold pollVirustotalAnalysisOnce
  apply escapes_iff_handled (fun _ => virustotalFailure_caught) (fun _ => virustotalFailure_uncaught)
  · intro o ho
    rw [ho]
    exact ⟨o, rfl⟩
  · intro e he
    rw [he]

def ZipInfo.reviewError (text : PyText) (info : ZipInfo) : Option PyErr :=
  if shouldInclude text info.filename then
    match info.data with
    | .ok _ => none
    | .error e => if e.isA [.runtimeError] then none else some e
  else none

theorem addFile_error {s : LlmSections} {info : ZipInfo} {e : PyErr}
    (h : info.reviewError text = some e) : s.addFile text info = .error e := by
  unfold ZipInfo.reviewError at h
  unfold LlmSections.addFile
  split at h
  · rename_i hselected
    rw [if_neg (by simp [hselected])]
    cases hdata : info.data with
    | ok raw =>
      rw [hdata] at h
      cases h
    | error e' =>
      rw [hdata] at h
      dsimp only at h ⊢
      split at h
      · cases h
      · rename_i hother
        cases h
        rw [if_neg hother]
  · cases h

theorem addFile_total {s : LlmSections} {info : ZipInfo} (h : info.reviewError text = none) :
    ∃ t, s.addFile text info = .ok t := by
  unfold ZipInfo.reviewError at h
  unfold LlmSections.addFile
  split at h
  · rename_i hselected
    rw [if_neg (by simp [hselected])]
    cases hdata : info.data with
    | ok raw => exact ⟨_, rfl⟩
    | error e =>
      rw [hdata] at h
      dsimp only at h ⊢
      split at h
      · rename_i hruntime
        rw [if_pos hruntime]
        exact ⟨_, rfl⟩
      · cases h
  · rename_i hother
    rw [if_pos (by simpa using hother)]
    exact ⟨_, rfl⟩

/-- Snippets are taken from members that the review has read before. -/
theorem snippets_total {infos : List ZipInfo}
    (h : infos.findSome? (ZipInfo.reviewError text) = none) (snippets : List String) :
    ∃ found, collectSuspiciousSnippets text infos snippets = .ok found := by
  induction infos generalizing snippets with
  | nil => exact ⟨snippets, rfl⟩
  | cons info infos ih =>
    obtain ⟨hinfo, hinfos⟩ := List.findSome?_eq_none_iff.mp h |> List.forall_mem_cons.mp
    have hrest := ih (List.findSome?_eq_none_iff.mpr hinfos)
    rw [collectSuspiciousSnippets]
    split
    · exact ⟨snippets, rfl⟩
    · split
      · exact hrest snippets
      · rename_i hsuffix
        have hselected : shouldInclude text info.filename = true := by
          have hmem : llmRelevantSuffixes.contains (text.lower (posixSuffix info.filename)) =
              true := by
            simpa using hsuffix
          rw [shouldInclude, hmem, Bool.or_true, Bool.true_or]
        rw [ZipInfo.reviewError, if_pos hselected] at hinfo
        cases hdata : info.data with
        | ok raw =>
          dsimp only
          split
          · exact hrest snippets
          · exact hrest _
        | error e =>
          rw [hdata] at hinfo
          dsimp only at hinfo ⊢
          split at hinfo
          · rename_i hruntime
            rw [if_pos hruntime]
            exact hrest snippets
          · cases hinfo

theorem except_bind_error {α β : Type} {x : Except PyErr α} {f : α → Except PyErr β} {e : PyErr}
    (h : x = .error e) : (x >>= f) = .error e := by
  rw [h]
  rfl

theorem addFiles_error {infos : List ZipInfo} {s : LlmSections} {e : PyErr} :
    infos.foldlM (LlmSections.addFile text) s = .error e ↔
      infos.findSome? (ZipInfo.reviewError text) = some e := by
  apply foldlM_error_iff
  · intro s info e h
    exact addFile_error h
  · intro s info h
    exact addFile_total h

theorem llmSections_error {archiveName : String} {archive : ZipArchive} {e : PyErr} :
    llmSections text archiveName archive = .error e ↔
      archive.files.findSome? (ZipInfo.reviewError text) = some e := by
  rw [← addFiles_error (s := ⟨["Archive: " ++ archiveName,
    "Total files: " ++ toString archive.files.length], 0, 0⟩)]
  cases hfiles : archive.files.foldlM (LlmSections.addFile text)
    ⟨["Archive: " ++ archiveName, "Total files: " ++ toString archive.files.length], 0, 0⟩ with
  | error e' =>
    have hleft : llmSections text archiveName archive = .error e' := except_bind_error hfiles
    rw [hleft, Except.error.injEq, Except.error.injEq]
  | ok files =>
    have hnone : archive.files.findSome? (ZipInfo.reviewError text) = none := by
      cases hfirst : archive.files.findSome? (ZipInfo.reviewError text) with
      | none => rfl
      | some e' =>
        rw [addFiles_error.mpr hfirst] at hfiles
        cases hfiles
    obtain ⟨found, hfound⟩ := snippets_total hnone []
    have hleft : ∃ sections, llmSections text archiveName archive = .ok sections :=
      ⟨_, (except_bind_eq hfiles).trans (except_bind_eq hfound)⟩
    obtain ⟨sections, hleft⟩ := hleft
    rw [hleft]
    exact iff_of_false (fun h => by cases h) (fun h => by cases h)

theorem llmSections_total (archiveName : String) {archive : ZipArchive}
    (h : archive.files.findSome? (ZipInfo.reviewError text) = none) :
    ∃ sections, llmSections text archiveName archive = .ok sections := by
  cases hs : llmSections text archiveName archive with
  | ok sections => exact ⟨sections, rfl⟩
  | error e =>
    rw [llmSections_error.mp hs] at h
    cases h

/-- Building the context fails on the first selected member that cannot be read. -/
theorem buildLlmContext_escapes {archiveName : String} {archive : ZipArchive} {maxChars : Int} :
    Escapes PyErr.llmCatches (buildLlmContext text archiveName archive maxChars) ↔
      (∃ e, archive.files.findSome? (ZipInfo.reviewError text) = some e ∧ e.llmCatches = false) ∨
        archive.files.findSome? (ZipInfo.reviewError text) = none ∧
          maxSize < (archive.reviewText text archiveName).length := by
  unfold buildLlmContext
  dsimp only
  rw [escapes_bind]
  refine or_congr (exists_congr fun e => and_congr_left fun _ => llmSections_error) ?_
  constructor
  · rintro ⟨sections, hsections, h⟩
    have hnone : archive.files.findSome? (ZipInfo.reviewError text) = none := by
      cases hfirst : archive.files.findSome? (ZipInfo.reviewError text) with
      | none => rfl
      | some e =>
        rw [llmSections_error.mpr hfirst] at hsections
        cases hsections
    refine ⟨hnone, ?_⟩
    rcases escapes_bind.mp h with ⟨e, he, -⟩ | ⟨joined, -, h⟩
    · unfold joinText at he
      dsimp only at he
      split at he
      · rename_i hlong
        rwa [llmSections_text hsections] at hlong
      · cases he
    · split at h
      · exact absurd h not_escapes_pure
      · exact absurd h not_escapes_pure
  · rintro ⟨hnone, hlong⟩
    obtain ⟨sections, hsections⟩ := llmSections_total archiveName hnone
    refine ⟨sections, hsections, escapes_bind.mpr (.inl ?_)⟩
    refine ⟨⟨.overflowError, "join() result is too long for a Python string", 0⟩, ?_, rfl⟩
    rw [joinText, llmSections_text hsections]
    exact if_pos hlong

def LlmClient.chat (client : LlmClient) (text : PyText) (context : String) (truncated : Bool)
    (config : LlmAgentConfig) : Except PyErr Json :=
  client.post (rstripBy (· = '/') config.baseUrl ++ "/chat/completions") config.apiKey config.model
    ("Context truncated: " ++ (Json.bool truncated).toStr text ++
      ". If truncated, mention that confidence is limited.\n\n" ++ context)

def Json.NoFirst (value : Json) : Prop :=
  value = .arr [] ∨ value = .str ""

theorem itemLlm_escapes {key : String} {value : Json} :
    ¬ Escapes PyErr.llmCatches (value.item key) := by
  cases value with
  | obj fields =>
    rw [Json.item]
    split
    · exact not_escapes_ok
    · exact fun h => absurd (escapes_error.mp h) (by simp [PyErr.llmCatches, PyErr.isA])
  | _ => exact fun h => absurd (escapes_error.mp h) (by simp [PyErr.llmCatches, PyErr.isA])

theorem first_escapes {value : Json} :
    Escapes PyErr.llmCatches value.first ↔ value.NoFirst := by
  cases value with
  | arr items =>
    cases items with
    | nil => exact iff_of_true (escapes_error.mpr rfl) (.inl rfl)
    | cons item items => exact iff_of_false not_escapes_ok (by simp [Json.NoFirst])
  | str s =>
    rw [Json.first]
    cases hs : s.toList with
    | nil =>
      have hempty : s = "" := String.toList_injective hs
      exact iff_of_true (escapes_error.mpr rfl) (.inr (congrArg Json.str hempty))
    | cons c chars =>
      refine iff_of_false not_escapes_ok ?_
      rintro (h | h)
      · cases h
      · cases h
        cases hs
  | _ =>
    refine iff_of_false (fun h => absurd (escapes_error.mp h)
      (by simp [PyErr.llmCatches, PyErr.isA])) ?_
    rintro (h | h)
    · cases h
    · cases h

theorem item_some {key : String} {value found : Json} :
    value.item key = .ok found ↔ ∃ fields, value = .obj fields ∧
      JsonObject.get fields key = some found := by
  cases value with
  | obj fields =>
    simp only [Json.item, Json.obj.injEq, exists_eq_left']
    cases JsonObject.get fields key <;> simp
  | _ => simp [Json.item]

/-- Only a missing first choice escapes from an answer. -/
theorem callLlmAgent_escapes {client : LlmClient} {context : String} {truncated : Bool}
    {config : LlmAgentConfig} :
    Escapes PyErr.llmCatches (callLlmAgent text client context truncated config) ↔
      Escapes PyErr.llmCatches (client.chat text context truncated config) ∨
        ∃ fields choices, client.chat text context truncated config = .ok (.obj fields) ∧
          JsonObject.get fields "choices" = some choices ∧ choices.NoFirst := by
  have hread : callLlmAgent text client context truncated config =
      (client.chat text context truncated config >>= fun data => data.item "choices" >>=
        fun choices => choices.first >>= fun choice => choice.item "message" >>= fun message =>
          message.item "content" >>= fun content => pure (content.toStr text)) := rfl
  rw [hread, escapes_bind]
  refine or_congr Iff.rfl ?_
  constructor
  · rintro ⟨data, hdata, h⟩
    rcases escapes_bind.mp h with h | ⟨choices, hchoices, h⟩
    · exact absurd h itemLlm_escapes
    · obtain ⟨fields, hobj, hget⟩ := item_some.mp hchoices
      refine ⟨fields, choices, hdata.trans (congrArg Except.ok hobj), hget, ?_⟩
      rcases escapes_bind.mp h with h | ⟨choice, -, h⟩
      · exact first_escapes.mp h
      · rcases escapes_bind.mp h with h | ⟨message, -, h⟩
        · exact absurd h itemLlm_escapes
        · rcases escapes_bind.mp h with h | ⟨content, -, h⟩
          · exact absurd h itemLlm_escapes
          · exact absurd h not_escapes_pure
  · rintro ⟨fields, choices, hdata, hget, hno⟩
    refine ⟨.obj fields, hdata, escapes_bind.mpr (.inr ⟨choices, ?_, ?_⟩)⟩
    · exact item_some.mpr ⟨fields, rfl, hget⟩
    · exact escapes_bind.mpr (.inl (first_escapes.mpr hno))

theorem valueError_caught (s : String) : (valueError s).llmCatches = true := rfl

/-- Whatever is wrong with the object of an answer is reported, unless `loads` raises
something else than a `ValueError`. -/
theorem parseLlmResponse_escapes {client : LlmClient} {raw : String} :
    Escapes PyErr.llmCatches (parseLlmResponse client raw) ↔
      ∃ object, extractJsonObject raw = .ok object ∧
        Escapes PyErr.llmCatches (client.loads object) := by
  unfold parseLlmResponse
  rw [escapes_bind, or_iff_right]
  · refine exists_congr fun object => and_congr_right fun _ => ?_
    rw [escapes_bind, or_iff_left]
    rintro ⟨value, -, h⟩
    split at h
    · split at h
      · exact not_escapes_pure h
      · exact absurd (escapes_error.mp h) (by rw [valueError_caught]; decide)
    · exact absurd (escapes_error.mp h) (by rw [valueError_caught]; decide)
  · rintro ⟨e, he, hno⟩
    unfold extractJsonObject at he
    dsimp only at he
    split at he
    · cases he
    · split at he
      · cases he
        exact absurd hno (by rw [valueError_caught]; decide)
      · split at he
        · cases he
        · cases he
          exact absurd hno (by rw [valueError_caught]; decide)

inductive ReviewEscapes (text : PyText) (client : LlmClient) (archiveName : String)
    (artifact : Except PyErr ZipArchive) (config : LlmAgentConfig) : Prop
  | artifact {e : PyErr} (hartifact : artifact = .error e) (h : e.llmCatches = false) :
    ReviewEscapes text client archiveName artifact config
  | member {archive : ZipArchive} {e : PyErr} (hartifact : artifact = .ok archive)
      (hmember : archive.files.findSome? (ZipInfo.reviewError text) = some e)
      (h : e.llmCatches = false) : ReviewEscapes text client archiveName artifact config
  | length {archive : ZipArchive} (hartifact : artifact = .ok archive)
      (hread : archive.files.findSome? (ZipInfo.reviewError text) = none)
      (h : maxSize < (archive.reviewText text archiveName).length) :
    ReviewEscapes text client archiveName artifact config
  | request {archive : ZipArchive} {context : String} {truncated : Bool} {e : PyErr}
      (hartifact : artifact = .ok archive)
      (hcontext : buildLlmContext text archiveName archive config.maxContextChars =
        .ok (context, truncated))
      (hchat : client.chat text context truncated config = .error e) (h : e.llmCatches = false) :
    ReviewEscapes text client archiveName artifact config
  | choices {archive : ZipArchive} {context : String} {truncated : Bool} {fields : JsonObject}
      {choices : Json} (hartifact : artifact = .ok archive)
      (hcontext : buildLlmContext text archiveName archive config.maxContextChars =
        .ok (context, truncated))
      (hchat : client.chat text context truncated config = .ok (.obj fields))
      (hchoices : JsonObject.get fields "choices" = some choices) (h : choices.NoFirst) :
    ReviewEscapes text client archiveName artifact config
  | answer {archive : ZipArchive} {context response object : String} {truncated : Bool} {e : PyErr}
      (hartifact : artifact = .ok archive)
      (hcontext : buildLlmContext text archiveName archive config.maxContextChars =
        .ok (context, truncated))
      (hcall : callLlmAgent text client context truncated config = .ok response)
      (hobject : extractJsonObject response = .ok object) (hloads : client.loads object = .error e)
      (h : e.llmCatches = false) : ReviewEscapes text client archiveName artifact config

theorem reviewArtifact_escapes {client : LlmClient} {archiveName : String}
    {artifact : Except PyErr ZipArchive} {config : LlmAgentConfig} :
    Escapes PyErr.llmCatches (reviewArtifact text client archiveName artifact config) ↔
      ReviewEscapes text client archiveName artifact config := by
  unfold reviewArtifact
  rw [escapes_bind]
  constructor
  · rintro (⟨e, he, hno⟩ | ⟨archive, hartifact, h⟩)
    · exact .artifact he hno
    · rcases escapes_bind.mp h with h | ⟨⟨context, truncated⟩, hcontext, h⟩
      · rcases buildLlmContext_escapes.mp h with ⟨e, hmember, hno⟩ | ⟨hread, hlong⟩
        · exact .member hartifact hmember hno
        · exact .length hartifact hread hlong
      · rcases escapes_bind.mp h with h | ⟨response, hcall, h⟩
        · rcases callLlmAgent_escapes.mp h with
            ⟨e, hchat, hno⟩ | ⟨fields, choices, hchat, hchoices, hno⟩
          · exact .request hartifact hcontext hchat hno
          · exact .choices hartifact hcontext hchat hchoices hno
        · rcases escapes_bind.mp h with h | ⟨result, -, h⟩
          · obtain ⟨object, hobject, e, hloads, hno⟩ := parseLlmResponse_escapes.mp h
            exact .answer hartifact hcontext hcall hobject hloads hno
          · exact absurd h not_escapes_pure
  · intro h
    cases h with
    | artifact hartifact hno => exact .inl ⟨_, hartifact, hno⟩
    | member hartifact hmember hno =>
      exact .inr ⟨_, hartifact, escapes_bind.mpr (.inl
        (buildLlmContext_escapes.mpr (.inl ⟨_, hmember, hno⟩)))⟩
    | length hartifact hread hlong =>
      exact .inr ⟨_, hartifact, escapes_bind.mpr (.inl
        (buildLlmContext_escapes.mpr (.inr ⟨hread, hlong⟩)))⟩
    | request hartifact hcontext hchat hno =>
      refine .inr ⟨_, hartifact, escapes_bind.mpr (.inr ⟨_, hcontext, escapes_bind.mpr (.inl ?_)⟩)⟩
      exact callLlmAgent_escapes.mpr (.inl ⟨_, hchat, hno⟩)
    | choices hartifact hcontext hchat hchoices hno =>
      refine .inr ⟨_, hartifact, escapes_bind.mpr (.inr ⟨_, hcontext, escapes_bind.mpr (.inl ?_)⟩)⟩
      exact callLlmAgent_escapes.mpr (.inr ⟨_, _, hchat, hchoices, hno⟩)
    | answer hartifact hcontext hcall hobject hloads hno =>
      refine .inr ⟨_, hartifact, escapes_bind.mpr (.inr ⟨_, hcontext, escapes_bind.mpr (.inr
        ⟨_, hcall, escapes_bind.mpr (.inl ?_)⟩)⟩)⟩
      exact parseLlmResponse_escapes.mpr ⟨_, hobject, _, hloads, hno⟩

theorem scanLlm_raises {client : LlmClient} {archiveName : String}
    {artifact : Except PyErr ZipArchive} {config : LlmAgentConfig} :
    (∃ e, scanLlm text client archiveName artifact config = .error e) ↔
      ReviewEscapes text client archiveName artifact config := by
  rw [← reviewArtifact_escapes]
  unfold scanLlm
  cases reviewArtifact text client archiveName artifact config with
  | ok found =>
    refine iff_of_false ?_ not_escapes_ok
    rintro ⟨e, he⟩
    cases he
  | error e =>
    rw [escapes_error]
    dsimp only
    cases hcaught : e.llmCatches with
    | true =>
      obtain ⟨o, ho⟩ := llmFailure_caught hcaught
      rw [ho]
      simp
    | false =>
      rw [llmFailure_uncaught hcaught]
      simp

def ScannerCalls.LetsThrough (calls : ScannerCalls) (text : PyText) (cfg : RuntimeConfig)
    (s3Key : Option String) : Provider → Prop
  | .clamav =>
    ∃ size, artifactRead s3Key (calls.localPath.map (·.file.size))
        ((calls.download .clamav).map (·.file.size)) = some size ∧
      ((size : Nat) : Int) ≤ cfg.clamav.streamLimit ∧
        ∃ failure, calls.clamd = .error failure ∧ failure.error.clamavCatches = false
  | .virustotal =>
    ∃ file, artifactRead s3Key (calls.localPath.map (·.file))
        ((calls.download .virustotal).map (·.file)) = some file ∧
      cfg.virustotal.Accepts file ∧ calls.virustotalCalls.ScanEscapes text
  | .llmAgent =>
    ∃ artifact, artifactRead s3Key calls.localPath (calls.download .llmAgent) = some artifact ∧
      ReviewEscapes text calls.client artifact.name artifact.archive cfg.llmAgent

theorem scanClamavForVersion_eq {config : ClamavConfig} {s3Key : Option String}
    {localSize : Option Nat} {download : Except PyErr Nat} {reply : Except SocketError String} :
    scanClamavForVersion config s3Key localSize download reply =
      forVersion s3Key localSize download
        { passed := some false
          message := "ClamAV scan failed: version artifact is missing"
          mode := .error }
        (fun e =>
          { passed := some false
            message := "ClamAV scan failed: could not download artifact: " ++ e.text
            mode := .error })
        fun size => scanClamav config size reply := by
  unfold scanClamavForVersion forVersion
  cases localSize <;> cases download <;> rfl

theorem scanVirustotalForVersion_eq {now : Time} {s3Key : Option String}
    {localFile : Option ScannedFile} :
    scanVirustotalForVersion text now config s3Key localFile calls =
      forVersion s3Key localFile calls.download
        { passed := some false
          message := "VirusTotal scan failed: version artifact is missing"
          mode := .error }
        (fun e =>
          { passed := some false
            message := "VirusTotal scan failed: could not download artifact: " ++ e.text
            mode := .error })
        fun file => scanVirustotal text now config file calls := by
  unfold scanVirustotalForVersion forVersion
  cases localFile <;> cases calls.download <;> rfl

theorem scanLlmForVersion_eq {client : LlmClient} {s3Key : Option String}
    {localPath : Option ScannedArtifact} {download : Except PyErr ScannedArtifact}
    {config : LlmAgentConfig} :
    scanLlmForVersion text client s3Key localPath download config =
      forVersion s3Key localPath download
        { passed := some false
          message := "LLM scan failed: version artifact is missing"
          mode := .error }
        (fun e =>
          { passed := some false
            message := "LLM scan failed: could not download artifact: " ++ e.text
            mode := .error })
        fun artifact => scanLlm text client artifact.name artifact.archive config := by
  unfold scanLlmForVersion forVersion
  cases localPath <;> cases download <;> rfl

theorem scanProvider_raises (now : Time) {cfg : RuntimeConfig} {s3Key : Option String}
    {calls : ScannerCalls} (p : Provider) :
    (∃ e, scanProvider text now cfg s3Key calls p = .error e) ↔
      calls.LetsThrough text cfg s3Key p := by
  cases p with
  | clamav =>
    rw [scanProvider, scanClamavForVersion_eq, forVersion_raises, ScannerCalls.LetsThrough]
    refine exists_congr fun size => and_congr_right fun _ => ?_
    rw [scanClamav_raises]
    refine and_congr_right fun _ => exists_congr fun failure => and_congr_left fun _ => ?_
    unfold clamavInstream
    cases calls.clamd with
    | ok segments => exact iff_of_false (fun h => by cases h) (fun h => by cases h)
    | error e => exact Iff.of_eq (by rw [Except.map, Except.error.injEq, Except.error.injEq])
  | virustotal =>
    rw [scanProvider, scanVirustotalForVersion_eq, forVersion_raises, ScannerCalls.LetsThrough]
    exact exists_congr fun file => and_congr_right fun _ => scanVirustotal_raises
  | llmAgent =>
    rw [scanProvider, scanLlmForVersion_eq, forVersion_raises, ScannerCalls.LetsThrough]
    exact exists_congr fun artifact => and_congr_right fun _ => scanLlm_raises

/-- The answers on which a scan or a poll lets an exception through. -/
theorem odd_answers_escape_iff (text : PyText) (now : Time) (cfg : RuntimeConfig)
    (s3Key : Option String) (calls : ScannerCalls) :
    (∀ p, (∃ e, scanProvider text now cfg s3Key calls p = .error e) ↔
        calls.LetsThrough text cfg s3Key p) ∧
      ∀ analysisId, (∃ e, pollVirustotalAnalysisOnce text analysisId calls.virustotal.analysis =
          .error e) ↔ PollEscapes text calls.virustotal.analysis :=
  ⟨scanProvider_raises now, fun _ => pollVirustotalAnalysisOnce_raises⟩

end PluginRegistry
