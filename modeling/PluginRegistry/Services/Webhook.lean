import PluginRegistry.Python.Sqlalchemy
import PluginRegistry.Service
import PluginRegistry.Services.SubmitService

namespace PluginRegistry
open Lib

/-- A row of `webhook_events`; every event is a push. -/
structure WebhookEvent where
  pluginId : Option PluginId
  payload : Json
  status : String
  errorMessage : Option String

/-- The payload of a `build` task, its changelog and user empty. -/
structure BuildRequest where
  pluginId : PluginId
  version : String
  ref : String

/-- The events that the endpoint commits, the builds that it queues (in Redis, or as
background tasks without it), and its answer. -/
structure WebhookRun where
  events : List WebhookEvent
  builds : List BuildRequest
  answer : Except PyErr String

/-- `value.get` of a value that should be a `dict`. -/
def Json.asDict : Json → Except PyErr JsonObject
  | .obj fields => .ok fields
  | value => .error ⟨.attributeError, "'" ++ value.typeName ++ "' object has no attribute 'get'", 0⟩

/-- `value.replace` of a value that should be a `str`. -/
def Json.asReplaceable : Json → Except PyErr String
  | .str text => .ok text
  | value =>
    .error ⟨.attributeError, "'" ++ value.typeName ++ "' object has no attribute 'replace'", 0⟩

def headRef (ref : String) : String :=
  removeText "refs/heads/" ref

def readPush (payload : Json) : Except PyErr (Json × String) := do
  let fields ← payload.asDict
  let repository ← ((fields.get "repository").getD (.obj [])).asDict
  let ref ← ((fields.get "ref").getD (.str "")).asReplaceable
  return ((repository.get "html_url").getD .null, headRef ref)

def WebhookEvent.record (event : WebhookEvent) (builds : List BuildRequest) (answer : String) :
    WebhookRun :=
  if event.payload.storable then ⟨[event], builds, .ok answer⟩ else ⟨[], [], .error nulError⟩

/-- `github_webhook` once it has read a URL and a branch. -/
def buildPush (plugins : Table PluginId Plugin) (autoVersion : String) (payload : Json)
    (repoUrl ref : String) : WebhookRun :=
  match scalarOneOrNone plugins fun _ plugin => plugin.repoUrl = some repoUrl with
  | .error e => ⟨[], [], .error e⟩
  | .ok none =>
    WebhookEvent.record
      ⟨none, payload, "ignored", some ("repository is not registered: " ++ repoUrl)⟩ [] "ignored"
  | .ok (some (pluginId, _)) =>
    WebhookEvent.record ⟨some pluginId, payload, "success", none⟩
      [⟨pluginId, autoVersion, ref⟩] "queued"

/-- `github_webhook` from an authenticated payload on. The driver takes no other
value for `repo_url` than a text. -/
def githubWebhook (plugins : Table PluginId Plugin) (autoVersion : String) (payload : Json) :
    WebhookRun :=
  match readPush payload with
  | .error e => ⟨[], [], .error e⟩
  | .ok (repoUrl, ref) =>
    if !repoUrl.truthy || ref.isEmpty then
      WebhookEvent.record
        ⟨none, payload, "ignored", some "missing repository html_url or ref"⟩ [] "ignored"
    else
      match repoUrl with
      | .str repoUrl => buildPush plugins autoVersion payload repoUrl ref
      | _ => ⟨[], [], .error ⟨.dataError, "invalid input for query argument", 0⟩⟩

/-- `submit_repo` up to its build, which goes on like any other, or an event of the
service. The upload of a plugin is the creation of one with the repository that its
metadata names, and then of a version. -/
inductive RegistryEvent
  | service (e : Event)
  | submit (settings : GitSettings) (yaml : Yaml) (first : Moment) (request : SubmitRequest)

namespace World

def submit (w : World) (settings : GitSettings) (yaml : Yaml) (first : Moment)
    (request : SubmitRequest) : World :=
  let report := (openSubmission settings yaml first request).perform w.db w.outside
  { w with db := report.db, outside := report.outside }

def registryStep (w : World) : RegistryEvent → World
  | .service e => w.step e
  | .submit settings yaml first request => w.submit settings yaml first request

end World

def registry (config : RuntimeConfig) : Machine World RegistryEvent where
  init := (service config).init
  step := World.registryStep

end PluginRegistry
