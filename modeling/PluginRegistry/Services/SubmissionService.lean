import PluginRegistry.Lib.Machine
import PluginRegistry.Models

namespace PluginRegistry
open Lib

inductive SubmissionStatus
  | pendingReview | accepted | rejected | duplicate
  deriving DecidableEq, Repr

inductive RefType
  | default | branch | tag | commit
  deriving DecidableEq, Repr

/-- A row of `plugin_submission_requests`. -/
structure Submission where
  repoUrl : String
  refType : RefType
  ref : Option String
  status : SubmissionStatus
  adminMessage : Option String
  acceptedBy : Option Nat
  acceptedAt : Option Time

inductive Verdict
  | accept | reject | duplicate
  deriving DecidableEq, Repr

def Verdict.status : Verdict → SubmissionStatus
  | .accept => .accepted
  | .reject => .rejected
  | .duplicate => .duplicate

structure DecisionRequest where
  submissionId : Nat
  verdict : Verdict
  adminMessage : Option String
  userId : Nat

/-- The payload of a `submit` task. -/
structure SubmitPayload where
  repoUrl : String
  ref : Option String
  changelog : String
  userId : Nat

def Submission.submitPayload (row : Submission) (request : DecisionRequest) : SubmitPayload where
  repoUrl := row.repoUrl
  ref := if row.refType = .default then none else row.ref
  changelog := request.adminMessage.getD ""
  userId := request.userId

/-- The columns `mark_submission_decision` changes on the row it has loaded;
the others keep what is stored. -/
def Submission.decided (stored loaded : Submission) (request : DecisionRequest) (now : Time) :
    Submission :=
  let row :=
    { stored with
      status := request.verdict.status
      adminMessage :=
        if request.adminMessage = loaded.adminMessage then stored.adminMessage
        else request.adminMessage }
  if request.verdict = .accept then
    { row with acceptedBy := some request.userId, acceptedAt := some now }
  else row

inductive DecisionStage
  | started
  | read (row : Submission)
  | committed
  | refreshed (row : Submission)
  | done
  | notFound
  | refused
  | failed

structure DecisionCall where
  request : DecisionRequest
  stage : DecisionStage

inductive DecisionSite
  | get | commit | refresh | enqueue
  deriving DecidableEq, Repr

structure DecisionEnv where
  now : Time
  fault : DecisionSite → Bool

structure Decision where
  callId : Nat
  submissionId : Nat
  verdict : Verdict
  deriving DecidableEq

/-- A `submit` task handed to the queue, or to the background tasks of the
response where there is no Redis. -/
structure SubmitTask where
  callId : Nat
  submissionId : Nat
  payload : SubmitPayload

/-- The stored submissions and the requests, with a record of every decision
committed and every task enqueued. -/
structure SubmissionState where
  submissions : Table Nat Submission
  calls : Table Nat DecisionCall
  decisions : List Decision
  tasks : List SubmitTask

inductive SubmissionEvent
  | create (submissionId : Nat) (repoUrl : String) (refType : RefType) (ref : Option String)
  | call (callId : Nat) (request : DecisionRequest)
  | advance (callId : Nat) (env : DecisionEnv)

namespace SubmissionState

def empty : SubmissionState :=
  ⟨∅, ∅, [], []⟩

def setStage (w : SubmissionState) (callId : Nat) (call : DecisionCall) (stage : DecisionStage) :
    SubmissionState :=
  { w with calls := AList.insert callId { call with stage } w.calls }

/-- `mark_submission_decision` up to its commit: the status it checks is the one
it has read. -/
def markSubmissionDecision (w : SubmissionState) (callId : Nat) (call : DecisionCall)
    (loaded : Submission) (env : DecisionEnv) : SubmissionState :=
  let request := call.request
  if loaded.status ≠ .pendingReview then w.setStage callId call .refused
  else if env.fault .commit then w.setStage callId call .failed
  else match w.submissions.lookup request.submissionId with
    | none => w.setStage callId call .failed
    | some _ =>
      { w with
        submissions := w.submissions.modify request.submissionId fun stored =>
          stored.decided loaded request env.now
        decisions := ⟨callId, request.submissionId, request.verdict⟩ :: w.decisions }.setStage
          callId call .committed

def advance (w : SubmissionState) (callId : Nat) (env : DecisionEnv) : SubmissionState :=
  match w.calls.lookup callId with
  | none => w
  | some call =>
    match call.stage with
    | .started =>
      if env.fault .get then w.setStage callId call .failed
      else match w.submissions.lookup call.request.submissionId with
        | none => w.setStage callId call .notFound
        | some row => w.setStage callId call (.read row)
    | .read loaded => w.markSubmissionDecision callId call loaded env
    | .committed =>
      if env.fault .refresh then w.setStage callId call .failed
      else match w.submissions.lookup call.request.submissionId with
        | none => w.setStage callId call .failed
        | some row =>
          if call.request.verdict = .accept then w.setStage callId call (.refreshed row)
          else w.setStage callId call .done
    | .refreshed row =>
      if env.fault .enqueue then w.setStage callId call .failed
      else
        { w with
          tasks := ⟨callId, call.request.submissionId, row.submitPayload call.request⟩ ::
            w.tasks }.setStage callId call .done
    | .done | .notFound | .refused | .failed => w

def step (w : SubmissionState) : SubmissionEvent → SubmissionState
  | .create submissionId repoUrl refType ref =>
    if (w.submissions.lookup submissionId).isSome then w
    else
      { w with
        submissions := AList.insert submissionId
          ⟨repoUrl, refType, if refType = .default then none else ref, .pendingReview, none, none,
            none⟩ w.submissions }
  | .call callId request =>
    if (w.calls.lookup callId).isSome then w
    else { w with calls := AList.insert callId ⟨request, .started⟩ w.calls }
  | .advance callId env => w.advance callId env

end SubmissionState

def submissionService : Machine SubmissionState SubmissionEvent where
  init := .empty
  step := SubmissionState.step

end PluginRegistry
