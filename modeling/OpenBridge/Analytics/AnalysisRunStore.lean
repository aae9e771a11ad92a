import Mathlib.Data.List.Sort
import OpenBridge.Foundation.Guid
import OpenBridge.Foundation.Machine

/-!
# Analytics: bounded runs and their store

`CplmRecomputeService.StartAsync` and `GetAnalysisRunAsync` over the rows of
`analytics.analysis_run`.  The arguments of the job are left out.
-/

namespace OpenBridge.Analytics

open OpenBridge.Foundation

inductive RunState where
  | created
  | submitted
  | submitFailed
  | finished
  | failed
  | canceled
  | archived
  deriving DecidableEq

/-- The states that `MarkAsync` gives a time of their own, and that are not polled again. -/
def RunState.terminal : RunState → Bool
  | finished => true
  | failed => true
  | canceled => true
  | submitFailed => true
  | _ => false

structure ReconstructionTarget where
  methodRunId : Guid
  gate : String
  windowKind : String
  deriving DecidableEq

structure ReplaySupport where
  source : String
  fromMs : ℤ
  toMs : ℤ
  site : Option String
  deriving DecidableEq

/-- A row of `analytics.analysis_run`. -/
structure AnalysisRun where
  analysisRunId : Guid
  loopId : String
  purpose : String
  state : RunState
  flinkJobId : Option String
  createdBy : Option String
  createdAt : ℤ
  finishedAt : Option ℤ
  error : Option String
  idempotencyKey : Option String
  reconstructs : Option ReconstructionTarget
  deriving DecidableEq

structure CplmRecomputeHandle where
  replayId : String
  jobId : String
  loopId : String
  analysisRunId : Guid
  purpose : String
  deriving DecidableEq

namespace AnalysisRunStore

/-- `!string.IsNullOrWhiteSpace`, of a key or of a job. -/
def isKey (key : Option String) : Bool := key.any fun k => trim k ≠ ""

/-- `analysisRunId.ToString("N")[..12]`. -/
def replayId (id : Guid) : String := String.ofList ((id.text.toList.filter (· ≠ '-')).take 12)

def handleOf (r : AnalysisRun) : CplmRecomputeHandle :=
  { replayId := replayId r.analysisRunId, jobId := r.flinkJobId.getD "", loopId := r.loopId,
    analysisRunId := r.analysisRunId, purpose := r.purpose }

/-- `FindByIdempotencyKeyAsync`. -/
def findByIdempotencyKey (runs : List AnalysisRun) (key : Option String) :
    Option CplmRecomputeHandle :=
  ((runs.filter fun r => r.idempotencyKey = key).insertionSort
    fun a b => b.createdAt ≤ a.createdAt).head?.map handleOf

/-- The columns that `MarkAsync` sets. -/
structure Mark where
  state : RunState
  job : Option String
  error : Option String
  deriving DecidableEq

def Mark.apply (m : Mark) (now : ℤ) (r : AnalysisRun) : AnalysisRun :=
  { r with
    state := m.state
    flinkJobId := m.job.or r.flinkJobId
    error := m.error
    finishedAt := if m.state.terminal then some now else r.finishedAt }

/-- `MarkAsync`. -/
def mark (runs : List AnalysisRun) (id : Guid) (m : Mark) (now : ℤ) : List AnalysisRun :=
  runs.map fun r => if r.analysisRunId = id then m.apply now r else r

end AnalysisRunStore

namespace CplmRecomputeService

open AnalysisRunStore

/-- What `StartAsync` is asked for. -/
structure StartRequest where
  loopId : String
  purpose : String
  createdBy : Option String
  idempotencyKey : Option String
  support : ReplaySupport
  reconstruct : Option ReconstructionTarget
  deriving DecidableEq

namespace StartRequest

def purposeOf (req : StartRequest) : String :=
  if req.purpose ∈ ["REPLAY", "SHADOW", "EVIDENCE_RECONSTRUCTION"] then req.purpose else "REPLAY"

/-- The checks of a request: the message of the `InvalidOperationException`. -/
def refusal (req : StartRequest) : Option String :=
  if req.reconstruct.isSome ∧ req.support.toMs ≤ req.support.fromMs then
    some "A reconstruction needs the method run's support (fromMs < toMs)."
  else if equalsIgnoreCase req.support.source "iotdb" = true ∧
      (req.support.toMs ≤ req.support.fromMs ∨ trim (req.support.site.getD "") = "") then
    some "A historian-backed run needs fromMs < toMs and the loop's site."
  else none

/-- `InsertAsync`. -/
def inserted (req : StartRequest) (id : Guid) (createdAt : ℤ) : AnalysisRun :=
  { analysisRunId := id, loopId := req.loopId, purpose := req.purposeOf, state := .created,
    flinkJobId := none, createdBy := req.createdBy, createdAt := createdAt, finishedAt := none,
    error := none, idempotencyKey := req.idempotencyKey, reconstructs := req.reconstruct }

end StartRequest

/-- How `EnsureJarUploadedAsync` ends. -/
inductive UploadOutcome where
  | jar
  /-- an `HttpRequestException`, a cancellation or a timeout -/
  | incomplete (message : String)
  /-- any other exception: the jar is not mounted, or no file name comes back -/
  | exception (message : String)
  deriving DecidableEq

/-- How `POST /jars/{id}/run` ends. -/
inductive SubmitOutcome where
  /-- a success with the `jobid` of its body -/
  | accepted (jobId : Option String)
  /-- a success whose body cannot be read -/
  | unreadable (message : String)
  /-- another status, with what `Trim` leaves of the body -/
  | refused (status : ℕ) (body : String)
  /-- an `HttpRequestException`, a cancellation or a timeout; Flink may have started the job -/
  | incomplete (jobStarted : Bool) (message : String)
  deriving DecidableEq

def SubmitOutcome.jobStarted : SubmitOutcome → Bool
  | accepted _ => true
  | unreadable _ => true
  | refused _ _ => false
  | incomplete started _ => started

abbrev Answer := Except String CplmRecomputeHandle

inductive Progress where
  | looking
  | inserting
  | uploading
  | submitting
  | marking (mark : Mark) (answer : Answer)
  | answered (answer : Answer)

structure Request where
  request : StartRequest
  run : Option Guid
  progress : Progress

structure Submission where
  analysisRunId : Guid
  idempotencyKey : Option String
  jobStarted : Bool
  deriving DecidableEq

inductive PollProgress where
  /-- it read a run with a job, in a state that is not terminal -/
  | asking
  | marking (state : RunState)
  | answered (state : Option RunState) (jobState : Option String)
  deriving DecidableEq

/-- A call of `GetAnalysisRunAsync`. -/
structure Poll where
  analysisRunId : Guid
  progress : PollProgress
  read : Option RunState
  jobState : Option String
  deriving DecidableEq

structure AnalysisRuns where
  runs : List AnalysisRun
  submissions : List Submission := []
  requests : List Request := []
  polls : List Poll := []

/-- How `GET /jobs/{id}` ends. -/
inductive JobResponse where
  | ok (state : Option String)
  | notFound
  /-- another status, or an exception -/
  | unknown
  deriving DecidableEq

/-- The state that `GetStatusAsync` reports. -/
def JobResponse.state : JobResponse → String
  | ok state => state.getD "UNKNOWN"
  | notFound => "ARCHIVED"
  | unknown => "UNKNOWN"

def finishedAs (state : String) : Option RunState :=
  if state = "FINISHED" then some .finished
  else if state = "FAILED" then some .failed
  else if state = "CANCELED" then some .canceled
  else if state = "ARCHIVED" then some .archived
  else none

def settledAs (state : RunState) (gateResults : ℕ) : RunState :=
  if state = .finished ∨ (state = .archived ∧ 0 < gateResults) then .finished else state

inductive Event where
  | start (request : StartRequest)
  | find (k : ℕ)
  | insert (k : ℕ) (id : Guid) (createdAt : ℤ)
  | upload (k : ℕ) (outcome : UploadOutcome)
  | submit (k : ℕ) (outcome : SubmitOutcome)
  | mark (k : ℕ) (now : ℤ)
  | poll (id : Guid)
  | ask (k : ℕ) (response : JobResponse) (gateResults : ℕ)
  | markPolled (k : ℕ) (now : ℤ)

def begin (req : StartRequest) : Progress :=
  match req.refusal with
  | some message => .answered (.error message)
  | none => if isKey req.idempotencyKey = true then .looking else .inserting

def find (runs : List AnalysisRun) (request : StartRequest) : Progress :=
  match findByIdempotencyKey runs request.idempotencyKey with
  | some handle => .answered (.ok handle)
  | none => .inserting

def upload : UploadOutcome → Progress
  | .jar => .submitting
  | .incomplete message => .marking ⟨.submitFailed, none, some ("jar upload: " ++ message)⟩
      (.error ("The Flink jar upload did not complete: " ++ message))
  | .exception message => .answered (.error message)

def submit (request : StartRequest) (id : Guid) : SubmitOutcome → Progress
  | .accepted jobId =>
      if isKey jobId = true then
        .marking ⟨.submitted, jobId, none⟩
          (.ok ⟨replayId id, jobId.getD "", request.loopId, id, request.purposeOf⟩)
      else .answered (.error "Flink accepted the run but returned no jobid.")
  | .unreadable message => .answered (.error message)
  | .refused status body => .marking ⟨.submitFailed, none, some body⟩
      (.error ("Flink rejected the recompute submission (" ++ toString status ++ "): " ++ body))
  | .incomplete _ message => .marking ⟨.submitFailed, none, some message⟩
      (.error ("Flink did not accept the submission in time: " ++ message))

def pollOf (runs : List AnalysisRun) (id : Guid) : Poll :=
  match runs.find? fun r => r.analysisRunId = id with
  | none => ⟨id, .answered none none, none, none⟩
  | some r =>
      if r.flinkJobId.isSome = true ∧ r.state.terminal = false then
        ⟨id, .asking, some r.state, none⟩
      else ⟨id, .answered (some r.state) none, some r.state, none⟩

def asked (p : Poll) (response : JobResponse) (gateResults : ℕ) : PollProgress :=
  match finishedAs response.state with
  | some state => .marking (settledAs state gateResults)
  | none => .answered p.read (some response.state)

/-- One step. -/
def step (s : AnalysisRuns) : Event → AnalysisRuns × List Empty
  | .start request =>
      ({ s with requests := s.requests ++ [⟨request, none, begin request⟩] }, [])
  | .find k =>
      match s.requests[k]? with
      | some ⟨request, none, .looking⟩ =>
          ({ s with requests := s.requests.set k ⟨request, none, find s.runs request⟩ }, [])
      | _ => (s, [])
  | .insert k id createdAt =>
      match s.requests[k]? with
      | some ⟨request, none, .inserting⟩ =>
          if id ∈ s.runs.map AnalysisRun.analysisRunId then
            ({ s with requests := s.requests.set k ⟨request, none, .answered (.error "23505")⟩ }, [])
          else
            ({ s with
              runs := s.runs ++ [request.inserted id createdAt]
              requests := s.requests.set k ⟨request, some id, .uploading⟩ }, [])
      | _ => (s, [])
  | .upload k outcome =>
      match s.requests[k]? with
      | some ⟨request, some id, .uploading⟩ =>
          ({ s with requests := s.requests.set k ⟨request, some id, upload outcome⟩ }, [])
      | _ => (s, [])
  | .submit k outcome =>
      match s.requests[k]? with
      | some ⟨request, some id, .submitting⟩ =>
          ({ s with
            submissions := s.submissions ++ [⟨id, request.idempotencyKey, outcome.jobStarted⟩]
            requests := s.requests.set k ⟨request, some id, submit request id outcome⟩ }, [])
      | _ => (s, [])
  | .mark k now =>
      match s.requests[k]? with
      | some ⟨request, some id, .marking m answer⟩ =>
          ({ s with
            runs := mark s.runs id m now
            requests := s.requests.set k ⟨request, some id, .answered answer⟩ }, [])
      | _ => (s, [])
  | .poll id => ({ s with polls := s.polls ++ [pollOf s.runs id] }, [])
  | .ask k response gateResults =>
      match s.polls[k]? with
      | some ⟨id, .asking, read, _⟩ =>
          ({ s with
            polls := s.polls.set k ⟨id, asked ⟨id, .asking, read, none⟩ response gateResults, read,
              some response.state⟩ }, [])
      | _ => (s, [])
  | .markPolled k now =>
      match s.polls[k]? with
      | some ⟨id, .marking state, read, jobState⟩ =>
          ({ s with
            runs := mark s.runs id ⟨state, none, none⟩ now
            polls := s.polls.set k ⟨id, .answered (some state) jobState, read, jobState⟩ }, [])
      | _ => (s, [])

def after (s : AnalysisRuns) (run : List Event) : AnalysisRuns := Machine.stateAfter step s run

end CplmRecomputeService

end OpenBridge.Analytics
