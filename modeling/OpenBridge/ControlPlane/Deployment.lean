import OpenBridge.Foundation.Decimal
import OpenBridge.Foundation.Machine

/-!
# Control plane: the deployment of a configuration bundle

`ConfigDeploymentService` drives one deployment: `PREPARE` is broadcast (`PREPARING`), the workers
answer, `APPLY` is broadcast (`APPLYING`), the workers answer again, and the deployment is probed
(`PROBING`) until it is `ACTIVE_VERIFIED`.  It is evaluated after every recorded answer and by a
periodic sweep.  A later answer of a job's subtask to a phase replaces an earlier one.

The acknowledgement topic has one consumer, which also sweeps, so the evaluations do not overlap;
only the end of `CreateAsync` (`PREPARING` is written after `PREPARE` was broadcast) may come after
the first answers.  Instants are Unix milliseconds.
-/

namespace OpenBridge.ControlPlane

open OpenBridge.Foundation

inductive Phase where
  | prepare
  | apply
  deriving DecidableEq

inductive AckStatus where
  | ack
  | nack
  deriving DecidableEq

/-- The states `ConfigDeploymentService` writes for a deployment it drives. -/
inductive DeploymentState where
  | scheduled
  | preparing
  | prepared
  | applying
  | probing
  | activeVerified
  | partiallyAcknowledged
  | activationFailed
  deriving DecidableEq

structure WorkerAck where
  jobName : String
  subtaskIndex : ℤ
  phase : Phase
  status : AckStatus
  bundleHash : String
  jarSha256 : String
  reason : Option String
  deriving DecidableEq

def WorkerAck.key (a : WorkerAck) : String × ℤ × Phase := (a.jobName, a.subtaskIndex, a.phase)

/-- An announced job; one that reads no property is an observer, with parallelism 0. -/
structure RequiredMember where
  jobName : String
  parallelism : Option ℤ
  deriving DecidableEq

/-- What does not change over a deployment, and the windows of the service. -/
structure DeploymentPlan where
  contentHash : String
  requiredMembers : List RequiredMember
  scheduledForMs : Option ℤ
  createdAtMs : ℤ
  ackWindowMs : ℤ
  probeWindowMs : ℤ
  deriving DecidableEq

structure ProbeResults where
  pinnedResults : ℕ
  checkedAtMs : ℤ
  verifiedBy : Option String
  deriving DecidableEq

/-- The row of the deployment and its answers, in the order they were received. -/
structure Deployment where
  state : DeploymentState
  acks : List WorkerAck
  updatedAtMs : ℤ
  error : Option String
  probeResults : Option ProbeResults
  deriving DecidableEq

inductive Effect where
  | setState (state : DeploymentState)
  | broadcast (phase : Phase) (effectiveFromMs : ℤ)
  | audit (event : String) (reason : Option String)
  deriving DecidableEq

namespace DeploymentPlan

def required (plan : DeploymentPlan) : List String :=
  (plan.requiredMembers.filter fun m => m.parallelism.all fun p => p > 0).map (·.jobName)

end DeploymentPlan

namespace Deployment

/-- A deployment as `CreateAsync` inserts it. -/
def created (plan : DeploymentPlan) : Deployment :=
  ⟨.scheduled, [], plan.createdAtMs, none, none⟩

def answers (acks : List WorkerAck) (phase : Phase) (status : AckStatus) : List WorkerAck :=
  acks.filter fun a => a.phase = phase ∧ a.status = status

def short (hash : String) : String := String.ofList (hash.toList.take 12)

def record (acks : List WorkerAck) (a : WorkerAck) : List WorkerAck :=
  acks.filter (fun r => r.key ≠ a.key) ++ [a]

/-- `FailAsync`. -/
def fail (d : Deployment) (nowMs : ℤ) (reason : String) : Deployment × List Effect :=
  ({ d with state := .activationFailed, updatedAtMs := nowMs, error := some reason },
    [.setState .activationFailed, .audit "CONFIG_REJECTED" (some reason)])

/-- `PartialIfLateAsync`. -/
def partialIfLate (plan : DeploymentPlan) (d : Deployment) (nowMs : ℤ) (missing : List String) :
    Deployment × List Effect :=
  if nowMs - d.updatedAtMs > plan.ackWindowMs then
    ({ d with
        state := .partiallyAcknowledged
        updatedAtMs := nowMs
        error := some ("no acknowledgement from " ++ ", ".intercalate missing ++ " within " ++
          invariantText (Double.ofRat (plan.ackWindowMs / 60000)) ++ " min") },
      [.setState .partiallyAcknowledged])
  else (d, [])

/-- `ProbeAsync`: verified once a result carries the hash, or after the probe window.  `seenAtMs`
is the `updated_at` the evaluation read, `pinned` the number of results that carry the hash. -/
def probe (plan : DeploymentPlan) (d : Deployment) (seenAtMs nowMs : ℤ) (pinned : ℕ) :
    Deployment × List Effect :=
  let verified : Bool := pinned > 0 ∨ nowMs - seenAtMs ≥ plan.probeWindowMs
  let results : ProbeResults :=
    ⟨pinned, nowMs,
      if pinned > 0 then some "RESULT" else if verified then some "ACK_WINDOW" else none⟩
  if verified then
    ({ d with state := .activeVerified, updatedAtMs := nowMs, probeResults := some results },
      [.setState .activeVerified, .audit "CONFIG_ACTIVE_VERIFIED" none])
  else ({ d with probeResults := some results }, [])

def nackText (a : WorkerAck) : String := a.jobName ++ ": " ++ a.reason.getD ""

def missing (plan : DeploymentPlan) (answered : List WorkerAck) : List String :=
  plan.required.filter fun job => job ∉ answered.map (·.jobName)

/-- The evaluation of `PREPARING`. -/
def advancePreparing (plan : DeploymentPlan) (d : Deployment) (nowMs : ℤ) :
    Deployment × List Effect :=
  let nacks := answers d.acks .prepare .nack
  let acks := answers d.acks .prepare .ack
  let wrongHash := acks.filter fun a => a.bundleHash ≠ plan.contentHash
  if nacks ≠ [] then fail d nowMs ("PREPARE NACK: " ++ "; ".intercalate (nacks.map nackText))
  else if wrongHash ≠ [] then
    fail d nowMs ("PREPARE ACK for another hash: " ++
      ", ".intercalate (wrongHash.map fun a => a.jobName ++ "=" ++ short a.bundleHash))
  -- two jars answering one deployment is a definite failure, whatever the coverage
  else if 1 < (acks.map (·.jarSha256)).dedup.length then
    fail d nowMs ("PREPARE ACKs from mixed jars: " ++
      ", ".intercalate (acks.map fun a => a.jobName ++ "=" ++ short a.jarSha256))
  else if missing plan acks ≠ [] then partialIfLate plan d nowMs (missing plan acks)
  else
    ({ d with state := .applying, updatedAtMs := nowMs },
      [.setState .prepared, .broadcast .apply (plan.scheduledForMs.getD nowMs),
        .setState .applying])

def applied (plan : DeploymentPlan) (acks : List WorkerAck) : List WorkerAck :=
  (answers acks .apply .ack).filter fun a => a.bundleHash = plan.contentHash

/-- The evaluation of `APPLYING`. -/
def advanceApplying (plan : DeploymentPlan) (d : Deployment) (nowMs : ℤ) (pinned : ℕ) :
    Deployment × List Effect :=
  let nacks := answers d.acks .apply .nack
  if nacks ≠ [] then fail d nowMs ("APPLY NACK: " ++ "; ".intercalate (nacks.map nackText))
  else if missing plan (applied plan d.acks) ≠ [] then
    partialIfLate plan d nowMs (missing plan (applied plan d.acks))
  else
    let probed := probe plan { d with state := .probing, updatedAtMs := nowMs } d.updatedAtMs nowMs
      pinned
    (probed.1, .setState .probing :: probed.2)

/-- `AdvanceAsync`: evaluate the answers and move the deployment. -/
def advance (plan : DeploymentPlan) (d : Deployment) (nowMs : ℤ) (pinned : ℕ) :
    Deployment × List Effect :=
  match d.state with
  | .preparing => advancePreparing plan d nowMs
  | .applying => advanceApplying plan d nowMs pinned
  | .probing => probe plan d d.updatedAtMs nowMs pinned
  | _ => (d, [])

inductive Event where
  /-- `CreateAsync` has broadcast `PREPARE` and writes `PREPARING` -/
  | prepareSent (nowMs : ℤ)
  /-- an answer is recorded and the deployment evaluated -/
  | answer (a : WorkerAck) (nowMs : ℤ) (pinned : ℕ)
  /-- the periodic evaluation -/
  | sweep (nowMs : ℤ) (pinned : ℕ)
  deriving DecidableEq

def Event.ack? : Event → Option WorkerAck
  | .answer a _ _ => some a
  | _ => none

def Event.nowMs : Event → ℤ
  | .prepareSent nowMs => nowMs
  | .answer _ nowMs _ => nowMs
  | .sweep nowMs _ => nowMs

def recorded (d : Deployment) (e : Event) : List WorkerAck := e.ack?.elim d.acks (record d.acks)

/-- One event. `prepareSent` writes `PREPARING` whatever the state is; `CreateAsync` sends it
once, before any evaluation can have moved the deployment. -/
def step (plan : DeploymentPlan) (d : Deployment) : Event → Deployment × List Effect
  | .prepareSent nowMs =>
      if d.state = .scheduled then
        ({ d with state := .preparing, updatedAtMs := nowMs },
          [.setState .preparing, .audit "CONFIG_DEPLOYMENT_SCHEDULED" none])
      else (d, [])
  | .answer a nowMs pinned => advance plan { d with acks := record d.acks a } nowMs pinned
  | .sweep nowMs pinned => advance plan d nowMs pinned

def after (plan : DeploymentPlan) (events : List Event) : Deployment :=
  Machine.stateAfter (step plan) (created plan) events

def received (events : List Event) : List WorkerAck := events.filterMap Event.ack?

end Deployment

end OpenBridge.ControlPlane
