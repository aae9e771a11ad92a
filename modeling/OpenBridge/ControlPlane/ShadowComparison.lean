import OpenBridge.ControlPlane.ConfigStore
import OpenBridge.ControlPlane.Deployment

/-!
# Control plane: a shadow comparison beside the life cycle of a revision

`ShadowComparison.CompareAsync` reads the bundle, compares the rows of its shadow run with the live
ones, and records the numbers on the bundle, with the state it read at its start.  The other steps on
the revision are those of the store, of its deployments, of a rollback, and of the endpoint that
starts a shadow run.
-/

namespace OpenBridge.ControlPlane

/-- The shadow record of a bundle: its run, the state of the run, and the fingerprint of the last
comparison. -/
structure ShadowRecord where
  analysisRunId : Option String
  state : String
  fingerprint : Option String
  deriving DecidableEq

structure ComparisonNumbers where
  runState : String
  shadowRows : ℕ
  comparedWindows : ℕ
  symptomsRemoved : ℕ
  symptomsAdded : ℕ
  deriving DecidableEq

def ComparisonNumbers.fingerprint (n : ComparisonNumbers) : String :=
  "|".intercalate [n.runState, toString n.shadowRows, toString n.comparedWindows,
    toString n.symptomsRemoved, toString n.symptomsAdded]

structure Comparison where
  state : BundleState
  shadow : Option ShadowRecord
  pending : Bool
  deriving DecidableEq

def Comparison.records (c : Comparison) (n : ComparisonNumbers) : Bool :=
  c.shadow.any fun shadow =>
    shadow.analysisRunId.isSome && shadow.fingerprint != some n.fingerprint

/-- A rollback to this revision: it was found, approved again, or is done. -/
inductive RollbackProgress where
  | found
  | approved
  | done
  deriving DecidableEq

/-- The revision, its deployments, and the calls in flight.  `inForce` is its row in
`cpm.config_active`; a shadow call is `true` until it has written. -/
structure Revision where
  store : ConfigStore.Store
  shadow : Option ShadowRecord := none
  deployments : List (DeploymentPlan × Deployment) := []
  inForce : Bool := false
  shadowCalls : List Bool := []
  rollbacks : List RollbackProgress := []
  comparisons : List Comparison := []

/-- A database step on the revision.  Writes come with the entity tag they draw. -/
inductive RevisionEvent where
  /-- a step of the store; `plan` is that of the deployment it creates -/
  | store (e : ConfigStore.Event) (plan : DeploymentPlan)
  /-- an evaluation of a deployment -/
  | deploy (k : ℕ) (e : Deployment.Event) (etag : String)
  /-- another bundle of the scope is verified -/
  | superseded
  /-- a rollback of another bundle finds this one -/
  | findRollback
  /-- its next step; without a plan the new deployment is refused -/
  | rollback (k : ℕ) (plan : Option DeploymentPlan) (etag : String)
  /-- the rollback of a deployment of this bundle is verified -/
  | rolledBack (etag : String)
  | readShadow
  | startShadow (k : ℕ) (analysisRunId etag : String)
  | readCompare
  | compare (k : ℕ) (numbers : ComparisonNumbers) (etag : String)

def RevisionEvent.isComparison : RevisionEvent → Bool
  | .readCompare => true
  | .compare _ _ _ => true
  | _ => false

def RevisionEvent.drawn : RevisionEvent → Option String
  | .store (.write _ etag _) _ => some etag
  | .deploy _ _ etag => some etag
  | .rollback _ _ etag => some etag
  | .rolledBack etag => some etag
  | .startShadow _ _ etag => some etag
  | .compare _ _ etag => some etag
  | _ => none

def ConfigStore.Record.publishedHash? : ConfigStore.Record → Option String
  | .published read => some read.contentHash
  | _ => none

def ConfigStore.Record.isEdit : ConfigStore.Record → Bool
  | .edited _ => true
  | _ => false

def Effect.bundleState? : Effect → Option BundleState
  | .setState .prepared => some .prepared
  | .setState .partiallyAcknowledged => some .partiallyAcknowledged
  | .setState .activationFailed => some .activationFailed
  | .setState .activeVerified => some .activeVerified
  | _ => none

def DeploymentPlan.inserted (plan : DeploymentPlan) (contentHash : String) :
    DeploymentPlan × Deployment :=
  ({ plan with contentHash := contentHash }, Deployment.created { plan with contentHash := contentHash })

namespace Revision

variable (rules : ConfigRules)

/-- `SetStateAsync`. -/
def setState (s : Revision) (state : BundleState) (etag : String) : Revision :=
  { s with store := { s.store with row := { s.store.row with state := state, etag := etag } } }

def stepStore (s : Revision) (e : ConfigStore.Event) (plan : DeploymentPlan) : Revision :=
  let r := ConfigStore.step rules s.store e
  { s with
    store := r.1
    shadow := if r.2.any ConfigStore.Record.isEdit then none else s.shadow
    deployments := s.deployments ++
      (r.2.filterMap ConfigStore.Record.publishedHash?).map plan.inserted }

def stepDeploy (s : Revision) (k : ℕ) (e : Deployment.Event) (etag : String) : Revision :=
  match s.deployments[k]? with
  | none => s
  | some (plan, d) =>
      let r := Deployment.step plan d e
      let s' := { s with deployments := s.deployments.set k (plan, r.1) }
      match (r.2.filterMap Effect.bundleState?).getLast? with
      | none => s'
      | some state =>
          { s'.setState state etag with inForce := s.inForce || state == .activeVerified }

def stepRollback (s : Revision) (k : ℕ) (plan : Option DeploymentPlan) (etag : String) : Revision :=
  match s.rollbacks[k]? with
  | some .found =>
      { s.setState .approved etag with rollbacks := s.rollbacks.set k .approved }
  | some .approved =>
      match plan with
      | none => { s with rollbacks := s.rollbacks.set k .done }
      | some plan =>
          { s.setState .scheduled etag with
            rollbacks := s.rollbacks.set k .done
            deployments := s.deployments ++ [plan.inserted s.store.row.contentHash] }
  | _ => s

def writeComparison (s : Revision) (k : ℕ) (c : Comparison) (n : ComparisonNumbers)
    (etag : String) : Revision :=
  let s' := { s with comparisons := s.comparisons.set k { c with pending := false } }
  if c.records n then
    { s'.setState c.state etag with
      shadow := some ⟨c.shadow.bind ShadowRecord.analysisRunId, n.runState, some n.fingerprint⟩ }
  else s'

/-- The revision after a step. -/
def next (s : Revision) : RevisionEvent → Revision
  | .store e plan => s.stepStore rules e plan
  | .deploy k e etag => s.stepDeploy k e etag
  | .superseded =>
      if s.inForce then
        { s with
          store := { s.store with row := { s.store.row with state := .superseded } }
          inForce := false }
      else s
  | .findRollback =>
      if s.store.row.state ∈ [BundleState.superseded, .activeVerified] then
        { s with rollbacks := s.rollbacks ++ [.found] }
      else s
  | .rollback k plan etag => s.stepRollback k plan etag
  | .rolledBack etag => if s.deployments = [] then s else s.setState .rolledBack etag
  | .readShadow =>
      { s with shadowCalls := s.shadowCalls ++
          [decide (s.store.row.state ∈ [BundleState.validated, .shadowEvaluated])] }
  | .startShadow k analysisRunId etag =>
      if s.shadowCalls[k]? = some true then
        { s.setState .shadowEvaluated etag with
          shadow := some ⟨some analysisRunId, "RUNNING", none⟩
          shadowCalls := s.shadowCalls.set k false }
      else s
  | .readCompare =>
      { s with comparisons := s.comparisons ++ [⟨s.store.row.state, s.shadow, true⟩] }
  | .compare k n etag =>
      match s.comparisons[k]? with
      | some c => if c.pending then s.writeComparison k c n etag else s
      | none => s

def step (s : Revision) (e : RevisionEvent) : Revision × List BundleState :=
  let s' := s.next rules e
  (s', if s'.store.row.state = s.store.row.state then [] else [s'.store.row.state])

def lifeCycle (s : Revision) (run : List RevisionEvent) : List BundleState :=
  Foundation.Machine.outputs (step rules) s run

end Revision

end OpenBridge.ControlPlane
