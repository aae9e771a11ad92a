import OpenBridge.EventFrames.EventFrameLifecycle
import OpenBridge.GateFusion.FusionInputs
import OpenBridge.Identity.RunIdentity

/-!
# Evidence: which fused verdicts push their artifacts

`EvidencePolicy`, `EvidenceThrottle` and `emitEvidence` of the fusion job.
-/

namespace OpenBridge.Evidence

open OpenBridge.EventFrames
open OpenBridge.Foundation
open OpenBridge.GateFusion
open OpenBridge.Identity
open OpenBridge.Samples

/-- A fused verdict: what the event frames read of it, and what its evidence depends on.
`interaction` says that the long row carried an analysis of its peers. -/
structure FusedVerdict where
  verdict : GateVerdict
  selectedFamily : Option String
  gate14Status : Option String
  gate15Status : Option String
  healthLanes : Option HealthLanes
  interaction : Bool
  methodRunIds : List (String × String)
  stamped : methodRunIds.map Prod.fst = GateMethodCatalog.gates

def FusedVerdict.diagnosis (r : FusedVerdict) : Option String := r.verdict.diagnosis

def FusedVerdict.windowEndMs (r : FusedVerdict) : ℤ := r.verdict.windowEnd.ms

/-! ## The policy -/

namespace EvidencePolicy

inductive Mode where
  | episodes
  | all
  | none
  deriving DecidableEq

end EvidencePolicy

/-- `EvidencePolicy`, with the throttle's interval. -/
structure EvidencePolicy where
  mode : EvidencePolicy.Mode
  minIntervalMs : ℤ
  deriving DecidableEq

namespace EvidencePolicy

def finding (status : Option String) : Bool :=
  match status with
  | none => false
  | some s => s ≠ "PASS" ∧ s ≠ "PENDING" ∧ s ≠ "NOT_EVALUATED"

def isFaultDiagnosis (diagnosis : Option String) : Bool :=
  match diagnosis with
  | none => false
  | some d =>
      if javaTrim d = "" then false
      else if startsWith d "EXCLUDED" ∨ d = "INSUFFICIENT_DATA" then false
      else if d = "INSUFFICIENT_EVIDENCE" ∨ d = "NO_CALL" then false
      else d ≠ "PASS" ∧ d ≠ "PENDING"

/-- `emit` of a fused result. -/
def emit (policy : EvidencePolicy) (r : FusedVerdict) : Bool :=
  match policy.mode with
  | .none => false
  | .all => true
  | .episodes =>
      finding r.gate14Status || isFaultDiagnosis r.diagnosis ||
        r.healthLanes.any fun lanes => lanes.pvIneligible || lanes.anyLimited

end EvidencePolicy

/-! ## The artifacts -/

/-- An artifact of a fused verdict: the run of its gate, and its kind. -/
structure FusionArtifact where
  methodRunId : String
  gate : String
  kind : String
  deriving DecidableEq

namespace FusionArtifacts

def ofGate (r : FusedVerdict) (gate kind : String) : List FusionArtifact :=
  ((r.methodRunIds.lookup gate).map fun id => ⟨id, gate, kind⟩).toList

def artifacts (r : FusedVerdict) : List FusionArtifact :=
  ofGate r "G11" "eligibility_intervals" ++
    (if r.interaction then [] else ofGate r "G13" "interaction") ++
    ofGate r "G14" "confirmation_record" ++ ofGate r "G15" "decision_record"

theorem artifacts_ne_nil (r : FusedVerdict) : artifacts r ≠ [] := by
  have hgate : "G15" ∈ r.methodRunIds.map Prod.fst := by
    rw [r.stamped]
    decide
  obtain ⟨⟨gate, id⟩, hmem, rfl⟩ := List.mem_map.mp hgate
  have hsome : (r.methodRunIds.lookup "G15").isSome = true := by
    rw [List.lookup_isSome_iff]
    exact ⟨_, hmem, beq_self_eq_true _⟩
  obtain ⟨run, hrun⟩ := Option.isSome_iff_exists.mp hsome
  unfold artifacts
  refine List.append_ne_nil_of_right_ne_nil _ ?_
  unfold ofGate
  rw [hrun]
  exact List.cons_ne_nil _ _

end FusionArtifacts

/-! ## The throttle -/

namespace EvidenceThrottle

abbrev Memory := Option (String × ℤ)

inductive Action where
  | clear
  | skip
  | emit
  deriving DecidableEq

def text (s : Option String) : String := s.getD "null"

/-- `signature` of a fused result. -/
def signature (r : FusedVerdict) : String :=
  text r.diagnosis ++ "|" ++
    (text r.selectedFamily ++ "|" ++ text r.gate14Status ++ "|" ++ text r.gate15Status)

def due (previous : Memory) (sig : String) (nowMs minIntervalMs : ℤ) : Bool :=
  match previous with
  | none => true
  | some (prevSig, prevMs) =>
      minIntervalMs ≤ 0 ∨ prevSig ≠ sig ∨ minIntervalMs ≤ nowMs - prevMs

def action (policyEmits : Bool) (previous : Memory) (sig : String) (nowMs minIntervalMs : ℤ) :
    Action :=
  if policyEmits = false then .clear
  else if due previous sig nowMs minIntervalMs then .emit else .skip

def recordsState (recordsOut : ℕ) : Bool := 0 < recordsOut

theorem due_eq_false {previous : Memory} {sig : String} {nowMs minIntervalMs : ℤ}
    (h : due previous sig nowMs minIntervalMs = false) :
    ∃ prevMs, previous = some (sig, prevMs) ∧ nowMs - prevMs < minIntervalMs := by
  unfold due at h
  split at h
  · cases h
  · rename_i prevSig prevMs
    rw [decide_eq_false_iff_not, not_or, not_or, not_not, not_le, not_le] at h
    obtain ⟨-, rfl, hms⟩ := h
    exact ⟨prevMs, rfl, hms⟩

end EvidenceThrottle

/-- `emitEvidence`: the memory after a verdict, and the artifacts it pushes.  An artifact becomes one
manifest and `chunks` records. -/
def emitEvidence (policy : EvidencePolicy) (chunks : FusionArtifact → ℕ)
    (memory : EvidenceThrottle.Memory) (fused : FusedVerdict) :
    EvidenceThrottle.Memory × List FusionArtifact :=
  let sig := EvidenceThrottle.signature fused
  let nowMs := fused.windowEndMs
  match EvidenceThrottle.action (policy.emit fused) memory sig nowMs policy.minIntervalMs with
  | .clear => (none, [])
  | .skip => (memory, [])
  | .emit =>
      let out := FusionArtifacts.artifacts fused
      let records := (out.map fun a => 1 + chunks a).sum
      (if EvidenceThrottle.recordsState records then some (sig, nowMs) else memory, out)

end OpenBridge.Evidence
