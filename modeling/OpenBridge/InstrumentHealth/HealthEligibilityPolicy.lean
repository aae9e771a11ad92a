import OpenBridge.Foundation.Double

/-!
# Instrument health: observations and status intervals

`HealthObservation` and `HealthInterval`.
-/

namespace OpenBridge.InstrumentHealth

open OpenBridge.Foundation

structure Diagnostic where
  diagnosticId : String
  affectedVariableIds : List String
  deriving DecidableEq

/-- One record of the instrument-health topic.  `scanIntervalS` is absent for NaN. -/
structure HealthObservation where
  tenantId : String := ""
  site : String := ""
  sourceId : String := ""
  deviceId : String := ""
  messageKind : String := ""
  observationId : String := ""
  producerEpoch : ℤ := 0
  sequence : ℤ := 0
  stateComplete : Bool := false
  observedAtMs : ℤ := 0
  verifiedAtMs : ℤ := 0
  scanIntervalS : Option Double := some (.finite 0)
  activeFlags : List String := []
  nativeStatus : String := ""
  collectionState : String := "UNKNOWN"
  measurementImpact : String := "UNKNOWN"
  diagnostics : List Diagnostic := []
  availabilityState : Option String := none
  sinceMs : ℤ := 0
  changeKind : Option String := none
  deriving DecidableEq

namespace HealthObservation

def isAvailability (o : HealthObservation) : Bool := o.messageKind = "SOURCE_AVAILABILITY"

def isSnapshot (o : HealthObservation) : Bool := o.messageKind = "STATE_SNAPSHOT"

def deviceKey (o : HealthObservation) : String := o.tenantId ++ "|" ++ o.site ++ "|" ++ o.deviceId

end HealthObservation

inductive BoundaryKind where
  | newerState | freshnessExpired | sourceOffline | «open»
  deriving DecidableEq

/-- `NO_ACTIVE_DIAGNOSTIC`. -/
def noActiveDiagnostic : String := "NO_ACTIVE_DIAGNOSTIC"

/-- One status interval of a device; an open one has no end. -/
structure HealthInterval where
  tenantId : String
  site : String
  deviceId : String
  fromMs : ℤ
  toMs : Option ℤ
  boundaryKind : BoundaryKind
  activeFlags : List String
  nativeStatus : String
  collectionState : String
  measurementImpact : String
  healthStateId : String
  affectedVariableIds : List String
  diagnosticIds : List String
  fromObservationId : String
  stateComplete : Bool
  verifiedAtMs : ℤ
  producerEpoch : ℤ
  revision : ℤ
  deriving DecidableEq

/-!
# Instrument health: the eligibility policy

`HealthEligibilityPolicy`: the table that gives the measurement eligibility of one signal over one
device interval.
-/

inductive Eligibility where
  | eligible | limited | ineligible | unknown | notConfigured
  deriving DecidableEq

structure EligibilityResult where
  eligibility : Eligibility
  descriptive : Eligibility
  reason : String
  deriving DecidableEq

namespace HealthEligibilityPolicy

def notConfigured : EligibilityResult := ⟨.notConfigured, .notConfigured, "NO_BINDING"⟩

def affects (affectedVariableIds : List String) (signalId : String) : Bool :=
  affectedVariableIds = [] ∨ signalId ∈ affectedVariableIds

/-- `evaluate` over a verified interval. -/
def evaluateVerified (i : HealthInterval) (signalId : String) : EligibilityResult :=
  let affectsSignal := affects i.affectedVariableIds signalId
  let f : Bool := "F" ∈ i.activeFlags
  let c : Bool := "C" ∈ i.activeFlags
  let s : Bool := "S" ∈ i.activeFlags
  let m : Bool := "M" ∈ i.activeFlags
  if i.measurementImpact = "INVALID" ∧ (affectsSignal ∨ i.activeFlags = []) then
    if c ∧ ¬ f then ⟨.ineligible, .limited, "C_TEST_ACTIVE"⟩
    else ⟨.ineligible, .ineligible, if f then "F_AFFECTS_SIGNAL" else "MEASUREMENT_INVALID"⟩
  else if f ∧ affectsSignal then ⟨.ineligible, .ineligible, "F_AFFECTS_SIGNAL"⟩
  else if c ∧ affectsSignal then ⟨.ineligible, .limited, "C_TEST_ACTIVE"⟩
  else if s ∧ affectsSignal then ⟨.limited, .limited, "S_DEGRADED"⟩
  else if (f ∨ c ∨ s) ∧ ¬ affectsSignal then ⟨.eligible, .eligible, "FLAG_ON_INDEPENDENT_VARIABLE"⟩
  else if m then
    if i.measurementImpact = "DEGRADED" then ⟨.limited, .limited, "M_WITH_DEGRADED_MEASUREMENT"⟩
    else ⟨.eligible, .eligible, "M_CONTEXT_ONLY"⟩
  else if i.measurementImpact = "UNKNOWN" then ⟨.limited, .limited, "IMPACT_UNKNOWN"⟩
  else if i.measurementImpact = "DEGRADED" then ⟨.limited, .limited, "MEASUREMENT_DEGRADED"⟩
  else if i.activeFlags = [] ∧ i.stateComplete then ⟨.eligible, .eligible, noActiveDiagnostic⟩
  else ⟨.limited, .limited, "STATE_INCOMPLETE"⟩

/-- `evaluate`: an interval that is not verified implies no healthy clearance. -/
def evaluate (i : Option HealthInterval) (signalId : String) : EligibilityResult :=
  match i with
  | none => ⟨.unknown, .unknown, "NO_INTERVAL"⟩
  | some i =>
      if i.collectionState ≠ "VERIFIED" then ⟨.limited, .limited, i.collectionState⟩
      else evaluateVerified i signalId

def flagged (activeFlags : List String) : Bool :=
  "F" ∈ activeFlags ∨ "C" ∈ activeFlags ∨ "S" ∈ activeFlags

def contextOnly (activeFlags : List String) : Bool := "M" ∈ activeFlags ∧ ¬ flagged activeFlags

variable {i : HealthInterval} {signalId : String}

theorem evaluate_of_not_verified (h : i.collectionState ≠ "VERIFIED") :
    (evaluate (some i) signalId).eligibility = .limited := by
  rw [evaluate, if_pos h]

theorem evaluate_of_verified (h : i.collectionState = "VERIFIED") :
    evaluate (some i) signalId = evaluateVerified i signalId := by
  rw [evaluate, if_neg (not_not.mpr h)]

theorem evaluateVerified_of_flagged (h : flagged i.activeFlags = true) :
    (evaluateVerified i signalId).eligibility = .eligible ↔
      affects i.affectedVariableIds signalId = false := by
  have hflags : i.activeFlags ≠ [] := by
    intro hnil
    simp [flagged, hnil] at h
  simp only [flagged, decide_eq_true_eq] at h
  rw [evaluateVerified]
  cases haffects : affects i.affectedVariableIds signalId with
  | false => simp [h, hflags]
  | true =>
    by_cases hinvalid : i.measurementImpact = "INVALID"
    · by_cases hc : "C" ∈ i.activeFlags ∧ "F" ∉ i.activeFlags
      · simp [hinvalid, hc]
      · simp [hinvalid, hc]
    · by_cases hf : "F" ∈ i.activeFlags
      · simp [hinvalid, hf]
      · by_cases hc : "C" ∈ i.activeFlags
        · simp [hinvalid, hf, hc]
        · simp [hinvalid, hf, hc, (h.resolve_left hf).resolve_left hc]

theorem evaluateVerified_of_contextOnly (h : contextOnly i.activeFlags = true) :
    (evaluateVerified i signalId).eligibility = .eligible ↔
      ¬ (i.measurementImpact = "INVALID" ∧ affects i.affectedVariableIds signalId = true) ∧
        i.measurementImpact ≠ "DEGRADED" := by
  simp only [contextOnly, flagged, decide_eq_true_eq, not_or] at h
  obtain ⟨hm, hf, hc, hs⟩ := h
  have hflags : i.activeFlags ≠ [] := List.ne_nil_of_mem hm
  rw [evaluateVerified]
  by_cases hinvalid : i.measurementImpact = "INVALID" ∧ affects i.affectedVariableIds signalId = true
  · simp [hinvalid, hf, hc]
  · by_cases hdegraded : i.measurementImpact = "DEGRADED"
    · simp [hdegraded, hm, hf, hc, hs]
    · simp [hinvalid, hdegraded, hflags, hm, hf, hc, hs]

theorem stateComplete_of_eligible (hflagged : flagged i.activeFlags = false)
    (hcontext : contextOnly i.activeFlags = false)
    (h : (evaluateVerified i signalId).eligibility = .eligible) : i.stateComplete = true := by
  simp only [flagged, decide_eq_false_iff_not, not_or] at hflagged
  obtain ⟨hf, hc, hs⟩ := hflagged
  have hm : "M" ∉ i.activeFlags := by
    intro hm
    simp [contextOnly, flagged, hm, hf, hc, hs] at hcontext
  by_contra hincomplete
  rw [evaluateVerified] at h
  simp only [hf, hc, hs, hm, hincomplete, decide_false, Bool.false_eq_true, false_and, and_false,
    false_or, if_false] at h
  split_ifs at h

end HealthEligibilityPolicy

end OpenBridge.InstrumentHealth
