import OpenBridge.Conditions.ConditionDetector
import OpenBridge.Foundation.Text
import OpenBridge.InstrumentHealth.DeviceStateMachine

/-!
# Gate fusion: the side inputs of a loop

The keyed state of `GateFusionProcess` and its second input: the condition events and the instrument
contexts of the loop.
-/

namespace OpenBridge.GateFusion

open OpenBridge.Foundation
open OpenBridge.Conditions (ConditionEvent)
open OpenBridge.InstrumentHealth (LoopContext)

inductive FusionSideInput where
  | condition (c : ConditionEvent)
  | health (h : LoopContext)

structure GateFusionProcess where
  familyHistoryByKind : Dict String (List String)
  openConditions : Dict String ConditionEvent
  healthByRole : Dict String LoopContext

namespace GateFusionProcess

def new : GateFusionProcess := ⟨Dict.empty, Dict.empty, Dict.empty⟩

/-- `processElement2`: the newest context of a role wins; a condition is open until it is closed. -/
def processElement2 (g : GateFusionProcess) : FusionSideInput → GateFusionProcess
  | .health h =>
      if h.role = "" then g else { g with healthByRole := g.healthByRole.set h.role h }
  | .condition c =>
      if c.state = "CLOSED" then { g with openConditions := g.openConditions.erase c.kind }
      else { g with openConditions := g.openConditions.set c.kind c }

end GateFusionProcess

/-!
# Gate fusion: inputs

What fusion reads of the short and the long stage, of the loop profile, of the open conditions and of
the health lanes, and the stage that carries it over to the fused record (`FusionInputs`).
-/

open OpenBridge.InstrumentHealth (LoopContext Eligibility)

inductive GateRole where
  | blocking | primary | supporting | displayOnly
  deriving DecidableEq

inductive DynamicClass where
  | fastSelfReg | slowSelfReg | integrating | nearIntegrating | integratingLag | underdamped | unknown
  deriving DecidableEq

/-- What fusion reads of a loop profile. -/
structure FusionProfile where
  dynamicClass : DynamicClass
  minValidCycles : ℤ
  opTravelFloorPct : F64
  effortRatioFloor : F64
  phaseAreaPerCycleLo : F64
  phaseAreaPerCycleHi : F64
  priorStiction : F64
  priorOscillation : F64
  priorEffort : F64
  priorGeometry : F64
  geometryFamilyEnabled : Bool
  geometryRole : GateRole
  requireOscillationForStiction : Bool
  minNonGeometryEvidences : ℤ
  geometryAloneForbidden : Bool
  nonfollowingDwellS : F64
  persistenceWindows : ℤ
  persistenceMinAgree : ℤ

namespace FusionProfile

def isGeometryDecisiveForbidden (p : FusionProfile) : Bool :=
  p.geometryAloneForbidden ∨ p.geometryRole = .supporting ∨ p.geometryRole = .displayOnly ∨
    ¬ p.geometryFamilyEnabled ∨ F64.le p.priorGeometry (F64.ofInt 0)

end FusionProfile

inductive PhaseAreaBand where
  | belowBand | inBand | aboveBand
  deriving DecidableEq

def FusionProfile.classifyPhaseArea (p : FusionProfile) (area : F64) : PhaseAreaBand :=
  if F64.notFinite area ∨ F64.lt area (F64.ofInt 0) then .belowBand
  else if F64.lt area p.phaseAreaPerCycleLo then .belowBand
  else if F64.lt p.phaseAreaPerCycleHi area then .aboveBand
  else .inBand

/-- What fusion reads of the short stage. -/
structure ShortFeatures where
  windowKind : String
  windowEndMs : ℤ
  sufficientData : Bool
  gate0Status : String
  gate1Status : String
  gate2rStatus : String
  operatingRegionValid : Bool
  effortRatio : F64
  reversalCount : ℤ
  gate4Status : String

structure InteractionSummary where
  methodId : String
  state : String
  reason : String
  peers : List String

def InteractionSummary.detected (i : InteractionSummary) : Bool := i.state = "INTERACTION_DETECTED"

/-- What fusion reads of the long stage. -/
structure LongDiagnostics where
  windowKind : Option String
  windowEndMs : ℤ
  hasVp : Bool
  effortRatio : F64
  acfRegularity : F64
  gate5Status : String
  fftPeakRatio : F64
  harmonicAmplitudeRatio : F64
  gate6Status : String
  triangularity : F64
  completedCycles : ℤ
  gate7Status : String
  horchOddness : F64
  gate8Status : String
  phaseAreaNormPerCycle : F64
  cornerScore : F64
  cornerScoreRaw : F64
  cornerScoreQualified : F64
  periodStatus : Option String
  opRangePct : F64
  gate10Status : String
  satCyclingPattern : Bool
  gate11Status : String
  gate11Reason : String
  freezeMaterial : Bool
  vpEligibleSamples : ℤ
  vpTrackingErrorP95Pp : F64
  vpNonFollowingDwellS : F64
  vpTrackingHealthy : Bool
  observabilityFlags : List String
  interaction : Option InteractionSummary
  methodEligibility : List (String × String)
  alignedShort : Option ShortFeatures

structure OpenConditions where
  hasOpenLimit : Bool
  hasOpenFreeze : Bool
  deriving DecidableEq

def OpenConditions.of (opened : Dict String ConditionEvent) : OpenConditions :=
  let live := opened.values.filter fun e => e.state ≠ "CLOSED"
  { hasOpenLimit := live.any fun e => startsWith e.kind "LIMIT"
    hasOpenFreeze := live.any fun e => ¬ startsWith e.kind "LIMIT" ∧ e.kind = "FREEZE" }

structure HealthLanes where
  byRole : Dict String LoopContext

namespace HealthLanes

def configured (h : HealthLanes) : Bool :=
  h.byRole.values.any fun r => r.result.eligibility ≠ .notConfigured

def pvIneligible (h : HealthLanes) : Bool :=
  (h.byRole.get? "PV").any fun pv => pv.result.eligibility = .ineligible

def anyLimited (h : HealthLanes) : Bool :=
  h.byRole.values.any fun r => r.result.eligibility = .limited

def pvReason (h : HealthLanes) : String := ((h.byRole.get? "PV").map (·.result.reason)).getD ""

end HealthLanes

/-- The decision inputs that the fused record carries. -/
structure Carried where
  effortRatio : F64
  reversalCount : ℤ
  gate4Status : String
  acfRegularity : F64
  gate5Status : String
  fftPeakRatio : F64
  harmonicAmplitudeRatio : F64
  gate6Status : String
  triangularity : F64
  completedCycles : ℤ
  gate7Status : String
  horchOddness : F64
  gate8Status : String
  phaseAreaNormPerCycle : F64
  cornerScoreRaw : F64
  cornerScoreQualified : F64
  periodStatus : String
  opRangePct : F64
  gate10Status : String
  gate11Status : String
  gate11Reason : String
  observabilityFlags : List String

namespace FusionInputs

def positiveOr (v other : F64) : F64 := if F64.lt (F64.ofInt 0) v then v else other

/-- `copyShort` and `copyLong`. -/
def copy (shortF : ShortFeatures) (longD : LongDiagnostics) : Carried :=
  { effortRatio := if shortF.sufficientData then shortF.effortRatio else longD.effortRatio
    reversalCount := shortF.reversalCount
    gate4Status := shortF.gate4Status
    acfRegularity := longD.acfRegularity
    gate5Status := longD.gate5Status
    fftPeakRatio := longD.fftPeakRatio
    harmonicAmplitudeRatio := longD.harmonicAmplitudeRatio
    gate6Status := longD.gate6Status
    triangularity := longD.triangularity
    completedCycles := longD.completedCycles
    gate7Status := longD.gate7Status
    horchOddness := longD.horchOddness
    gate8Status := longD.gate8Status
    phaseAreaNormPerCycle := longD.phaseAreaNormPerCycle
    cornerScoreRaw := positiveOr longD.cornerScoreRaw longD.cornerScore
    cornerScoreQualified := longD.cornerScoreQualified
    periodStatus := longD.periodStatus.getD "NO_VALID_CYCLE"
    opRangePct := positiveOr longD.opRangePct (F64.ofInt 0)
    gate10Status := longD.gate10Status
    gate11Status := longD.gate11Status
    gate11Reason := longD.gate11Reason
    observabilityFlags := longD.observabilityFlags }

/-- An open limit raises G10 to at least `WARN`. -/
def applyOpenLimit (c : Carried) (oc : OpenConditions) : Carried :=
  if oc.hasOpenLimit then
    { c with
      gate10Status := if ¬ equalsIgnoreCase c.gate10Status "WARN" ∧
        ¬ equalsIgnoreCase c.gate10Status "STRONG" then "WARN" else c.gate10Status
      observabilityFlags := c.observabilityFlags ++ ["OPEN_LIMIT_CONDITION"] }
  else c

/-- An open freeze makes G11 `WARN`, as evidence. -/
def applyOpenFreeze (c : Carried) (longD : LongDiagnostics) (oc : OpenConditions) : Carried :=
  if oc.hasOpenFreeze then
    { c with
      gate11Status := if equalsIgnoreCase c.gate11Status "WARN" then c.gate11Status else "WARN"
      gate11Reason := if longD.freezeMaterial then c.gate11Reason else "OPEN_FREEZE_CONDITION"
      observabilityFlags := c.observabilityFlags ++ ["OPEN_FREEZE_CONDITION"] }
  else c

def applyOpenConditions (c : Carried) (longD : LongDiagnostics) (oc : OpenConditions) : Carried :=
  applyOpenFreeze (applyOpenLimit c oc) longD oc

end FusionInputs

end OpenBridge.GateFusion
