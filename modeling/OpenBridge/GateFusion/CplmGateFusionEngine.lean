import OpenBridge.GateFusion.FusionInputs

/-!
# Gate fusion: evidence

The qualification stage: `FusionEvidence`, `GeometryEvidence` and `Confirmation`.
-/

namespace OpenBridge.GateFusion

open OpenBridge.Foundation

def isStrongOrWarn (status : String) : Bool :=
  equalsIgnoreCase "STRONG" status ∨ equalsIgnoreCase "WARN" status

def clamp01 (v : F64) : F64 :=
  if F64.notFinite v then F64.ofInt 0 else F64.max (F64.ofInt 0) (F64.min (F64.ofInt 1) v)

def qualifyingScore : F64 := F64.ofRat (55 / 100)

def isQualified (score : F64) (statusA statusB : String) : Bool :=
  F64.le qualifyingScore score ∨ isStrongOrWarn statusA ∨ isStrongOrWarn statusB

/-- `GeometryEvidence.evaluate`: the reason why the geometry is not well formed, if there is one. -/
def geometryReason (c : Carried) (p : FusionProfile) : Option String :=
  if ¬ p.geometryFamilyEnabled ∨ F64.le p.priorGeometry (F64.ofInt 0) then some "FAMILY_DISQUALIFIED"
  else if c.periodStatus ≠ "VALID" then some "NO_VALID_CYCLE"
  else if c.completedCycles < p.minValidCycles then some "NO_VALID_CYCLE"
  else if p.classifyPhaseArea c.phaseAreaNormPerCycle = .aboveBand then some "AREA_OUT_OF_BAND"
  else if p.classifyPhaseArea c.phaseAreaNormPerCycle = .belowBand then some "AREA_BELOW_BAND"
  else if F64.lt c.effortRatio p.effortRatioFloor then some "EFFORT_BELOW_FLOOR"
  else if F64.lt c.opRangePct p.opTravelFloorPct then some "OP_TRAVEL_BELOW_FLOOR"
  else if F64.le c.cornerScoreQualified (F64.ofInt 0) ∧ F64.lt (F64.ofRat (1 / 2)) c.cornerScoreRaw
    then some "CORNER_NOISE_FLOOR"
  else none

/-- What the qualification stage found. -/
structure FusionEvidence where
  oscillationScore : F64
  fftScore : F64
  effortScore : F64
  stictionScore : F64
  horchScore : F64
  geometryScore : F64
  oscillationQualified : Bool
  harmonicOrShape : Bool
  actuatorStress : Bool
  geometryReasons : List String
  geometryEvidenceOk : Bool
  geometryPrereqsMet : Bool
  geometrySelectable : Bool
  shapeEvidence : Bool
  asymmetrySupport : Bool
  disturbanceContext : Bool
  stictionQualified : Bool
  effortQualified : Bool
  familyStiction : F64
  familyOscillation : F64
  familyEffort : F64
  familyGeometry : F64
  weightedRaw : F64

namespace FusionEvidence

def weigh (qualified : Bool) (score prior : F64) : F64 :=
  if qualified then F64.mul score prior else score

def evaluate (c : Carried) (longD : LongDiagnostics) (p : FusionProfile) : FusionEvidence :=
  let interactionDetected := longD.interaction.any (·.detected)
  let oscillationScore := clamp01 c.acfRegularity
  let fftScore := clamp01 c.fftPeakRatio
  let effortScore := clamp01 (F64.div c.effortRatio (F64.ofInt 8))
  let stictionScore := clamp01 c.triangularity
  let horchScore := clamp01 c.horchOddness
  let geometryScore := clamp01 (if F64.lt (F64.ofInt 0) c.cornerScoreQualified ∨
    c.periodStatus = "VALID" then c.cornerScoreQualified else F64.ofInt 0)
  let oscillationQualified : Bool :=
    isQualified (F64.max oscillationScore fftScore) c.gate5Status c.gate6Status ∨
      (p.dynamicClass = .slowSelfReg ∧ isStrongOrWarn c.gate8Status ∧ c.periodStatus = "VALID" ∧
        p.minValidCycles ≤ c.completedCycles)
  let harmonicOrShape : Bool :=
    (isStrongOrWarn c.gate6Status ∧ F64.lt (F64.ofRat (15 / 100)) c.harmonicAmplitudeRatio) ∨
      isStrongOrWarn c.gate7Status ∨ isStrongOrWarn c.gate8Status ∨
        F64.le qualifyingScore stictionScore ∨ F64.le qualifyingScore horchScore
  let actuatorStress : Bool :=
    isStrongOrWarn c.gate4Status ∨ isStrongOrWarn c.gate10Status ∨
      F64.le (F64.mul p.effortRatioFloor (F64.ofInt 2)) c.effortRatio ∨
        F64.le p.opTravelFloorPct c.opRangePct ∨ longD.satCyclingPattern ∨ 3 ≤ c.reversalCount
  let geometryReasons := (geometryReason c p).toList
  let geometryEvidenceOk := (geometryReason c p).isNone
  let geometryPrereqsMet := oscillationQualified && harmonicOrShape && actuatorStress
  let geometrySelectable : Bool :=
    geometryEvidenceOk ∧ p.geometryFamilyEnabled ∧ p.geometryRole ≠ .displayOnly ∧
      (p.geometryRole = .primary ∨ geometryPrereqsMet)
  let nonGeoEvidence : ℤ :=
    oscillationQualified.toNat + harmonicOrShape.toNat + actuatorStress.toNat
  let stictionMultiEvidence : Bool :=
    (¬ p.requireOscillationForStiction ∨ oscillationQualified) ∧ harmonicOrShape ∧ actuatorStress
  let geometryHasCorners : Bool :=
    geometrySelectable ∧ F64.le (F64.ofRat (1 / 2)) c.cornerScoreQualified
  let shapeEvidence : Bool :=
    isStrongOrWarn c.gate7Status ∨ F64.le qualifyingScore stictionScore ∨ geometryHasCorners
  let disturbanceContext := interactionDetected && oscillationQualified && !actuatorStress
  let stictionQualified : Bool :=
    stictionMultiEvidence ∧ max 2 p.minNonGeometryEvidences ≤ nonGeoEvidence ∧ shapeEvidence ∧
      ¬ disturbanceContext
  let effortQualified := isQualified effortScore c.gate4Status c.gate10Status
  { oscillationScore := oscillationScore
    fftScore := fftScore
    effortScore := effortScore
    stictionScore := stictionScore
    horchScore := horchScore
    geometryScore := geometryScore
    oscillationQualified := oscillationQualified
    harmonicOrShape := harmonicOrShape
    actuatorStress := actuatorStress
    geometryReasons := geometryReasons
    geometryEvidenceOk := geometryEvidenceOk
    geometryPrereqsMet := geometryPrereqsMet
    geometrySelectable := geometrySelectable
    shapeEvidence := shapeEvidence
    asymmetrySupport := isStrongOrWarn c.gate8Status ∨ F64.le qualifyingScore horchScore
    disturbanceContext := disturbanceContext
    stictionQualified := stictionQualified
    effortQualified := effortQualified
    familyStiction := weigh stictionQualified (F64.max stictionScore horchScore) p.priorStiction
    familyOscillation :=
      weigh oscillationQualified (F64.max oscillationScore fftScore) p.priorOscillation
    familyEffort := weigh effortQualified effortScore p.priorEffort
    familyGeometry := if geometrySelectable then
      F64.mul (clamp01 c.cornerScoreQualified) p.priorGeometry else F64.ofInt 0
    weightedRaw :=
      [(F64.ofRat (15 / 100), fftScore), (F64.ofRat (15 / 100), effortScore),
        (F64.ofRat (20 / 100), stictionScore), (F64.ofRat (20 / 100), horchScore),
        (F64.ofRat (15 / 100), geometryScore)].foldl
          (fun total w => F64.add total (F64.mul w.1 w.2))
          (F64.mul (F64.ofRat (15 / 100)) oscillationScore) }

def disqualifiers (e : FusionEvidence) : List String :=
  (if ¬ e.shapeEvidence ∧ e.asymmetrySupport then ["stiction:NO_SHAPE_EVIDENCE"] else []) ++
    (if e.disturbanceContext then ["stiction:DISTURBANCE_CONTEXT"] else [])

end FusionEvidence

inductive ConfirmationState where
  | confirmed | notConfirmed | contradicted | notApplicable
  deriving DecidableEq

structure Confirmation where
  state : ConfirmationState
  reason : String
  positiveEvidenceIds : List String
  contradictions : List String
  nonFollowingDwellS : F64
  trackingErrorP95Pp : F64
  confirmedAtMs : ℤ

namespace Confirmation

def measured (longD : LongDiagnostics) (state : ConfirmationState) (reason : String) :
    Confirmation :=
  ⟨state, reason, [], [], longD.vpNonFollowingDwellS, longD.vpTrackingErrorP95Pp, 0⟩

def dwellReached (longD : LongDiagnostics) (p : FusionProfile) : Bool :=
  F64.le p.nonfollowingDwellS longD.vpNonFollowingDwellS ∧
    F64.lt (F64.ofInt 0) longD.vpNonFollowingDwellS

def evaluate (longD : LongDiagnostics) (p : FusionProfile) : Confirmation :=
  if ¬ longD.hasVp ∨ longD.vpEligibleSamples ≤ 0 then measured longD .notConfirmed "NO_VP"
  else if dwellReached longD p then
    { measured longD .confirmed "NON_FOLLOWING_DWELL" with
      positiveEvidenceIds := ["G10.VP_NONFOLLOWING_DWELL"]
      confirmedAtMs := longD.windowEndMs }
  else if longD.vpTrackingHealthy then
    { measured longD .contradicted "VP_TRACKING_HEALTHY" with
      contradictions := ["VP_TRACKING_HEALTHY"] }
  else measured longD .notConfirmed "NO_POSITIVE_EVIDENCE"

def capForFinalElement (c : Confirmation) : F64 :=
  match c.state with
  | .confirmed => F64.ofInt 1
  | .contradicted => F64.ofRat (54 / 100)
  | _ => F64.ofRat (89 / 100)

def notApplicable (c : Confirmation) : Confirmation :=
  { c with
    state := .notApplicable
    reason := "NOT_A_FINAL_ELEMENT_CLAIM"
    positiveEvidenceIds := []
    confirmedAtMs := 0 }

theorem dwell_of_confirmed {longD : LongDiagnostics} {p : FusionProfile}
    (h : (evaluate longD p).state = .confirmed) : longD.hasVp = true ∧
      0 < longD.vpEligibleSamples ∧ dwellReached longD p = true := by
  rw [evaluate] at h
  split at h
  · cases h
  · rename_i hvp
    split at h
    · rename_i hdwell
      push Not at hvp
      exact ⟨by simpa using hvp.1, hvp.2, hdwell⟩
    · split at h <;> cases h

end Confirmation

/-!
# Gate fusion: the engine

`CplmGateFusionEngine` with `BlockingExclusions` and `DiagnosisBands`.
-/

/-- The fused verdict. -/
structure GateResult where
  windowKind : String
  windowEndMs : ℤ
  carried : Carried
  observabilityFlags : List String
  familyDisqualifiers : List String
  evidence : Option FusionEvidence
  vpAvailable : Bool
  gate12Status : String
  gate13Status : String
  gate13Method : String
  gate13Reason : String
  hasStepTestEvidence : Bool
  hasPeerLinks : Bool
  gate14Status : String
  g14ConfidenceCap : F64
  confirmation : Option Confirmation
  leadingHypothesis : String
  selectedFamily : String
  familyScore : F64
  gate15Status : String
  diagnosis : String
  severity : String
  confidence : F64
  recommendation : String
  insufficientEvidenceReason : String
  persistenceAgreeCount : ℤ
  persistenceWindowsRequired : ℤ
  persistenceSatisfied : Bool

def addFlag (flags : List String) (flag : String) : List String :=
  if flag ∈ flags then flags else flags ++ [flag]

namespace BlockingExclusions

def insufficientData (r : GateResult) : GateResult :=
  { r with
    diagnosis := "INSUFFICIENT_DATA"
    severity := "LOW"
    confidence := F64.ofInt 0
    observabilityFlags := r.observabilityFlags ++ ["INSUFFICIENT_SAMPLES"]
    gate12Status := "NOT_EVALUATED"
    gate13Status := "NOT_EVALUATED"
    gate14Status := "INSUFFICIENT_EVIDENCE"
    gate15Status := "INSUFFICIENT_EVIDENCE"
    selectedFamily := "NONE" }

def recommendationFor (diagnosis reason : String) : String :=
  if diagnosis = "EXCLUDED_DATA_QUALITY" then
    "Data quality blocked evaluation: check historian collection and " ++
      "transmitter health for this loop's PV/SP/OP feeds."
  else if diagnosis = "EXCLUDED_MODE" then
    "The loop spent too little time in closed-loop control this window. If " ++
      "manual operation was intentional, no action; otherwise check why the " ++
      "operator or logic dropped it out of auto/cascade."
  else if diagnosis = "EXCLUDED_OPERATING_REGION" then
    "PV/OP ran outside the loop's declared operating region. Verify the region " ++
      "limits in the loop's dynamics profile, or investigate the process excursion."
  else if diagnosis = "EXCLUDED_SENSOR" then
    "The PV signal froze for a material share of the window. Check the " ++
      "transmitter and the historian scan/compression settings before trusting " ++
      "any diagnosis on this loop."
  else "Evaluation was blocked (" ++ reason ++ "); resolve the exclusion before acting " ++
    "on any metric from this window."

def settle (status replacement : String) : String :=
  if status = "PENDING" then replacement else status

def block (r : GateResult) (diagnosis reason : String) : GateResult :=
  { r with
    selectedFamily := "NONE"
    familyScore := F64.ofInt 0
    confidence := F64.ofInt 0
    diagnosis := diagnosis
    gate15Status := "INSUFFICIENT_EVIDENCE"
    severity := "LOW"
    insufficientEvidenceReason := reason
    recommendation := recommendationFor diagnosis reason
    gate12Status := settle r.gate12Status "NOT_EVALUATED"
    gate13Status := settle r.gate13Status "NOT_EVALUATED"
    gate14Status := settle r.gate14Status "INSUFFICIENT_EVIDENCE" }

end BlockingExclusions

namespace DiagnosisBands

def familyLabel (family : String) : String :=
  if family = "stiction" ∨ family = "geometry" then "FINAL_ELEMENT_NONLINEARITY"
  else if family = "oscillation" then "OSCILLATION"
  else if family = "effort" then "EXCESSIVE_EFFORT"
  else "NONE"

def leadingHypothesisFor (family : String) (disturbanceContext : Bool) : String :=
  if family = "stiction" ∨ family = "geometry" then "STICTION"
  else if family = "oscillation" then
    if disturbanceContext then "EXTERNAL_DISTURBANCE" else "OSCILLATION_TUNING"
  else if family = "effort" then "EXCESSIVE_EFFORT"
  else "NONE"

/-- `apply`: the band of a confidence. -/
def apply (r : GateResult) (confidence : F64) (label : String) (confirmed : Bool) : GateResult :=
  if F64.lt confidence (F64.ofRat (35 / 100)) then
    { r with diagnosis := "NO_CALL", gate15Status := "INSUFFICIENT_EVIDENCE", severity := "LOW" }
  else if F64.lt confidence (F64.ofRat (55 / 100)) then
    { r with diagnosis := "DETECTED_" ++ label, gate15Status := "SUSPECTED", severity := "LOW" }
  else if F64.lt confidence (F64.ofRat (75 / 100)) then
    { r with diagnosis := "CLASSIFIED_" ++ label, gate15Status := "SUSPECTED", severity := "MEDIUM" }
  else if F64.lt confidence (F64.ofRat (90 / 100)) then
    { r with diagnosis := "SUSPECTED_" ++ label, gate15Status := "SUSPECTED", severity := "HIGH" }
  else if label ≠ "FINAL_ELEMENT_NONLINEARITY" ∨ confirmed then
    { r with diagnosis := "CONFIRMED_" ++ label, gate15Status := "CONFIRMED", severity := "HIGH" }
  else
    { r with
      confidence := F64.min confidence (F64.ofRat (89 / 100))
      diagnosis := "SUSPECTED_" ++ label
      gate15Status := "SUSPECTED"
      severity := "HIGH" }

def disqualifierTexts : List (String × String) :=
  [("EFFORT_BELOW_FLOOR", "actuator effort below floor"),
    ("OP_TRAVEL_BELOW_FLOOR", "OP travel below floor"),
    ("AREA_BELOW_BAND", "phase-portrait area below geometry band"),
    ("AREA_OUT_OF_BAND", "phase-portrait area out of band (artifact)"),
    ("CORNER_NOISE_FLOOR", "corner score not OP-qualified"),
    ("NO_VALID_CYCLE", "no valid oscillation cycle"),
    ("GEOMETRY_ALONE_FORBIDDEN", "geometry alone forbidden for this loop class"),
    ("DISTURBANCE_CONTEXT", "disturbance/interaction context")]

def insufficientEvidenceReason (r : GateResult) (hasVp : Bool) : String :=
  let parts :=
    ((if r.carried.periodStatus ≠ "VALID" ∨ r.carried.completedCycles < 1 then
        ["no valid oscillation cycle"] else []) ++
      (if hasVp then [] else ["valve position unavailable"]) ++
      r.familyDisqualifiers.flatMap fun d =>
        (disqualifierTexts.filter fun t => containsText d t.1).map Prod.snd).eraseDups
  "Insufficient evidence: " ++
    String.intercalate "; " (if parts = [] then ["no diagnosis family qualified"] else parts)

end DiagnosisBands

namespace CplmGateFusionEngine

/-- The record before any decision: the carried inputs and the flags of the health lanes. -/
def start (shortF : ShortFeatures) (longD : LongDiagnostics) (oc : OpenConditions)
    (hl : HealthLanes) : GateResult :=
  let carried := FusionInputs.applyOpenConditions (FusionInputs.copy shortF longD) longD oc
  let flags := if ¬ hl.configured then
    addFlag carried.observabilityFlags "HEALTH_NOT_CONFIGURED" else carried.observabilityFlags
  let flags := if hl.anyLimited then addFlag flags "HEALTH_LIMITED" else flags
  { windowKind := longD.windowKind.getD shortF.windowKind
    windowEndMs := if 0 < longD.windowEndMs then longD.windowEndMs else shortF.windowEndMs
    carried := carried
    observabilityFlags := flags
    familyDisqualifiers := []
    evidence := none
    vpAvailable := false
    gate12Status := "PENDING"
    gate13Status := "PENDING"
    gate13Method := (longD.interaction.map (·.methodId)).getD "LEGACY_FLAG_ONLY"
    gate13Reason := (longD.interaction.map (·.reason)).getD ""
    hasStepTestEvidence := false
    hasPeerLinks := (longD.interaction.map fun i => decide (i.peers ≠ [])).getD false
    gate14Status := "PENDING"
    g14ConfidenceCap := F64.ofRat (89 / 100)
    confirmation := none
    leadingHypothesis := "NONE"
    selectedFamily := "NONE"
    familyScore := F64.ofInt 0
    gate15Status := "PENDING"
    diagnosis := "PENDING"
    severity := "LOW"
    confidence := F64.ofInt 0
    recommendation := ""
    insufficientEvidenceReason := ""
    persistenceAgreeCount := 0
    persistenceWindowsRequired := 0
    persistenceSatisfied := true }

def interactionStatus (state : String) : String × String :=
  if state = "INTERACTION_DETECTED" then ("WARN", "INTERACTION_DETECTED")
  else if state = "NO_INTERACTION" then ("PASS", "")
  else if state = "NOT_CONFIGURED" then ("NOT_EVALUATED", "NO_UPSTREAM_LINKS")
  else ("NOT_EVALUATED", "PEER_UNOBSERVED")

/-- G13 of `stampContextGates`. -/
def stampInteraction (r : GateResult) (hasPeerLinks : Bool) (longD : LongDiagnostics) : GateResult :=
  match longD.interaction with
  | some ia =>
      let stamped := interactionStatus ia.state
      { r with
        gate13Method := ia.methodId
        gate13Reason := ia.reason
        hasPeerLinks := ia.peers ≠ []
        gate13Status := stamped.1
        observabilityFlags := if stamped.2 = "" then r.observabilityFlags
          else addFlag r.observabilityFlags stamped.2 }
  | none =>
      { r with
        gate13Method := "LEGACY_FLAG_ONLY"
        gate13Reason := if hasPeerLinks then "LINK_FLAG_ONLY_NO_ANALYSIS" else "NO_UPSTREAM_LINKS"
        gate13Status := "NOT_EVALUATED"
        hasPeerLinks := hasPeerLinks
        observabilityFlags := addFlag r.observabilityFlags
          (if hasPeerLinks then "G13_LEGACY_FLAG_ONLY" else "NO_UPSTREAM_LINKS") }

/-- G12 of `stampContextGates`. -/
def stampStepTest (r : GateResult) (hasStepTestEvidence : Bool) : GateResult :=
  if hasStepTestEvidence then { r with gate12Status := "PASS", hasStepTestEvidence := true }
  else
    { r with
      gate12Status := "NOT_EVALUATED"
      hasStepTestEvidence := false
      observabilityFlags := addFlag r.observabilityFlags "NO_STEP_TEST" }

def stampMethods (r : GateResult) (longD : LongDiagnostics) : GateResult :=
  let flags := if longD.methodEligibility.any fun m => m.2 = "LIMITED" then
    addFlag r.observabilityFlags "BANDWIDTH_LIMITED" else r.observabilityFlags
  { r with
    vpAvailable := longD.hasVp
    observabilityFlags := if longD.hasVp then flags else addFlag flags "NO_VP" }

def recordDisqualifiers (ev : FusionEvidence) (p : FusionProfile) : List String :=
  (if ev.stictionQualified then [] else ["stiction:FAMILY_DISQUALIFIED"]) ++
    (if ev.oscillationQualified then [] else ["oscillation:FAMILY_DISQUALIFIED"]) ++
    (if ev.effortQualified then [] else ["effort:FAMILY_DISQUALIFIED"]) ++
    (if ev.geometrySelectable then []
      else if ev.geometryEvidenceOk ∧ p.isGeometryDecisiveForbidden ∧ ¬ ev.geometryPrereqsMet then
        ["geometry:GEOMETRY_ALONE_FORBIDDEN"]
      else ["geometry:" ++ if ev.geometryReasons = [] then "FAMILY_DISQUALIFIED"
        else String.intercalate "," ev.geometryReasons])

def qualify (r : GateResult) (ev : FusionEvidence) (conf : Confirmation) (p : FusionProfile) :
    GateResult :=
  { r with
    evidence := some ev
    g14ConfidenceCap := conf.capForFinalElement
    familyDisqualifiers := ev.disqualifiers ++ recordDisqualifiers ev p
    observabilityFlags := if ev.disturbanceContext then
      r.observabilityFlags ++ ["DISTURBANCE_CONTEXT"] else r.observabilityFlags }

def noFamily (r : GateResult) (conf : Confirmation) (hasVp : Bool) (advice : String) : GateResult :=
  let reason := DiagnosisBands.insufficientEvidenceReason r hasVp
  { r with
    selectedFamily := "NONE"
    familyScore := F64.ofInt 0
    confidence := F64.ofInt 0
    diagnosis := "INSUFFICIENT_EVIDENCE"
    gate15Status := "INSUFFICIENT_EVIDENCE"
    severity := "LOW"
    gate14Status := "NOT_APPLICABLE"
    confirmation := some conf.notApplicable
    insufficientEvidenceReason := reason
    recommendation := reason ++ advice }

def families (ev : FusionEvidence) : List (String × F64 × Bool) :=
  [("stiction", ev.familyStiction, ev.stictionQualified),
    ("oscillation", ev.familyOscillation, ev.oscillationQualified),
    ("effort", ev.familyEffort, ev.effortQualified),
    ("geometry", ev.familyGeometry, ev.geometrySelectable)]

def select : List (String × F64 × Bool) → String × F64 × F64 → String × F64 × F64
  | [], best => best
  | (name, score, qualified) :: rest, best =>
      select rest (if qualified ∧ F64.lt best.2.2 score then (name, score, score) else best)

def selected (ev : FusionEvidence) : String × F64 :=
  let best := select (families ev) ("NONE", F64.ofInt 0, F64.ofInt (-1))
  (best.1, best.2.1)

def finalElementClaim (family : String) : Bool := family = "stiction" ∨ family = "geometry"

def stateText : ConfirmationState → String
  | .confirmed => "CONFIRMED"
  | .notConfirmed => "NOT_CONFIRMED"
  | .contradicted => "CONTRADICTED"
  | .notApplicable => "NOT_APPLICABLE"

def classify (r : GateResult) (ev : FusionEvidence) (conf : Confirmation) (hasVp : Bool)
    (family : String) (score : F64) : GateResult :=
  let finalElement := finalElementClaim family
  let confidence := F64.min score (if finalElement then conf.capForFinalElement else F64.ofInt 1)
  let r := { r with
    selectedFamily := family
    familyScore := score
    confidence := confidence
    gate14Status := if finalElement then stateText conf.state else "NOT_APPLICABLE"
    confirmation := some (if finalElement then conf else conf.notApplicable)
    observabilityFlags := if finalElement ∧ conf.state = .contradicted then
      r.observabilityFlags ++ ["VP_TRACKING_CONTRADICTS"] else r.observabilityFlags
    leadingHypothesis := DiagnosisBands.leadingHypothesisFor family ev.disturbanceContext }
  { DiagnosisBands.apply r confidence (DiagnosisBands.familyLabel family)
      (finalElement ∧ conf.state = .confirmed) with
    recommendation := if hasVp then
      "Review positioner/HART data and perform controlled bump test before retuning."
      else "Check VP/positioner data or perform an approved bump/stroke test before retuning." }

/-- The decision over a window that nothing excludes. -/
def decideFamily (r : GateResult) (longD : LongDiagnostics) (p : FusionProfile) : GateResult :=
  let conf := Confirmation.evaluate longD p
  let ev := FusionEvidence.evaluate r.carried longD p
  let r := qualify r ev conf p
  if ¬ (families ev).any (·.2.2) then
    noFamily r conf longD.hasVp " Bind VP or obtain a valid oscillation period before diagnosing."
  else
    let chosen := selected ev
    if chosen.1 = "geometry" ∧ p.isGeometryDecisiveForbidden ∧
        (¬ ev.geometryPrereqsMet ∨ ¬ ev.stictionQualified) then
      noFamily
        { r with
          familyDisqualifiers := r.familyDisqualifiers ++ ["geometry:GEOMETRY_ALONE_FORBIDDEN"] }
        conf longD.hasVp " Geometry alone cannot diagnose valve nonlinearity on this loop class."
    else classify r ev conf longD.hasVp chosen.1 chosen.2

def fuse (shortF : ShortFeatures) (longD : LongDiagnostics) (hasStepTestEvidence hasPeerLinks : Bool)
    (p : FusionProfile) (oc : OpenConditions) (hl : HealthLanes) : GateResult :=
  let r := { start shortF longD oc hl with persistenceWindowsRequired := p.persistenceWindows }
  if ¬ shortF.sufficientData then BlockingExclusions.insufficientData r
  else if equalsIgnoreCase "FAIL" shortF.gate0Status then
    BlockingExclusions.block r "EXCLUDED_DATA_QUALITY" "G0 data quality FAIL"
  else if equalsIgnoreCase "EXCLUDED" shortF.gate1Status then
    BlockingExclusions.block r "EXCLUDED_MODE" "G1 mode/service EXCLUDED"
  else if ¬ shortF.operatingRegionValid ∨ equalsIgnoreCase "FAIL" shortF.gate2rStatus then
    BlockingExclusions.block r "EXCLUDED_OPERATING_REGION" "G2r operating region invalid"
  else if hl.pvIneligible then
    BlockingExclusions.block r "EXCLUDED_INSTRUMENT_HEALTH"
      ("PV instrument INELIGIBLE: " ++ hl.pvReason)
  else if longD.freezeMaterial then
    BlockingExclusions.block r "EXCLUDED_SENSOR" "G11 sensor freeze dominant"
  else
    decideFamily
      (stampMethods (stampStepTest (stampInteraction r hasPeerLinks longD) hasStepTestEvidence)
        longD) longD p

def need (p : FusionProfile) : ℤ := max 1 p.persistenceMinAgree

def lookBack (p : FusionProfile) : ℤ := max (need p) p.persistenceWindows

def agreeCount (current : String) (priorFamilies : List String) (p : FusionProfile) : ℤ :=
  1 + ((priorFamilies.drop (priorFamilies.length - (lookBack p - 1).toNat)).count current : ℕ)

def applyPersistence (r : GateResult) (priorFamilies : List String) (p : FusionProfile) :
    GateResult :=
  let r := { r with persistenceWindowsRequired := lookBack p }
  if r.selectedFamily = "NONE" then
    { r with persistenceAgreeCount := 0, persistenceSatisfied := true }
  else
    let agree := agreeCount r.selectedFamily priorFamilies p
    let satisfied : Bool := need p ≤ agree
    let r := { r with persistenceAgreeCount := agree, persistenceSatisfied := satisfied }
    if ¬ satisfied ∧ (r.gate15Status = "SUSPECTED" ∨ r.gate15Status = "CONFIRMED") then
      { r with
        diagnosis := "DETECTED_" ++ DiagnosisBands.familyLabel r.selectedFamily
        gate15Status := "SUSPECTED"
        severity := "LOW"
        confidence := if F64.lt (F64.ofRat (54 / 100)) r.confidence then F64.ofRat (54 / 100)
          else r.confidence
        observabilityFlags := r.observabilityFlags ++ ["PERSISTENCE_CAP"] }
    else r

end CplmGateFusionEngine

end OpenBridge.GateFusion
