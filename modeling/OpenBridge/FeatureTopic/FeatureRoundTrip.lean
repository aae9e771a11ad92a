import OpenBridge.FeatureTopic.CplmLongDiagnosticsResult
import OpenBridge.GateFusion.CplmGateFusionEngine

/-!
# Feature topics: the records the calculators emit

`computeShortFeatures` and `computeLongDiagnostics` as far as the record they return: what is stamped
before the samples are counted, the early return on too few of them, and what a full computation sets.
The measured values themselves are taken as given.
-/

namespace OpenBridge.FeatureTopic

open OpenBridge.Foundation

/-- When a calculator sets a field: before it counts the samples, after, or never. -/
inductive Stage where
  | header | computed | constant
  deriving DecidableEq

/-- The fields of a record: those of the header as measured, the computed ones where there were enough
samples, and the rest as in a new record. -/
def fill {ι : Type} (t : FieldTable ι) (stage : ι → Stage) (enough : Bool) (measured : t.Record) :
    t.Record := fun f =>
  match stage f with
  | .header => measured f
  | .computed => if enough then measured f else t.initial f
  | .constant => t.initial f

theorem holds_fill {ι : Type} {t : FieldTable ι} {stage : ι → Stage} {enough : Bool}
    {measured : t.Record} (h : t.Holds measured) (hinitial : t.Holds t.initial) :
    t.Holds (fill t stage enough measured) := by
  intro f
  unfold fill
  split
  · exact h f
  · split
    · exact h f
    · exact hinitial f
  · exact hinitial f

def ShortField.stage : ShortField → Stage
  | .loopId | .assetUuid | .windowKind | .windowStartMs | .windowEndMs | .samplePeriodSec
  | .expectedSampleCount | .sampleCount | .completeness | .badQualityPct | .unknownQualityPct
  | .duplicateTimestamps | .samplingJitter | .gapCount | .maxGapS | .gate0Status | .gate0Reason
  | .calculationVersion | .dynamicsProfileVersion | .sourceCommit | .jarSha256 | .bundleHash
  | .contextRevision | .evaluationState | .evaluationReason | .datasetHash | .dynamicsClass
  | .gateProfileId | .loopType => .header
  | .contractVersion | .purpose | .resultRevision => .constant
  | _ => .computed

def LongField.stage : LongField → Stage
  | .loopId | .assetUuid | .site | .windowKind | .windowStartMs | .windowEndMs | .sampleCount
  | .calculationVersion | .dynamicsProfileVersion | .sourceCommit | .jarSha256 | .bundleHash
  | .contextRevision | .evaluationState | .evaluationReason | .datasetHash | .dynamicsClass
  | .profileSource | .stictionSignal | .gateProfileId | .dynamicClass | .loopType => .header
  | .contractVersion | .purpose | .resultRevision => .constant
  | _ => .computed

structure ShortMeasurement where
  value : CplmShortFeatureResult.table.Record
  activityRatioNorm : Option F64
  methodRunIds : Dict String String

namespace ShortMeasurement

def gate0Status (m : ShortMeasurement) : String := m.value .gate0Status

def sampleCount (m : ShortMeasurement) : ℤ := m.value .sampleCount

def enough (m : ShortMeasurement) : Bool := m.gate0Status ≠ "FAIL" ∧ 10 ≤ m.sampleCount

/-- `sufficientData`, as a field. -/
def sufficientData (m : ShortMeasurement) : ShortField.sufficientData.kind.Value := m.enough

end ShortMeasurement

def computeShortFeatures (m : ShortMeasurement) : CplmShortFeatureResult :=
  { value := Function.update (fill CplmShortFeatureResult.table ShortField.stage m.enough m.value)
      .sufficientData m.sufficientData
    activityRatioNorm := if m.enough then m.activityRatioNorm else none
    methodRunIds := m.methodRunIds
    analysisRunId := none }

structure LongMeasurement where
  value : CplmLongDiagnosticsResult.table.Record
  cornerScoreRaw : F64
  satWarnOccupancy : F64
  methodRunIds : Dict String String
  dwellEvents : List DwellEvent
  freezeEvents : List FreezeEvent
  observabilityFlags : List String
  interaction : InteractionSummary
  methodEligibility : Dict String Verdict

namespace LongMeasurement

/-- `cornerScore`, as a field: the raw score. -/
def cornerScore (m : LongMeasurement) : LongField.cornerScore.kind.Value := m.cornerScoreRaw

def sampleCount (m : LongMeasurement) : ℤ := m.value .sampleCount

def evaluationState (m : LongMeasurement) : String := m.value .evaluationState

def saturationPct (m : LongMeasurement) : F64 := m.value .saturationPct

def satLimitDwellS (m : LongMeasurement) : F64 := m.value .satLimitDwellS

def limitDwellWarnS (m : LongMeasurement) : F64 := m.value .limitDwellWarnS

def satCyclingPattern (m : LongMeasurement) : Bool := m.value .satCyclingPattern

def gate10Status (m : LongMeasurement) : String :=
  if F64.le m.satWarnOccupancy m.saturationPct ∨ F64.le m.limitDwellWarnS m.satLimitDwellS ∨
      m.satCyclingPattern then "WARN"
  else "PASS"

end LongMeasurement

/-- `computeLongDiagnostics`: with fewer than ten samples only the header and the identity are set. -/
def computeLongDiagnostics (m : LongMeasurement) : CplmLongDiagnosticsResult :=
  if m.sampleCount < 10 then
    { CplmLongDiagnosticsResult.ofValues
        (fill CplmLongDiagnosticsResult.table LongField.stage false m.value) with
      methodRunIds := m.methodRunIds
      observabilityFlags := if m.evaluationState = "WAITING" then ["WARMUP"] else [] }
  else
    { value := Function.update (fill CplmLongDiagnosticsResult.table LongField.stage true m.value)
        .cornerScore m.cornerScore
      cornerScoreRaw := m.cornerScoreRaw
      gate10Status := m.gate10Status
      configurationVersion := ""
      methodRunIds := m.methodRunIds
      analysisRunId := none
      dwellEvents := m.dwellEvents
      freezeEvents := m.freezeEvents
      observabilityFlags := m.observabilityFlags
      interaction := some m.interaction
      methodEligibility := m.methodEligibility
      alignedShort := none }

def emit (m : LongMeasurement) (s : ShortMeasurement) : CplmLongDiagnosticsResult :=
  { computeLongDiagnostics m with alignedShort := some (computeShortFeatures s) }

/-! ## What the records look like -/

theorem settled_computeShortFeatures (s : ShortMeasurement) : (computeShortFeatures s).Settled := by
  have hflag : (computeShortFeatures s).sufficientData = s.enough := rfl
  constructor
  · intro h f hmetric
    have hne : f ≠ .sufficientData := by
      rintro rfl
      cases hmetric
    have hstage : f.stage = .computed := by
      cases f <;> first | rfl | cases hmetric
    have henough : s.enough = false := hflag.symm.trans h
    change Function.update (fill CplmShortFeatureResult.table ShortField.stage s.enough s.value)
      .sufficientData s.sufficientData f = f.initial
    rw [Function.update_of_ne hne]
    unfold fill
    rw [hstage, henough]
    rfl
  · intro h
    have henough : s.enough = false := hflag.symm.trans h
    unfold computeShortFeatures
    dsimp only
    rw [henough]
    rfl

theorem settled_emit (m : LongMeasurement) (s : ShortMeasurement) : (emit m s).Settled := by
  constructor
  · have hlegacy : (emit m s).value .cornerScore = (emit m s).cornerScoreRaw := by
      unfold emit computeLongDiagnostics
      split
      · rfl
      · rfl
    by_cases hpositive : F64.lt (F64.ofInt 0) (emit m s).cornerScoreRaw = true
    · exact if_pos hpositive
    · exact (if_neg hpositive).trans hlegacy
  · intro t ht
    cases ht
    exact settled_computeShortFeatures s

theorem pending_emit_iff (m : LongMeasurement) (s : ShortMeasurement) :
    (emit m s).gate10Status = "PENDING" ↔ m.sampleCount < 10 := by
  unfold emit computeLongDiagnostics
  split
  · rename_i hfew
    exact iff_of_true rfl hfew
  · rename_i hmany
    refine iff_of_false ?_ hmany
    change m.gate10Status ≠ "PENDING"
    unfold LongMeasurement.gate10Status
    split <;> decide

structure ShortMeasurement.Finite (m : ShortMeasurement) : Prop where
  value : CplmShortFeatureResult.table.Holds m.value
  ratio : ∀ a, m.activityRatioNorm = some a → a.IsFinite

structure LongMeasurement.Finite (m : LongMeasurement) : Prop where
  value : CplmLongDiagnosticsResult.table.Holds m.value
  corner : m.cornerScoreRaw.IsFinite
  dwell : ∀ e ∈ m.dwellEvents, e.Finite
  freeze : ∀ e ∈ m.freezeEvents, e.Finite
  interaction : m.interaction.Finite

theorem finite_computeShortFeatures {s : ShortMeasurement} (h : s.Finite) :
    (computeShortFeatures s).Finite := by
  have hfill : CplmShortFeatureResult.table.Holds
      (fill CplmShortFeatureResult.table ShortField.stage s.enough s.value) :=
    holds_fill h.value CplmShortFeatureResult.holds_initial
  constructor
  · intro f
    by_cases hf : f = .sufficientData
    · subst hf
      exact trivial
    · have hupdate : (computeShortFeatures s).value f =
        fill CplmShortFeatureResult.table ShortField.stage s.enough s.value f :=
        Function.update_of_ne hf ..
      rw [hupdate]
      exact hfill f
  · intro a ha
    have hratio : (if s.enough then s.activityRatioNorm else none) = some a := ha
    split at hratio
    · exact h.ratio a hratio
    · cases hratio

theorem finite_emit {m : LongMeasurement} {s : ShortMeasurement} (h : m.Finite) (hs : s.Finite) :
    (emit m s).Finite := by
  have hshort := finite_computeShortFeatures hs
  have hfill : ∀ enough, CplmLongDiagnosticsResult.table.Holds
      (fill CplmLongDiagnosticsResult.table LongField.stage enough m.value) := fun _ =>
    holds_fill h.value CplmLongDiagnosticsResult.holds_initial
  have haligned : ∀ t, some (computeShortFeatures s) = some t → t.Finite := by
    rintro t ⟨⟩
    exact hshort
  unfold emit computeLongDiagnostics
  split
  · exact ⟨hfill false, F64.ofRat_isFinite (by decide +kernel), by rintro _ ⟨⟩, by rintro _ ⟨⟩,
      by rintro _ ⟨⟩, haligned⟩
  · refine ⟨?_, h.corner, h.dwell, h.freeze, ?_, haligned⟩
    · intro f
      by_cases hf : f = .cornerScore
      · subst hf
        exact h.corner
      · have hupdate : Function.update (fill CplmLongDiagnosticsResult.table LongField.stage true
            m.value) .cornerScore m.cornerScore f =
            fill CplmLongDiagnosticsResult.table LongField.stage true m.value f :=
          Function.update_of_ne hf ..
        change (CplmLongDiagnosticsResult.table.kind f).Holds (Function.update (fill
          CplmLongDiagnosticsResult.table LongField.stage true m.value) .cornerScore m.cornerScore f)
        rw [hupdate]
        exact hfill true f
    · rintro t ⟨⟩
      exact h.interaction

/-!
# Feature topics: what fusion sees of a record

A record that the calculators emit survives the topic when fusion sees the same after the topic as
before it: every field that it reads, and so the same verdict in every context.  A short record
always survives.  A long record survives exactly when its window has ten samples: with fewer gate 10
is not judged, and the reader judges it (`record_survives_iff`).
-/

open OpenBridge.GateFusion (FusionProfile OpenConditions HealthLanes)

def CplmShortFeatureResult.forFusion (r : CplmShortFeatureResult) : GateFusion.ShortFeatures :=
  { windowKind := r.value .windowKind
    windowEndMs := r.value .windowEndMs
    sufficientData := r.value .sufficientData
    gate0Status := r.value .gate0Status
    gate1Status := r.value .gate1Status
    gate2rStatus := r.value .gate2rStatus
    operatingRegionValid := r.value .operatingRegionValid
    effortRatio := r.value .effortRatio
    reversalCount := r.value .reversalCount
    gate4Status := r.value .gate4Status }

def InteractionSummary.forFusion (s : InteractionSummary) : GateFusion.InteractionSummary :=
  { methodId := s.methodId
    state := s.state
    reason := s.reason
    peers := s.peers.map PeerRow.peerId }

namespace CplmLongDiagnosticsResult

/-- What fusion reads of the long record for its verdict. -/
def forFusion (r : CplmLongDiagnosticsResult) : GateFusion.LongDiagnostics :=
  { windowKind := some (r.value .windowKind)
    windowEndMs := r.value .windowEndMs
    hasVp := r.value .hasVp
    effortRatio := r.value .effortRatio
    acfRegularity := r.value .acfRegularity
    gate5Status := r.value .gate5Status
    fftPeakRatio := r.value .fftPeakRatio
    harmonicAmplitudeRatio := r.value .harmonicAmplitudeRatio
    gate6Status := r.value .gate6Status
    triangularity := r.value .triangularity
    completedCycles := r.value .completedCycles
    gate7Status := r.value .gate7Status
    horchOddness := r.value .horchOddness
    gate8Status := r.value .gate8Status
    phaseAreaNormPerCycle := r.value .phaseAreaNormPerCycle
    cornerScore := r.value .cornerScore
    cornerScoreRaw := r.cornerScoreRaw
    cornerScoreQualified := r.value .cornerScoreQualified
    periodStatus := some (r.value .periodStatus)
    opRangePct := r.value .opRangePct
    gate10Status := r.gate10Status
    satCyclingPattern := r.value .satCyclingPattern
    gate11Status := r.value .gate11Status
    gate11Reason := r.value .gate11Reason
    freezeMaterial := r.value .freezeMaterial
    vpEligibleSamples := r.value .vpEligibleSamples
    vpTrackingErrorP95Pp := r.value .vpTrackingErrorP95Pp
    vpNonFollowingDwellS := r.value .vpNonFollowingDwellS
    vpTrackingHealthy := r.value .vpTrackingHealthy
    observabilityFlags := r.observabilityFlags
    interaction := r.interaction.map InteractionSummary.forFusion
    methodEligibility := r.methodEligibility.entries.map fun e => (e.1, e.2.state)
    alignedShort := r.alignedShort.map CplmShortFeatureResult.forFusion }

/-- The record without the one field that fusion never reads, the freeze fraction. -/
def readByFusion (r : CplmLongDiagnosticsResult) : CplmLongDiagnosticsResult :=
  { r with value := Function.update r.value .freezeFraction (LongField.initial .freezeFraction) }

theorem readByFusion_afterTopic (r : CplmLongDiagnosticsResult) :
    r.afterTopic.readByFusion = r.readByFusion ↔ r.gate10Status ≠ "PENDING" := by
  constructor
  · intro h hpending
    have hgate := congrArg gate10Status h
    change (if r.gate10Status = "PENDING" then saturationStatus (r.value .saturationPct)
      else r.gate10Status) = r.gate10Status at hgate
    rw [if_pos hpending, hpending] at hgate
    unfold saturationStatus at hgate
    split at hgate
    · exact absurd hgate (by decide)
    · exact absurd hgate (by decide)
  · intro h
    have hgate : r.afterTopic.gate10Status = r.gate10Status := if_neg h
    unfold readByFusion
    rw [hgate]
    exact CplmLongDiagnosticsResult.ext (Function.update_idem ..) rfl rfl rfl rfl rfl rfl rfl rfl rfl
      rfl rfl

end CplmLongDiagnosticsResult

/-! ## The verdict -/

/-- The verdict of fusion: its diagnosis, severity and confidence, and the status of every gate. -/
structure FusedVerdict where
  diagnosis : String
  severity : String
  confidence : F64
  gateStatuses : List String

def fusedVerdict (shortF : CplmShortFeatureResult) (longD : CplmLongDiagnosticsResult)
    (hasStepTestEvidence hasPeerLinks : Bool) (p : FusionProfile) (oc : OpenConditions)
    (hl : HealthLanes) : FusedVerdict :=
  let r := GateFusion.CplmGateFusionEngine.fuse shortF.forFusion longD.forFusion
    hasStepTestEvidence hasPeerLinks p oc hl
  { diagnosis := r.diagnosis
    severity := r.severity
    confidence := r.confidence
    gateStatuses := [shortF.value .gate0Status, shortF.value .gate1Status, shortF.value .gate2Status,
      shortF.value .gate2rStatus, shortF.value .gate3Status, r.carried.gate4Status,
      r.carried.gate5Status, r.carried.gate6Status, r.carried.gate7Status, r.carried.gate8Status,
      longD.value .gate9Status, r.carried.gate10Status, r.carried.gate11Status, r.gate12Status,
      r.gate13Status, r.gate14Status, r.gate15Status] }

theorem fusedVerdict_readByFusion (shortF : CplmShortFeatureResult)
    (longD : CplmLongDiagnosticsResult) :
    fusedVerdict shortF longD.readByFusion = fusedVerdict shortF longD := rfl

section Carried

open GateFusion GateFusion.CplmGateFusionEngine

theorem carried_apply (r : GateResult) (confidence : F64) (label : String) (confirmed : Bool) :
    (DiagnosisBands.apply r confidence label confirmed).carried = r.carried := by
  unfold DiagnosisBands.apply
  split_ifs <;> rfl

theorem carried_decideFamily (r : GateResult) (longD : GateFusion.LongDiagnostics)
    (p : FusionProfile) : (decideFamily r longD p).carried = r.carried := by
  unfold decideFamily
  dsimp only
  split
  · rfl
  · split
    · rfl
    · exact carried_apply ..

theorem carried_stampInteraction (r : GateResult) (hasPeerLinks : Bool)
    (longD : GateFusion.LongDiagnostics) :
    (stampInteraction r hasPeerLinks longD).carried = r.carried := by
  unfold stampInteraction
  split <;> rfl

theorem carried_stampStepTest (r : GateResult) (hasStepTestEvidence : Bool) :
    (stampStepTest r hasStepTestEvidence).carried = r.carried := by
  unfold stampStepTest
  split <;> rfl

theorem carried_fuse (shortF : GateFusion.ShortFeatures) (longD : GateFusion.LongDiagnostics)
    (hasStep hasPeers : Bool) (p : FusionProfile) (oc : OpenConditions) (hl : HealthLanes) :
    (fuse shortF longD hasStep hasPeers p oc hl).carried =
      FusionInputs.applyOpenConditions (FusionInputs.copy shortF longD) longD oc := by
  unfold fuse
  dsimp only
  split_ifs
  -- every exclusion, and the window with too little data
  any_goals rfl
  rw [carried_decideFamily]
  change (stampStepTest _ hasStep).carried = _
  rw [carried_stampStepTest, carried_stampInteraction]
  rfl

theorem gate10_fuse {oc : OpenConditions} (h : oc.hasOpenLimit = false)
    (shortF : GateFusion.ShortFeatures) (longD : GateFusion.LongDiagnostics)
    (hasStep hasPeers : Bool) (p : FusionProfile) (hl : HealthLanes) :
    (fuse shortF longD hasStep hasPeers p oc hl).carried.gate10Status = longD.gate10Status := by
  rw [carried_fuse]
  unfold FusionInputs.applyOpenConditions FusionInputs.applyOpenLimit
  rw [if_neg (by rw [h]; decide)]
  unfold FusionInputs.applyOpenFreeze
  split <;> rfl

end Carried

/-- The records survive the topic: fusion reads the same of them, and its verdict is the same in every
context. -/
structure SurvivesTopic (shortF : CplmShortFeatureResult) (longD : CplmLongDiagnosticsResult) :
    Prop where
  short : CplmShortFeatureResult.fromJson shortF.toJson = shortF
  long : (CplmLongDiagnosticsResult.fromJson longD.toJson).readByFusion = longD.readByFusion
  verdict : fusedVerdict (CplmShortFeatureResult.fromJson shortF.toJson)
    (CplmLongDiagnosticsResult.fromJson longD.toJson) = fusedVerdict shortF longD

theorem fromJson_emit {m : LongMeasurement} {s : ShortMeasurement} (hm : m.Finite) (hs : s.Finite) :
    CplmShortFeatureResult.fromJson (computeShortFeatures s).toJson = computeShortFeatures s ∧
      CplmLongDiagnosticsResult.fromJson (emit m s).toJson = (emit m s).afterTopic :=
  ⟨CplmShortFeatureResult.short_fromJson_toJson (settled_computeShortFeatures s)
      (finite_computeShortFeatures hs),
    CplmLongDiagnosticsResult.long_fromJson_toJson (settled_emit m s) (finite_emit hm hs)⟩

theorem gate10_of_few {m : LongMeasurement} {s : ShortMeasurement} (h : m.sampleCount < 10) :
    (emit m s).gate10Status = "PENDING" ∧ (emit m s).afterTopic.gate10Status = "PASS" := by
  have hpending := (pending_emit_iff m s).mpr h
  have hsat : (emit m s).value .saturationPct = LongField.initial .saturationPct := by
    unfold emit computeLongDiagnostics
    rw [if_pos h]
    rfl
  refine ⟨hpending, (if_pos hpending).trans ?_⟩
  rw [hsat]
  decide +kernel

theorem verdict_of_few {m : LongMeasurement} {s : ShortMeasurement} (h : m.sampleCount < 10)
    {oc : OpenConditions} (hoc : oc.hasOpenLimit = false) (shortF : CplmShortFeatureResult)
    (hasStep hasPeers : Bool) (p : FusionProfile) (hl : HealthLanes) :
    fusedVerdict shortF (emit m s).afterTopic hasStep hasPeers p oc hl ≠
      fusedVerdict shortF (emit m s) hasStep hasPeers p oc hl := by
  have hfuse := fun longD : CplmLongDiagnosticsResult =>
    gate10_fuse hoc shortF.forFusion longD.forFusion hasStep hasPeers p hl
  obtain ⟨hbefore, hafter⟩ := gate10_of_few (s := s) h
  intro heq
  have hgate := congrArg (fun v : FusedVerdict => v.gateStatuses[11]?) heq
  have hgate := Option.some.inj hgate
  rw [hfuse, hfuse] at hgate
  exact absurd (hafter.symm.trans (hgate.trans hbefore)) (by decide)

/-! ## A minute of samples -/

def minuteShort (sampleCount : ℤ) (completeness : ℚ) (gate0Status gate0Reason : String) :
    ShortMeasurement :=
  { value := fun
      | .loopId => "FIC-101"
      | .windowKind => "4h"
      | .windowEndMs => (60000 : ℤ)
      | .samplePeriodSec => F64.ofRat 5
      | .expectedSampleCount => (12 : ℤ)
      | .sampleCount => sampleCount
      | .completeness => F64.ofRat completeness
      | .maxGapS => F64.ofRat 5
      | .gate0Status => gate0Status
      | .gate0Reason => gate0Reason
      | f => f.initial
    activityRatioNorm := none
    methodRunIds := Dict.empty }

def minuteLong (sampleCount : ℤ) : LongMeasurement :=
  { value := fun
      | .loopId => "FIC-101"
      | .windowKind => "4h"
      | .windowEndMs => (60000 : ℤ)
      | .sampleCount => sampleCount
      | f => f.initial
    cornerScoreRaw := F64.ofInt 0
    satWarnOccupancy := F64.ofRat (5 / 100)
    methodRunIds := Dict.empty
    dwellEvents := []
    freezeEvents := []
    observabilityFlags := ["NO_VP"]
    interaction := ⟨InteractionSummary.defaultMethodId, "NOT_CONFIGURED", "NO_PEER_LINKS",
      F64.ofInt 0, F64.ofInt 0, [], [], 0⟩
    methodEligibility := Dict.empty }

theorem finite_minuteShort {n : ℤ} {completeness : ℚ} (gate0Status gate0Reason : String)
    (hn : -2 ^ 31 ≤ n ∧ n < 2 ^ 31) (hc : (Double.ofRat completeness).isFinite = true) :
    (minuteShort n completeness gate0Status gate0Reason).Finite := by
  have h5 : (F64.ofRat 5).IsFinite := F64.ofRat_isFinite (by decide +kernel)
  constructor
  · intro f
    cases f with
    | sampleCount => exact hn
    | completeness => exact F64.ofRat_isFinite hc
    | samplePeriodSec => exact h5
    | maxGapS => exact h5
    | windowEndMs => exact (by decide : (-2 ^ 63 : ℤ) ≤ 60000 ∧ (60000 : ℤ) < 2 ^ 63)
    | expectedSampleCount => exact (by decide : (-2 ^ 31 : ℤ) ≤ 12 ∧ (12 : ℤ) < 2 ^ 31)
    | _ => first | exact trivial | exact CplmShortFeatureResult.holds_initial _
  · rintro a ⟨⟩

theorem finite_minuteLong {n : ℤ} (hn : -2 ^ 31 ≤ n ∧ n < 2 ^ 31) : (minuteLong n).Finite := by
  have h0 : (F64.ofInt 0).IsFinite := F64.ofRat_isFinite (by decide +kernel)
  constructor
  · intro f
    cases f with
    | sampleCount => exact hn
    | windowEndMs => exact (by decide : (-2 ^ 63 : ℤ) ≤ 60000 ∧ (60000 : ℤ) < 2 ^ 63)
    | _ => first | exact trivial | exact CplmLongDiagnosticsResult.holds_initial _
  · exact h0
  · rintro e ⟨⟩
  · rintro e ⟨⟩
  · exact ⟨h0, h0, by rintro p ⟨⟩, FieldKind.holds_zero .long⟩

/-! ## The records that survive -/

/-- Records of finite numbers survive the topic exactly when the long window has ten samples. -/
theorem record_survives_iff (m : LongMeasurement) (s : ShortMeasurement) (hm : m.Finite) (hs : s.Finite) :
    SurvivesTopic (computeShortFeatures s) (emit m s) ↔ 10 ≤ m.sampleCount := by
  obtain ⟨hshort, hlong⟩ := fromJson_emit hm hs
  have hpending := pending_emit_iff m s
  have hread := CplmLongDiagnosticsResult.readByFusion_afterTopic (emit m s)
  constructor
  · intro h
    have hgate := h.long
    rw [hlong, hread, Ne, hpending] at hgate
    exact not_lt.mp hgate
  · intro h
    have hsame := hread.mpr fun hp => absurd (hpending.mp hp) (not_lt.mpr h)
    refine ⟨hshort, by rw [hlong, hsame], ?_⟩
    rw [hshort, hlong, ← fusedVerdict_readByFusion, hsame, fusedVerdict_readByFusion]

theorem record_survives_twelve_samples :
    SurvivesTopic (computeShortFeatures (minuteShort 12 1 "PASS" ""))
      (emit (minuteLong 12) (minuteShort 12 1 "PASS" "")) :=
  (record_survives_iff (minuteLong 12) (minuteShort 12 1 "PASS" "") (finite_minuteLong (by decide))
    (finite_minuteShort _ _ (by decide) (by decide +kernel))).mpr (by decide)

/-- Of three samples gate 10 is never judged, and the record is read with a gate 10 that passed: in
every context without an open limit the verdict is another one. -/
theorem three_samples_pass_gate10 :
    ¬ SurvivesTopic (computeShortFeatures (minuteShort 3 (1 / 4) "FAIL" "INCOMPLETE"))
        (emit (minuteLong 3) (minuteShort 3 (1 / 4) "FAIL" "INCOMPLETE")) ∧
      ∀ (hasStep hasPeers : Bool) (p : FusionProfile) (oc : OpenConditions) (hl : HealthLanes),
        oc.hasOpenLimit = false →
        fusedVerdict (computeShortFeatures (minuteShort 3 (1 / 4) "FAIL" "INCOMPLETE"))
            (CplmLongDiagnosticsResult.fromJson
              (emit (minuteLong 3) (minuteShort 3 (1 / 4) "FAIL" "INCOMPLETE")).toJson)
            hasStep hasPeers p oc hl ≠
          fusedVerdict (computeShortFeatures (minuteShort 3 (1 / 4) "FAIL" "INCOMPLETE"))
            (emit (minuteLong 3) (minuteShort 3 (1 / 4) "FAIL" "INCOMPLETE"))
            hasStep hasPeers p oc hl := by
  have hfew : (minuteLong 3).sampleCount < 10 := by decide
  have hm : (minuteLong 3).Finite := finite_minuteLong (by decide)
  have hs : (minuteShort 3 (1 / 4) "FAIL" "INCOMPLETE").Finite :=
    finite_minuteShort _ _ (by decide) (by decide +kernel)
  obtain ⟨-, hlong⟩ := fromJson_emit hm hs
  constructor
  · intro h
    have hgate := congrArg CplmLongDiagnosticsResult.gate10Status h.long
    rw [hlong] at hgate
    obtain ⟨hbefore, hafter⟩ :=
      gate10_of_few (s := minuteShort 3 (1 / 4) "FAIL" "INCOMPLETE") hfew
    exact absurd (hafter.symm.trans (hgate.trans hbefore)) (by decide)
  · intro hasStep hasPeers p oc hl hoc
    rw [hlong]
    exact verdict_of_few hfew hoc _ hasStep hasPeers p hl

end OpenBridge.FeatureTopic
