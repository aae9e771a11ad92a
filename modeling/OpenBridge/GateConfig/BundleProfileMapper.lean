import OpenBridge.Foundation.Json

/-!
# Gate configuration: which property becomes which engine setting

`BundleProfileMapper`: the table of the properties a build can apply to a loop's profile, and the
conversions of their values.  Each field of the profile has its own type of values, so a row of the
table cannot write a role into a number.
-/

namespace OpenBridge.GateConfig

open OpenBridge.Foundation

inductive GateRole where
  | blocking
  | primary
  | supporting
  | displayOnly
  deriving DecidableEq

/-- The fields of `CplmLoopDynamicsProfile` that a property can set. -/
inductive ProfileField where
  | g0CoverageMin
  | g0BadFractionMax
  | g1AutoFractionMin
  | spStabilityBandPvEu
  | spStabilityBandSpanFraction
  | regionPvMin
  | regionPvMax
  | regionOpMin
  | regionOpMax
  | goodErrorBandPctOfSpan
  | goodErrorPctPassMin
  | g4ActivityWarnRatio
  | g4ActivityHighRatio
  | opDeadbandPct
  | tauMinS
  | tauMaxS
  | minValidCycles
  | minSamplesPerPeriod
  | acfRegularityMin
  | fftPeakToMedianMin
  | g6SegmentSamples
  | g6OverlapFraction
  | shapeRole
  | g7ShapeScoreHigh
  | g8AsymmetryDisplayThreshold
  | horchRole
  | geometryRole
  | phaseAreaPerCycleLo
  | phaseAreaPerCycleHi
  | cornerAngleDeg
  | opTravelFloorPct
  | priorGeometry
  | saturationRole
  | limitTolerancePp
  | limitDwellWarnS
  | satWarnOccupancy
  | nonfollowingErrorPp
  | nonfollowingDwellS
  | freezeToleranceEu
  | freezeDwellS
  | vpMaxAgeS
  | g13LagMaxS
  | g13CoherenceMin
  | g13MinCompatibleSupportS
  | g13MaxPeers
  | recoverySupportS
  | minNonGeometryEvidences
  | persistenceWindows
  deriving DecidableEq

namespace ProfileField

inductive Kind where
  | number
  | integer
  | role
  deriving DecidableEq

def kind : ProfileField → Kind
  | minValidCycles | minSamplesPerPeriod | g6SegmentSamples | g13MaxPeers |
    minNonGeometryEvidences | persistenceWindows => .integer
  | shapeRole | horchRole | geometryRole | saturationRole => .role
  | _ => .number

def Kind.Value : Kind → Type
  | .number => Option Double
  | .integer => ℤ
  | .role => GateRole

instance : (k : Kind) → DecidableEq k.Value
  | .number => inferInstanceAs (DecidableEq (Option Double))
  | .integer => inferInstanceAs (DecidableEq ℤ)
  | .role => inferInstanceAs (DecidableEq GateRole)

abbrev Value (f : ProfileField) : Type := f.kind.Value

end ProfileField

structure CplmLoopDynamicsProfile where
  gateProfileId : Option String
  values : (f : ProfileField) → f.Value
  bundleHash : Option String
  bundleEpoch : ℤ
  bundleEffectiveFromMs : ℤ
  bundleChangeClass : Option String
  bundleResponseValues : Option (Dict String Double)

namespace BundleProfileMapper

/-! ## The conversions -/

def finiteNumber (v : Json) (property : String) : Except String Double :=
  match v with
  | .number n =>
      if n.toDouble.isFinite then .ok n.toDouble
      else .error ("'" ++ property ++ "' must be finite")
  | _ => .error ("'" ++ property ++ "' must be a number, got " ++ v.nodeType)

/-- `num(v, n)`. -/
def num (v : Json) (property : String) : Except String (Option Double) :=
  (finiteNumber v property).map some

/-- `num(v, n) * 100.0`. -/
def percent (v : Json) (property : String) : Except String (Option Double) :=
  (finiteNumber v property).map fun d => some (d.mul (.finite 100))

/-- `integer(v, n)`: an integer literal, cut to 32 bits. -/
def integer (v : Json) (property : String) : Except String ℤ :=
  match v with
  | .number (.integral n) => .ok ((JsonNumber.integral n).toSigned 31)
  | _ => .error ("'" ++ property ++ "' must be an integer, got " ++ v.nodeType)

def episodeCount (seconds : Double) : ℤ :=
  max 1 (match seconds.div 43200 with
    | .finite q => max (-2 ^ 31) (min (2 ^ 31 - 1) ⌈q⌉)
    | .infinite negative => if negative then -2 ^ 31 else 2 ^ 31 - 1)

/-- `Math.max(1, (int) Math.ceil(num(v, n) / (12 * 3600.0)))`. -/
def episodes (v : Json) (property : String) : Except String ℤ :=
  (finiteNumber v property).map episodeCount

def roleOf : String → Option GateRole
  | "REQUIRED_CONTEXT" => some .blocking
  | "PRIMARY" => some .primary
  | "SUPPORTING" => some .supporting
  | "DISPLAY_ONLY" => some .displayOnly
  | "INAPPLICABLE" => some .displayOnly
  | _ => none

/-- `role(v, n)`: a text of the vocabulary in any case. -/
def role (v : Json) (property : String) : Except String GateRole :=
  match v with
  | .text s =>
      match roleOf (toUpperRoot s) with
      | some r => .ok r
      | none => .error ("'" ++ property ++ "' role '" ++ s ++ "' is not in the catalogue vocabulary")
  | _ => .error ("'" ++ property ++ "' must be text, got " ++ v.nodeType)

/-! ## The table -/

/-- What a property sets: a field, from a value read for that field. -/
structure Setter where
  field : ProfileField
  read : Json → String → Except String field.Value

/-- `PROFILE`. -/
def profileTable : List (String × Setter) := [
  ("G0.coverage_min", ⟨.g0CoverageMin, num⟩),
  ("G0.bad_fraction_max", ⟨.g0BadFractionMax, num⟩),
  ("G1.auto_fraction_min", ⟨.g1AutoFractionMin, num⟩),
  ("G2.stability_band_pv_eu", ⟨.spStabilityBandPvEu, num⟩),
  ("G2.stability_band_span_fraction", ⟨.spStabilityBandSpanFraction, num⟩),
  ("G2r.pv_region_min", ⟨.regionPvMin, num⟩),
  ("G2r.pv_region_max", ⟨.regionPvMax, num⟩),
  ("G2r.applied_input_region_min", ⟨.regionOpMin, num⟩),
  ("G2r.applied_input_region_max", ⟨.regionOpMax, num⟩),
  ("G3.error_band_span_fraction", ⟨.goodErrorBandPctOfSpan, num⟩),
  ("G3.objective_compliance_min", ⟨.goodErrorPctPassMin, percent⟩),
  ("G4.activity_warn_ratio", ⟨.g4ActivityWarnRatio, num⟩),
  ("G4.activity_high_ratio", ⟨.g4ActivityHighRatio, num⟩),
  ("G4.reversal_deadband_pp", ⟨.opDeadbandPct, num⟩),
  ("G5.period_min_s", ⟨.tauMinS, num⟩),
  ("G5.period_max_s", ⟨.tauMaxS, num⟩),
  ("G5.min_complete_cycles", ⟨.minValidCycles, integer⟩),
  ("G5.min_samples_per_period", ⟨.minSamplesPerPeriod, integer⟩),
  ("G5.regularity_min", ⟨.acfRegularityMin, num⟩),
  ("G6.period_min_s", ⟨.tauMinS, num⟩),
  ("G6.period_max_s", ⟨.tauMaxS, num⟩),
  ("G6.peak_to_background_min", ⟨.fftPeakToMedianMin, num⟩),
  ("G6.segment_samples", ⟨.g6SegmentSamples, integer⟩),
  ("G6.overlap_fraction", ⟨.g6OverlapFraction, num⟩),
  ("G7.role", ⟨.shapeRole, role⟩),
  ("G7.shape_score_high", ⟨.g7ShapeScoreHigh, num⟩),
  ("G8.asymmetry_display_threshold", ⟨.g8AsymmetryDisplayThreshold, num⟩),
  ("G7.min_accepted_cycles", ⟨.minValidCycles, integer⟩),
  ("G8.role", ⟨.horchRole, role⟩),
  ("G9.role", ⟨.geometryRole, role⟩),
  ("G9.area_valid_min", ⟨.phaseAreaPerCycleLo, num⟩),
  ("G9.area_valid_max", ⟨.phaseAreaPerCycleHi, num⟩),
  ("G9.corner_angle_deg", ⟨.cornerAngleDeg, num⟩),
  ("G9.min_command_range_pp", ⟨.opTravelFloorPct, num⟩),
  ("G9.geometry_contribution_cap", ⟨.priorGeometry, num⟩),
  ("G9.min_accepted_cycles", ⟨.minValidCycles, integer⟩),
  ("G10.role", ⟨.saturationRole, role⟩),
  ("G10.limit_tolerance_pp", ⟨.limitTolerancePp, num⟩),
  ("G10.limit_dwell_warn_s", ⟨.limitDwellWarnS, num⟩),
  ("G10.occupancy_warn_fraction", ⟨.satWarnOccupancy, num⟩),
  ("G10.nonfollowing_error_pp", ⟨.nonfollowingErrorPp, num⟩),
  ("G10.nonfollowing_dwell_s", ⟨.nonfollowingDwellS, num⟩),
  ("G11.freeze_tolerance_pv_eu", ⟨.freezeToleranceEu, num⟩),
  ("G11.freeze_dwell_s", ⟨.freezeDwellS, num⟩),
  ("G11.instrument_verified_max_age_s", ⟨.vpMaxAgeS, num⟩),
  ("G13.lag_max_s", ⟨.g13LagMaxS, num⟩),
  ("G13.coherence_display_min", ⟨.g13CoherenceMin, num⟩),
  ("G13.min_compatible_support_s", ⟨.g13MinCompatibleSupportS, num⟩),
  ("G13.max_peers", ⟨.g13MaxPeers, integer⟩),
  ("G15.recovery_support_s", ⟨.recoverySupportS, num⟩),
  ("G15.minimum_evidence_groups", ⟨.minNonGeometryEvidences, integer⟩),
  ("G15.episode_persistence_s", ⟨.persistenceWindows, episodes⟩)]

/-- The keys of `RESPONSE`: the properties of the response job. -/
def responseProperties : List String := [
  "G12.step_min_input_eu", "G12.step_min_span_fraction", "G12.noise_multiplier",
  "G12.pre_support_s", "G12.post_support_min_s", "G12.capture_max_s",
  "G12.crossing_dwell_s", "G12.settling_tail_dwell_s", "G12.settling_relative_band",
  "G12.settling_abs_band_pv_eu", "G12.delay_min_s", "G12.delay_max_s",
  "G12.tau_max_s", "G12.tau_min_s", "G12.gain_abs_max",
  "G12.fit_max_iterations", "G12.fit_relative_tolerance", "G12.lambda_s"]

def setter (property : String) : Option Setter := profileTable.lookup property

/-- `profileProperties`. -/
def isProfileProperty (property : String) : Bool := (setter property).isSome

def set (p : CplmLoopDynamicsProfile) (s : Setter) (property : String) (v : Json) :
    Except String CplmLoopDynamicsProfile :=
  (s.read v property).map fun value => { p with values := Function.update p.values s.field value }

/-- One entry of the resolved properties: null keeps the value, an unknown name is refused. -/
def applyProperty (p : CplmLoopDynamicsProfile) (property : String) (v : Json) :
    Except String CplmLoopDynamicsProfile :=
  if v.isNull then .ok p
  else match setter property with
    | some s => set p s property v
    | none =>
        if property ∈ responseProperties then .ok p
        else .error ("'" ++ property ++ "' is not a property this build applies to a profile")

/-- `apply`: the properties in their order. -/
def apply (p : CplmLoopDynamicsProfile) (resolved : Dict String Json) :
    Except String CplmLoopDynamicsProfile :=
  resolved.entries.foldlM (fun p e => applyProperty p e.1 e.2) p

end BundleProfileMapper

end OpenBridge.GateConfig
