import OpenBridge.Foundation.OffsetDateTime
import OpenBridge.GateConfig.CanonicalJson

/-!
# Gate configuration: the property catalogue

The 165 gate properties of `property-catalogue.json`, the file both services embed: for each
property its type, its unit, and the values it may take.  Identifiers, defaults, consumers and
dependencies are left out.
-/

namespace OpenBridge.GateConfig

open OpenBridge.Foundation

inductive PropertyType where
  | number
  | integer
  | boolean
  | enum
  | stringArray
  | text
  deriving DecidableEq

def PropertyType.name : PropertyType → String
  | number => "number"
  | integer => "integer"
  | boolean => "boolean"
  | enum => "enum"
  | stringArray => "string_array"
  | text => "text"

namespace PropertyCatalogue

structure Entry where
  property : String
  type : PropertyType
  unit : String
  enumValues : List String
  minimum : Option Double
  maximum : Option Double
  minItems : Option ℕ
  maxItems : Option ℕ
  deriving DecidableEq

/-! The rows of the sheet, by the shape of their validation. -/

def number (property unit : String) (minimum maximum : ℚ) : Entry :=
  ⟨property, .number, unit, [], some (Double.ofRat minimum), some (Double.ofRat maximum), none,
    none⟩

def integer (property unit : String) (minimum maximum : ℤ) : Entry :=
  ⟨property, .integer, unit, [], some (Double.ofInt minimum), some (Double.ofInt maximum), none,
    none⟩

def choice (property unit : String) (values : List String) : Entry :=
  ⟨property, .enum, unit, values, none, none, none, none⟩

def mode (property : String) : Entry :=
  choice property "state" ["OPERATIONAL", "OBSERVE_ONLY", "SHADOW", "DISABLED"]

def role (property : String) : Entry :=
  choice property "role"
    ["REQUIRED_CONTEXT", "PRIMARY", "SUPPORTING", "DISPLAY_ONLY", "INAPPLICABLE"]

def stringArray (property unit : String) (minItems maxItems : ℕ) : Entry :=
  ⟨property, .stringArray, unit, [], none, none, some minItems, some maxItems⟩

def flag (property unit : String) : Entry :=
  ⟨property, .boolean, unit, [], none, none, none, none⟩

def catalogueHash : String := "8bbcbbbb7da04ddcd639454605d56a7f9edab7cde7585825672836e0aa93766d"

def entries : List Entry := [mode "G0.mode",
  role "G0.role",
  integer "G0.evidence_retention_days" "day" 1 3650,
  mode "G1.mode",
  role "G1.role",
  integer "G1.evidence_retention_days" "day" 1 3650,
  mode "G2.mode",
  role "G2.role",
  integer "G2.evidence_retention_days" "day" 1 3650,
  mode "G2r.mode",
  role "G2r.role",
  integer "G2r.evidence_retention_days" "day" 1 3650,
  mode "G3.mode",
  role "G3.role",
  integer "G3.evidence_retention_days" "day" 1 3650,
  mode "G4.mode",
  role "G4.role",
  integer "G4.evidence_retention_days" "day" 1 3650,
  mode "G5.mode",
  role "G5.role",
  integer "G5.evidence_retention_days" "day" 1 3650,
  mode "G6.mode",
  role "G6.role",
  integer "G6.evidence_retention_days" "day" 1 3650,
  mode "G7.mode",
  role "G7.role",
  integer "G7.evidence_retention_days" "day" 1 3650,
  mode "G8.mode",
  role "G8.role",
  integer "G8.evidence_retention_days" "day" 1 3650,
  mode "G9.mode",
  role "G9.role",
  integer "G9.evidence_retention_days" "day" 1 3650,
  mode "G10.mode",
  role "G10.role",
  integer "G10.evidence_retention_days" "day" 1 3650,
  mode "G11.mode",
  role "G11.role",
  integer "G11.evidence_retention_days" "day" 1 3650,
  mode "G12.mode",
  role "G12.role",
  integer "G12.evidence_retention_days" "day" 1 3650,
  mode "G13.mode",
  role "G13.role",
  integer "G13.evidence_retention_days" "day" 1 3650,
  mode "G14.mode",
  role "G14.role",
  integer "G14.evidence_retention_days" "day" 1 3650,
  mode "G15.mode",
  role "G15.role",
  integer "G15.evidence_retention_days" "day" 1 3650,
  number "G0.coverage_min" "fraction" 0 1,
  number "G0.bad_fraction_max" "fraction" 0 1,
  number "G0.required_signal_max_age_s" "s" (1 / 1000) 86400,
  number "G0.max_gap_s" "s" (1 / 1000) 86400,
  number "G0.alignment_tolerance_s" "s" 0 3600,
  integer "G0.min_samples" "sample" 2 1000000,
  number "G0.jitter_warn_fraction" "fraction" 0 10,
  number "G1.auto_fraction_min" "fraction" 0 1,
  number "G1.transition_guard_s" "s" 0 86400,
  number "G1.authority_max_age_s" "s" (1 / 1000) 86400,
  number "G2.stability_band_pv_eu" "PV_EU" 0 1000000000000,
  number "G2.stability_band_span_fraction" "fraction" 0 1,
  number "G2.step_min_pv_eu" "PV_EU" 0 1000000000000,
  number "G2.ramp_min_pv_eu_per_s" "PV_EU/s" 0 1000000000000,
  number "G2.event_dwell_s" "s" 0 86400,
  number "G2r.pv_region_min" "PV_EU" (-1000000000000000) 1000000000000000,
  number "G2r.pv_region_max" "PV_EU" (-1000000000000000) 1000000000000000,
  number "G2r.applied_input_region_min" "input_EU" (-1000000000000000) 1000000000000000,
  number "G2r.applied_input_region_max" "input_EU" (-1000000000000000) 1000000000000000,
  number "G2r.out_of_domain_warn_fraction" "fraction" 0 1,
  number "G3.error_band_abs_pv_eu" "PV_EU" 0 1000000000000,
  number "G3.error_band_span_fraction" "fraction" 0 1,
  number "G3.objective_compliance_min" "fraction" 0 1,
  number "G3.ewma_alpha" "fraction" (1 / 1000) 1,
  number "G3.baseline_min_valid_s" "s" 1 31536000,
  number "G4.activity_warn_ratio" "dimensionless" 0 10000,
  number "G4.activity_high_ratio" "dimensionless" 0 10000,
  number "G4.reversal_deadband_pp" "percentage_point" 0 100,
  number "G4.min_pv_excitation_pv_eu" "PV_EU" 0 1000000000000,
  number "G4.travel_rate_min_support_s" "s" 1 31536000,
  number "G5.period_min_s" "s" (1 / 1000) 31536000,
  number "G5.period_max_s" "s" (1 / 1000) 31536000,
  integer "G5.min_complete_cycles" "cycle" 2 1000,
  integer "G5.min_samples_per_period" "sample/cycle" 4 1000,
  number "G5.regularity_min" "fraction" 0 1,
  number "G5.acf_lag_max_s" "s" (1 / 1000) 31536000,
  number "G6.period_min_s" "s" (1 / 1000) 31536000,
  number "G6.period_max_s" "s" (1 / 1000) 31536000,
  number "G6.peak_to_background_min" "ratio" 1 100000,
  number "G6.spectral_concentration_warn" "fraction" 0 1,
  integer "G6.segment_samples" "sample" 16 1048576,
  number "G6.overlap_fraction" "fraction" 0 (19 / 20),
  integer "G6.harmonic_max_order" "harmonic" 2 20,
  number "G7.shape_score_warn" "fraction" 0 1,
  number "G7.shape_score_high" "fraction" 0 1,
  integer "G7.min_accepted_cycles" "cycle" 2 1000,
  number "G7.min_cycle_amplitude" "selected_signal_EU" 0 1000000000000,
  number "G8.max_lag_s" "s" (1 / 1000) 31536000,
  number "G8.asymmetry_display_threshold" "fraction" 0 1,
  integer "G8.surrogate_repetitions" "count" 19 9999,
  number "G8.significance_alpha" "fraction" (1 / 1000) (1 / 5),
  integer "G9.min_accepted_cycles" "cycle" 2 1000,
  number "G9.area_valid_min" "dimensionless" 0 10,
  number "G9.area_valid_max" "dimensionless" 0 10,
  number "G9.area_display_threshold" "dimensionless" 0 10,
  number "G9.corner_angle_deg" "degree" 0 180,
  number "G9.min_command_range_pp" "percentage_point" 0 100,
  number "G9.geometry_contribution_cap" "fraction" 0 1,
  number "G10.limit_tolerance_pp" "percentage_point" 0 100,
  number "G10.limit_dwell_warn_s" "s" (1 / 1000) 86400,
  number "G10.occupancy_warn_fraction" "fraction" 0 1,
  number "G10.nonfollowing_error_pp" "percentage_point" 0 100,
  number "G10.nonfollowing_dwell_s" "s" (1 / 1000) 86400,
  number "G10.movement_noise_floor_pp" "percentage_point" 0 100,
  number "G11.freeze_tolerance_pv_eu" "PV_EU" 0 1000000000000,
  number "G11.freeze_dwell_s" "s" (1 / 1000) 86400,
  number "G11.spike_noise_multiplier" "ratio" 1 1000,
  number "G11.instrument_verified_max_age_s" "s" 1 604800,
  number "G11.late_health_correction_horizon_s" "s" 0 31536000,
  number "G12.step_min_input_eu" "input_EU" 0 1000000000000,
  number "G12.step_min_span_fraction" "fraction" 0 1,
  number "G12.noise_multiplier" "ratio" 1 1000,
  number "G12.pre_support_s" "s" 1 31536000,
  number "G12.post_support_min_s" "s" 1 31536000,
  number "G12.capture_max_s" "s" 1 31536000,
  number "G12.crossing_dwell_s" "s" 0 86400,
  number "G12.settling_tail_dwell_s" "s" (1 / 1000) 31536000,
  number "G12.settling_relative_band" "fraction" (1 / 1000000) (1 / 2),
  number "G12.settling_abs_band_pv_eu" "PV_EU" 0 1000000000000,
  number "G12.delay_min_s" "s" 0 31536000,
  number "G12.delay_max_s" "s" 0 31536000,
  number "G12.tau_min_s" "s" (1 / 1000000) 31536000,
  number "G12.tau_max_s" "s" (1 / 1000000) 31536000,
  number "G12.gain_abs_max" "PV_EU/input_EU" (1 / 1000000) 1000000000000000,
  integer "G12.fit_max_iterations" "iteration" 10 10000,
  number "G12.fit_relative_tolerance" "ratio" (1 / 1000000000000) (1 / 100),
  number "G12.validation_rmse_max_pv_eu" "PV_EU" 0 1000000000000,
  number "G12.confidence_level" "fraction" (1 / 2) (999 / 1000),
  integer "G12.bootstrap_repetitions" "count" 20 10000,
  number "G12.model_max_age_s" "s" 1 315360000,
  number "G12.lambda_s" "s" (1 / 1000) 31536000,
  number "G13.lag_max_s" "s" (1 / 1000) 31536000,
  number "G13.coherence_display_min" "fraction" 0 1,
  number "G13.min_compatible_support_s" "s" 1 31536000,
  integer "G13.max_peers" "count" 1 200,
  number "G14.confirmation_record_max_age_s" "s" 1 315360000,
  flag "G14.require_independent_review" "boolean",
  number "G15.episode_persistence_s" "s" 0 31536000,
  number "G15.recovery_support_s" "s" (1 / 1000) 31536000,
  integer "G15.minimum_evidence_groups" "group" 1 20,
  number "G15.hypothesis_score_display_min" "fraction" 0 1,
  number "G15.notification_repeat_s" "s" 1 31536000,
  choice "G0.acquisition_mode" "contract"
    ["PERIODIC_NATIVE", "CHANGE_BASED", "AVERAGED", "INTERPOLATED"],
  stringArray "G1.auto_tokens" "token" 1 50,
  choice "G3.objective_type" "objective"
    ["TIGHT_TRACKING", "AVERAGING_INVENTORY", "RAMP_TRACKING", "CONSTRAINT_OPERATION"],
  choice "G5.signal_role" "role" ["PV", "ERROR", "APPLIED_INPUT", "VP"],
  choice "G6.estimator" "method" ["LEGACY_DFT", "WELCH_PSD"],
  choice "G7.shape_method" "method" ["CYCLE_SINE_TRIANGLE_V1"],
  choice "G8.method" "method" ["LAG_ASYMMETRY_V1", "BICOHERENCE_V1", "SURROGATE_NONLINEARITY_V1"],
  stringArray "G12.model_families" "model" 1 8,
  choice "G12.estimator" "method" ["EXOGENOUS_OUTPUT_ERROR", "CLOSED_LOOP_PEM", "VALIDATED_IV"],
  choice "G12.uncertainty_method" "method"
    ["PROFILE_LIKELIHOOD", "QUALIFIED_COVARIANCE", "BLOCK_BOOTSTRAP", "EVENT_BOOTSTRAP"],
  stringArray "G13.peer_binding_ids" "binding" 0 200,
  stringArray "G14.allowed_evidence_types" "record" 1 20]

def find (property : String) : Option Entry := entries.find? fun e => e.property = property

end PropertyCatalogue

/-!
# Gate configuration: the compiled execution plan

`ExecutionPlanCapacity`: the horizons and gate assignments a build runs, and the reasons for which
it refuses a requested plan.
-/

namespace ExecutionPlanCapacity

def schedulerMode : String := "FIXED_COMPILED"

/-- `MAX_RETENTION_S`. -/
def maxRetentionS : Double := .finite 87000

def maxActiveHorizons : ℕ := 10

structure Horizon where
  id : String
  durationS : ℚ
  slideS : ℚ
  deriving DecidableEq

def horizons : List Horizon := [
  ⟨"short_1m", 60, 60⟩, ⟨"short_5m", 300, 60⟩, ⟨"short_10m", 600, 120⟩, ⟨"short_15m", 900, 300⟩,
  ⟨"short_30m", 1800, 300⟩, ⟨"short_60m", 3600, 300⟩, ⟨"long_4h", 14400, 900⟩,
  ⟨"long_12h", 43200, 900⟩, ⟨"long_24h", 86400, 900⟩, ⟨"event", 0, 0⟩]

def horizonNames : String :=
  "short_60m, short_15m, short_10m, short_1m, long_12h, " ++
    "long_24h, event, short_5m, long_4h, short_30m"

structure Assignment where
  gate : String
  horizonId : String
  trigger : String
  deriving DecidableEq

def assignments : List Assignment :=
  (["G0", "G1", "G2", "G2r", "G3", "G4"].map fun g => ⟨g, "short_60m", "WINDOW"⟩) ++
  (["G5", "G6", "G7", "G8", "G9"].map fun g => ⟨g, "long_24h", "WINDOW"⟩) ++
  [⟨"G10", "long_24h", "CONDITION_AND_WINDOW"⟩, ⟨"G11", "long_24h", "CONDITION_AND_WINDOW"⟩,
    ⟨"G12", "event", "EVENT"⟩, ⟨"G13", "long_24h", "EVIDENCE_UPDATE"⟩,
    ⟨"G14", "long_24h", "EVIDENCE_UPDATE"⟩, ⟨"G15", "long_24h", "EVIDENCE_UPDATE"⟩]

/-- Whether a requested duration is not the compiled one; NaN is never told apart. -/
def differs (requested : Option Double) (compiled : ℚ) : Bool :=
  requested.any fun d => (Double.ofRat (1 / 10 ^ 9)).lt (d.sub compiled).abs

def shown (d : Option Double) : String := d.elim "NaN" javaText

/-- The reasons against one requested horizon. -/
def horizonReasons (h : Json) : List String :=
  let id := (h.get "horizon_id").asText ""
  match horizons.find? fun c => c.id = id with
  | none =>
      ["DEPLOYMENT_REQUIRED: horizon '" ++ id ++ "' is not compiled into this build (" ++
        horizonNames ++ ")"]
  | some c =>
      let dur := (h.get "duration_s").asDouble (.finite c.durationS)
      let slide := (h.get "slide_s").asDouble (.finite c.slideS)
      (if differs dur c.durationS then
        ["DEPLOYMENT_REQUIRED: horizon '" ++ id ++ "' duration " ++ shown dur ++ " s (compiled " ++
          javaText (.finite c.durationS) ++ " s)"] else []) ++
      (if differs slide c.slideS then
        ["DEPLOYMENT_REQUIRED: horizon '" ++ id ++ "' slide " ++ shown slide ++ " s (compiled " ++
          javaText (.finite c.slideS) ++ " s)"] else []) ++
      match h.get "retention_s" with
      | some (.number v) =>
          if maxRetentionS.lt v.toDouble then
            ["DEPLOYMENT_REQUIRED: horizon '" ++ id ++ "' retention " ++ javaText v.toDouble ++
              " s exceeds the 87000 s buffer"] else []
      | _ => []

/-- The reasons against the assignments from `seen` on, and the gates seen at the end. -/
def assignmentReasons (seen : List String) : List Json → List String × List String
  | [] => ([], seen)
  | a :: rest =>
      let gate := (a.get "gate").asText ""
      match assignments.find? fun c => c.gate = gate with
      | none =>
          let (reasons, all) := assignmentReasons seen rest
          (("INVALID: unknown gate '" ++ gate ++ "'") :: reasons, all)
      | some c =>
          let horizon := (a.get "horizon_id").asText ""
          let trigger := (a.get "trigger").asText ""
          let (reasons, all) := assignmentReasons (gate :: seen) rest
          ((if gate ∈ seen then ["INVALID: gate " ++ gate ++ " assigned twice"] else []) ++
            (if c.horizonId = horizon then [] else
              ["DEPLOYMENT_REQUIRED: " ++ gate ++ " on horizon '" ++ horizon ++ "' (compiled " ++
                c.horizonId ++ ")"]) ++
            (if c.trigger = trigger then [] else
              ["DEPLOYMENT_REQUIRED: " ++ gate ++ " trigger " ++ trigger ++ " (compiled " ++
                c.trigger ++ ")"]) ++ reasons, all)

/-- `validate`: every reason against a requested plan. -/
def validate (plan : Json) : List String :=
  if ¬ plan.isObject then ["INVALID: execution_plan must be an object"]
  else
    let mode := (plan.get "scheduler_mode").asText schedulerMode
    let requested := (plan.get "horizons").elements
    let ids := (requested.map fun h => (h.get "horizon_id").asText "").dedup
    let (reasons, seen) := assignmentReasons [] ((plan.get "assignments").elements)
    (if mode = schedulerMode then [] else
      ["DEPLOYMENT_REQUIRED: scheduler_mode " ++ mode ++ " (this build runs " ++ schedulerMode ++
        ")"]) ++
    requested.flatMap horizonReasons ++
    (if maxActiveHorizons < ids.length then
      ["DEPLOYMENT_REQUIRED: " ++ toString ids.length ++ " horizons requested, capacity " ++
        toString maxActiveHorizons] else []) ++
    reasons ++
    if (plan.get "assignments").isArray then
      (assignments.filter fun c => c.gate ∉ seen).map fun c =>
        "INVALID: gate " ++ c.gate ++ " has no assignment"
    else []

/-- `periodCapacity`: whether `minCycles` periods fit the retention. -/
def periodCapacity (periodMaxS : Double) (minCycles : ℤ) : Option String :=
  let needed := periodMaxS.mul (Double.ofInt (max 1 minCycles))
  if maxRetentionS.lt needed then
    some ("G5 UNSUPPORTED_CAPACITY: " ++ toString minCycles ++ " cycles of " ++ javaText periodMaxS ++
      " s need " ++ javaText needed ++
      " s of retention; this build retains 87000 s (24 h)")
  else none

end ExecutionPlanCapacity

/-!
# Gate configuration: one immutable bundle

`GateConfigBundle`: what a worker reads from a bundle document, and the local validation that
decides whether a `PREPARE` is acknowledged.
-/

def resetToInherited : String := "RESET_TO_INHERITED"

/-- A parsed bundle.  `profileId` and `loopId` are absent where the scope does not name them. -/
structure GateConfigBundle where
  bundleId : String
  hash : String
  site : String
  scopeKind : String
  profileId : Option String
  loopId : Option String
  changeClass : String
  catalogueHash : String
  effectiveFromMs : ℤ
  bundle : Json
  deriving Inhabited

/-- Whether a value is the text `RESET_TO_INHERITED`. -/
def isReset : Json → Bool
  | .text s => s = resetToInherited
  | _ => false

namespace GateConfigBundle

def text (n : JsonNode) (field : String) : Option String :=
  match n.path field with
  | none | some .null => none
  | some v => some v.asText

def document (messageOrBundle : Json) : Json := (messageOrBundle.get "bundle").getD messageOrBundle

/-- The effective time: the message's, or else the document's `effective_from`, or else 0. -/
def effectiveFrom (messageOrBundle : Json) : ℤ :=
  let eff := match messageOrBundle.get "effective_from_ms" with
    | some (.number v) => v.toSigned 63
    | _ => 0
  if eff ≠ 0 then eff
  else match (document messageOrBundle).get "effective_from" with
    | some (.text s) => (OffsetDateTime.toEpochMilli s).getD 0
    | _ => 0

def parse (messageOrBundle : Json) : Except String GateConfigBundle :=
  let b := document messageOrBundle
  let has (name : String) : Bool := (b.get name).isSome
  if ¬ b.isObject ∨ ¬ has "hash" ∨ ¬ has "scope" ∨ ¬ has "layers" ∨ ¬ has "resolved" then
    .error "a bundle needs hash, scope, layers and resolved"
  else
    let scope := b.get "scope"
    .ok {
      bundleId := (b.get "bundle_id").asText ""
      hash := (b.get "hash").asText ""
      site := (scope.path "site").asText ""
      scopeKind := (scope.path "kind").asText ""
      profileId := text scope "profile_id"
      loopId := text scope "loop_id"
      changeClass := (b.get "change_class").asText "POLICY"
      catalogueHash := ((b.get "requires").path "catalogue_hash").asText ""
      effectiveFromMs := effectiveFrom messageOrBundle
      bundle := b }

/-- The key of a scope; an absent reference is printed as `null`. -/
def scopeKeyOf (kind site : String) (ref : Option String) : String :=
  if kind = "SITE" then "SITE:" ++ site else kind ++ ":" ++ site ++ "/" ++ ref.getD "null"

def scopeKey (b : GateConfigBundle) : String :=
  scopeKeyOf b.scopeKind b.site
    (if b.scopeKind = "LOOP" ∨ b.scopeKind = "REGIME" then b.loopId else b.profileId)

def layers (b : GateConfigBundle) : List Json := (b.bundle.get "layers").elements

def layerKind (layer : Json) (default : String) : String :=
  (layer.get "kind").asText default

def layerContents (b : GateConfigBundle) (kinds : List String) : List (Dict String Json) :=
  b.layers.filterMap fun l =>
    if layerKind l "" ∈ kinds then
      match l.get "content" with
      | some (.object members) => some (Json.readFields members)
      | _ => none
    else none

/-- The hash of the content: SHA-256 over the canonical `{layers, resolved}`. -/
def recomputedHash (b : GateConfigBundle) : Except String String :=
  CanonicalJson.sha256 (.object [
    ("layers", (b.bundle.get "layers").getD .null),
    ("resolved", (b.bundle.get "resolved").getD .null)])

def head (hash : String) : String := String.ofList (hash.toList.take 12)

def shownList (items : List String) : String := "[" ++ String.intercalate ", " items ++ "]"

def checkBounds (e : PropertyCatalogue.Entry) (d : Double) : Option String :=
  let subject := "OUT_OF_BOUNDS: '" ++ e.property ++ "' = " ++ javaText d
  match e.minimum.filter d.lt with
  | some least => some (subject ++ " below " ++ javaText least)
  | none => (e.maximum.filter (·.lt d)).map fun most => subject ++ " above " ++ javaText most

/-- The type, bounds and vocabulary of one resolved value; `none` when acceptable. -/
def checkProperty (property : String) (v : Json) : Option String :=
  match PropertyCatalogue.find property with
  | none => some ("UNKNOWN_PROPERTY: '" ++ property ++ "' is not in the catalogue")
  | some e =>
      if v.isNull then none
      else if isReset v then some ("INVALID: '" ++ property ++ "' resolved to RESET_TO_INHERITED")
      else
        let typeOf (what : String) : String := "TYPE: '" ++ property ++ "' must be " ++ what
        match e.type, v with
        | .number, .number n | .integer, .number n =>
            let d := n.toDouble
            if ¬ d.isFinite then some ("INVALID: '" ++ property ++ "' is not finite")
            else if e.type = .integer ∧ ¬ n.isIntegral ∧ ¬ d.isInteger then
              some (typeOf "an integer")
            else checkBounds e d
        | .number, _ | .integer, _ => some (typeOf ("a " ++ e.type.name ++ ", got " ++ v.nodeType))
        | .boolean, _ => if v.isBoolean then none else some (typeOf "a boolean")
        | .enum, .text s =>
            if e.enumValues = [] ∨ s ∈ e.enumValues then none
            else some ("ENUM: '" ++ property ++ "' = '" ++ s ++ "' is not one of " ++
              shownList e.enumValues)
        | .enum, _ => some (typeOf ("one of " ++ shownList e.enumValues))
        | .stringArray, .array items =>
            match e.minItems.filter (items.length < ·), e.maxItems.filter (· < items.length) with
            | some least, _ =>
                some ("OUT_OF_BOUNDS: '" ++ property ++ "' needs at least " ++ toString least ++
                  " items")
            | none, some most =>
                some ("OUT_OF_BOUNDS: '" ++ property ++ "' allows at most " ++ toString most ++
                  " items")
            | none, none =>
                if items.all Json.isText then none
                else some ("TYPE: '" ++ property ++ "' items must be strings")
        | .stringArray, _ => some (typeOf "an array")
        | .text, _ => if v.isText then none else some (typeOf "text")

/-! The parts of `validate`, in its order. -/

def identityReasons (b : GateConfigBundle) (recomputed : String) : List String :=
  (if b.catalogueHash = PropertyCatalogue.catalogueHash then [] else
    ["CATALOGUE_MISMATCH: bundle validated against catalogue " ++ head b.catalogueHash ++
      ", this build carries " ++ head PropertyCatalogue.catalogueHash]) ++
  (if b.hash ≠ "" ∧ b.hash = recomputed then [] else
    ["HASH_MISMATCH: the bundle content does not hash to " ++ head b.hash]) ++
  (if b.scopeKind = "REGIME" then
    ["DEPLOYMENT_REQUIRED: REGIME-scoped bundles need a regime selector this build does not have"]
  else if b.scopeKind = "SITE" ∨ b.scopeKind = "PROFILE" ∨ b.scopeKind = "LOOP" then []
  else ["INVALID: scope kind '" ++ b.scopeKind ++ "'"]) ++
  (if b.site = "" then ["INVALID: scope.site is empty"] else []) ++
  if b.changeClass = "DEPLOYMENT" then
    ["DEPLOYMENT_REQUIRED: a DEPLOYMENT-class change ships in a build, never in a bundle"]
  else []

def capacityReasons (properties : Dict String Json) : List String :=
  match properties.get? "G5.period_max_s", properties.get? "G5.min_complete_cycles" with
  | some (.number pMax), some (.number cyc) =>
      match ExecutionPlanCapacity.periodCapacity pMax.toDouble (cyc.toSigned 31) with
      | some cap => ["DEPLOYMENT_REQUIRED: " ++ cap]
      | none => []
  | _, _ => []

def propertyReasons (properties : JsonNode) : List String :=
  match properties with
  | some (.object members) =>
      let props := Json.readFields members
      props.entries.filterMap (fun p => checkProperty p.1 p.2) ++ capacityReasons props
  | _ => ["INVALID: resolved.properties must be an object"]

def layerReasons (b : GateConfigBundle) : List String :=
  b.layers.flatMap fun l =>
    (((l.get "content").elim Dict.empty Json.fields).keys.filter fun name =>
      PropertyCatalogue.find name = none).map fun name =>
        "UNKNOWN_PROPERTY: '" ++ name ++ "' in the " ++ layerKind l "?" ++
          " layer is not in the catalogue"

def planReasons (plan : JsonNode) : List String :=
  match plan with
  | some (.object members) => ExecutionPlanCapacity.validate (.object members)
  | _ => ["INVALID: resolved.execution_plan must be an object"]

/-- `validate`: every reason to refuse the bundle on `PREPARE`, the same for every job; it throws
when the content has no canonical text. -/
def validate (b : GateConfigBundle) (_jobName : String) : Except String (List String) := do
  let recomputed ← b.recomputedHash
  let resolved := b.bundle.get "resolved"
  .ok (identityReasons b recomputed ++ propertyReasons (resolved.path "properties") ++
    layerReasons b ++ planReasons (resolved.path "execution_plan"))

theorem validate_withEffectiveFrom (b : GateConfigBundle) (t : ℤ) (jobName jobName' : String) :
    { b with effectiveFromMs := t }.validate jobName = b.validate jobName' := rfl

end GateConfigBundle

end OpenBridge.GateConfig
