import OpenBridge.FeatureTopic.CplmShortFeatureResult
import OpenBridge.FeatureTopic.LongDiagnosticParts

/-!
# Feature topics: the long diagnostics record

`CplmLongDiagnosticsResult`: its fields, `toJson`, `fromJson`, and what comes back from the topic.  Every
field comes back as it was but two: the freeze fraction is written and never read, and a gate 10 that is
still pending is judged again by the saturation (`afterTopic`).
-/

namespace OpenBridge.FeatureTopic

open OpenBridge.Foundation
open OpenBridge.Identity

/-- The plain fields of a long diagnostics record. -/
inductive LongField where
  | loopId | assetUuid | site | windowKind | windowStartMs | windowEndMs | sampleCount
  | samplePeriodSec | hasVp | acfPeriodS | acfRegularity | acfGamma0 | acfZeroCrossingCount
  | acfPeriodCandidateCount | gate5Status | fftPeakBin | fftMaxBin | fftPeakAmplitude
  | fftPeakFreqHz | fftPeakPeriodS | fftPeakRatio | fftTotalEnergy | fftH2Amp | fftH3Amp
  | fftH5Amp | harmonicAmplitudeRatio | harmonicEnergyRatio | spectralEntropyBinCount
  | spectralEntropy | gate6Status | triangularity | cycleSamples | cycleSource | completedCycles
  | validCycles | firstCycleSseSine | firstCycleSseTriangle | gate7Status | horchOddness
  | horchOddSum | horchEvenSum | gate8Status | phaseAreaNormPerCycle | phaseBboxArea
  | phasePathArea | windowAreaNorm | cornerScore | cornerScoreQualified | validTurningAngles
  | gate9Status | gate9Reason | periodStatus | validatedPeriodS | periodRejectReason | opRangePct
  | freezeFraction | effortRatio | fftPeakToMedian | calculationVersion | dynamicsProfileVersion
  | sourceCommit | jarSha256 | contractVersion | bundleHash | contextRevision | evaluationState
  | evaluationReason | purpose | datasetHash | resultRevision | dynamicsClass | profileSource
  | saturationPct | satLimitDwellSamples | satCyclingPattern | satLimitDwellS | limitLowPp
  | limitHighPp | limitSource | limitDwellWarnS | freezeMaterial | gate11Reason | freezeDwellS
  | freezeToleranceEu | vpEligibleSamples | vpTrackingErrorMeanPp | vpTrackingErrorP95Pp
  | vpNonFollowingDwellS | vpTrackingHealthy | freezeRunSamples | freezeIndexS
  | pvQuantizationCount | pvDriftPerDay | deltaPvMean | deltaPvStd | spikeCount | gate11Status
  | stictionSignal | gateProfileId | dynamicClass | loopType
  deriving DecidableEq

namespace LongField

def kind : LongField → FieldKind
  | .loopId | .assetUuid | .site | .windowKind | .gate5Status | .gate6Status | .cycleSource
  | .gate7Status | .gate8Status | .gate9Status | .gate9Reason | .periodStatus
  | .periodRejectReason | .calculationVersion | .dynamicsProfileVersion | .sourceCommit
  | .jarSha256 | .contractVersion | .bundleHash | .evaluationState | .evaluationReason | .purpose
  | .datasetHash | .dynamicsClass | .profileSource | .limitSource | .gate11Reason | .gate11Status
  | .stictionSignal | .gateProfileId | .dynamicClass | .loopType => .text
  | .windowStartMs | .windowEndMs => .long
  | .sampleCount | .acfZeroCrossingCount | .acfPeriodCandidateCount | .fftPeakBin | .fftMaxBin
  | .spectralEntropyBinCount | .cycleSamples | .completedCycles | .validCycles
  | .validTurningAngles | .contextRevision | .resultRevision | .satLimitDwellSamples
  | .vpEligibleSamples | .freezeRunSamples | .pvQuantizationCount | .spikeCount => .int
  | .hasVp | .satCyclingPattern | .freezeMaterial | .vpTrackingHealthy => .bool
  | _ => .double

/-- The members that `toJson` writes, in its order. -/
def written : List (LongField × String) := [
  (.loopId, "loop_id"), (.assetUuid, "asset_uuid"), (.site, "site"),
  (.windowKind, "window_kind"), (.windowStartMs, "windowStartMs"), (.windowEndMs, "windowEndMs"),
  (.sampleCount, "sample_count"), (.samplePeriodSec, "sample_period_sec"),
  (.hasVp, "vp_available"), (.acfPeriodS, "acf_period_s"), (.acfRegularity, "acf_regularity"),
  (.acfGamma0, "acf_gamma0"), (.acfZeroCrossingCount, "acf_zero_crossing_count"),
  (.acfPeriodCandidateCount, "acf_period_candidate_count"), (.gate5Status, "gate5_status"),
  (.fftPeakBin, "fft_peak_bin"), (.fftMaxBin, "fft_max_bin"),
  (.fftPeakAmplitude, "fft_peak_amplitude"), (.fftPeakFreqHz, "fft_peak_freq_hz"),
  (.fftPeakPeriodS, "fft_peak_period_s"), (.fftPeakRatio, "fft_peak_ratio"),
  (.fftTotalEnergy, "fft_total_energy"), (.fftH2Amp, "fft_h2_amp"), (.fftH3Amp, "fft_h3_amp"),
  (.fftH5Amp, "fft_h5_amp"), (.harmonicAmplitudeRatio, "harmonic_amplitude_ratio"),
  (.harmonicEnergyRatio, "harmonic_energy_ratio"),
  (.spectralEntropyBinCount, "spectral_entropy_bin_count"),
  (.spectralEntropy, "spectral_entropy"), (.gate6Status, "gate6_status"),
  (.triangularity, "triangularity"), (.cycleSamples, "cycle_samples"),
  (.cycleSource, "cycle_source"), (.completedCycles, "completed_cycles"),
  (.validCycles, "valid_cycles"), (.firstCycleSseSine, "first_cycle_sse_sine"),
  (.firstCycleSseTriangle, "first_cycle_sse_triangle"), (.gate7Status, "gate7_status"),
  (.horchOddness, "horch_oddness"), (.horchOddSum, "horch_odd_sum"),
  (.horchEvenSum, "horch_even_sum"), (.gate8Status, "gate8_status"),
  (.phaseAreaNormPerCycle, "phase_area_norm_per_cycle"), (.phaseBboxArea, "phase_bbox_area"),
  (.phasePathArea, "phase_path_area"), (.windowAreaNorm, "window_area_norm"),
  (.cornerScore, "corner_score"), (.cornerScoreQualified, "corner_score_qualified"),
  (.validTurningAngles, "valid_turning_angles"), (.gate9Status, "gate9_status"),
  (.gate9Reason, "gate9_reason"), (.periodStatus, "period_status"),
  (.validatedPeriodS, "validated_period_s"), (.periodRejectReason, "period_reject_reason"),
  (.opRangePct, "op_range_pct"), (.freezeFraction, "freeze_fraction"),
  (.effortRatio, "effort_ratio"), (.fftPeakToMedian, "fft_peak_to_median"),
  (.calculationVersion, "calculationVersion"),
  (.dynamicsProfileVersion, "dynamicsProfileVersion"), (.sourceCommit, "sourceCommit"),
  (.jarSha256, "jarSha256"), (.contractVersion, "contractVersion"), (.bundleHash, "bundle_hash"),
  (.contextRevision, "context_revision"), (.evaluationState, "evaluation_state"),
  (.evaluationReason, "evaluation_reason"), (.purpose, "purpose"),
  (.datasetHash, "dataset_hash"), (.resultRevision, "result_revision"),
  (.dynamicsClass, "dynamics_class"), (.profileSource, "profile_source"),
  (.saturationPct, "saturation_pct"), (.satLimitDwellSamples, "sat_limit_dwell_samples"),
  (.satCyclingPattern, "sat_cycling_pattern"), (.satLimitDwellS, "sat_limit_dwell_s"),
  (.limitLowPp, "limit_low_pp"), (.limitHighPp, "limit_high_pp"), (.limitSource, "limit_source"),
  (.limitDwellWarnS, "limit_dwell_warn_s"), (.freezeMaterial, "freeze_material"),
  (.gate11Reason, "gate11_reason"), (.freezeDwellS, "freeze_dwell_s"),
  (.freezeToleranceEu, "freeze_tolerance_eu"), (.vpEligibleSamples, "vp_eligible_samples"),
  (.vpTrackingErrorMeanPp, "vp_tracking_error_mean_pp"),
  (.vpTrackingErrorP95Pp, "vp_tracking_error_p95_pp"),
  (.vpNonFollowingDwellS, "vp_nonfollowing_dwell_s"),
  (.vpTrackingHealthy, "vp_tracking_healthy"), (.freezeRunSamples, "freeze_run_samples"),
  (.freezeIndexS, "freeze_index_s"), (.pvQuantizationCount, "pv_quantization_count"),
  (.pvDriftPerDay, "pv_drift_per_day"), (.deltaPvMean, "delta_pv_mean"),
  (.deltaPvStd, "delta_pv_std"), (.spikeCount, "spike_count"), (.gate11Status, "gate11_status"),
  (.stictionSignal, "stiction_signal"), (.gateProfileId, "gate_profile_id"),
  (.dynamicClass, "dynamic_class"), (.loopType, "loop_type")]

/-- The members that `fromJson` reads, in its order. -/
def readFrom : List (LongField × String) := [
  (.loopId, "loop_id"), (.assetUuid, "asset_uuid"), (.site, "site"),
  (.windowKind, "window_kind"), (.windowStartMs, "windowStartMs"), (.windowEndMs, "windowEndMs"),
  (.sampleCount, "sample_count"), (.samplePeriodSec, "sample_period_sec"),
  (.hasVp, "vp_available"), (.acfPeriodS, "acf_period_s"), (.acfRegularity, "acf_regularity"),
  (.acfGamma0, "acf_gamma0"), (.acfZeroCrossingCount, "acf_zero_crossing_count"),
  (.acfPeriodCandidateCount, "acf_period_candidate_count"), (.fftPeakBin, "fft_peak_bin"),
  (.fftMaxBin, "fft_max_bin"), (.fftPeakAmplitude, "fft_peak_amplitude"),
  (.fftPeakFreqHz, "fft_peak_freq_hz"), (.fftPeakPeriodS, "fft_peak_period_s"),
  (.fftPeakRatio, "fft_peak_ratio"), (.fftTotalEnergy, "fft_total_energy"),
  (.fftH2Amp, "fft_h2_amp"), (.fftH3Amp, "fft_h3_amp"), (.fftH5Amp, "fft_h5_amp"),
  (.harmonicAmplitudeRatio, "harmonic_amplitude_ratio"),
  (.harmonicEnergyRatio, "harmonic_energy_ratio"),
  (.spectralEntropyBinCount, "spectral_entropy_bin_count"),
  (.spectralEntropy, "spectral_entropy"), (.triangularity, "triangularity"),
  (.cycleSamples, "cycle_samples"), (.cycleSource, "cycle_source"),
  (.completedCycles, "completed_cycles"), (.validCycles, "valid_cycles"),
  (.firstCycleSseSine, "first_cycle_sse_sine"),
  (.firstCycleSseTriangle, "first_cycle_sse_triangle"), (.horchOddness, "horch_oddness"),
  (.horchOddSum, "horch_odd_sum"), (.horchEvenSum, "horch_even_sum"),
  (.phaseAreaNormPerCycle, "phase_area_norm_per_cycle"), (.phaseBboxArea, "phase_bbox_area"),
  (.phasePathArea, "phase_path_area"), (.windowAreaNorm, "window_area_norm"),
  (.cornerScore, "corner_score"), (.cornerScoreQualified, "corner_score_qualified"),
  (.validTurningAngles, "valid_turning_angles"), (.gate5Status, "gate5_status"),
  (.gate6Status, "gate6_status"), (.gate7Status, "gate7_status"), (.gate8Status, "gate8_status"),
  (.gate9Status, "gate9_status"), (.gate9Reason, "gate9_reason"),
  (.periodStatus, "period_status"), (.validatedPeriodS, "validated_period_s"),
  (.periodRejectReason, "period_reject_reason"), (.opRangePct, "op_range_pct"),
  (.effortRatio, "effort_ratio"), (.fftPeakToMedian, "fft_peak_to_median"),
  (.calculationVersion, "calculationVersion"),
  (.dynamicsProfileVersion, "dynamicsProfileVersion"), (.sourceCommit, "sourceCommit"),
  (.jarSha256, "jarSha256"), (.contractVersion, "contractVersion"), (.bundleHash, "bundle_hash"),
  (.contextRevision, "context_revision"), (.evaluationState, "evaluation_state"),
  (.evaluationReason, "evaluation_reason"), (.resultRevision, "result_revision"),
  (.purpose, "purpose"), (.datasetHash, "dataset_hash"), (.dynamicsClass, "dynamics_class"),
  (.profileSource, "profile_source"), (.saturationPct, "saturation_pct"),
  (.satLimitDwellSamples, "sat_limit_dwell_samples"),
  (.satCyclingPattern, "sat_cycling_pattern"), (.satLimitDwellS, "sat_limit_dwell_s"),
  (.limitLowPp, "limit_low_pp"), (.limitHighPp, "limit_high_pp"), (.limitSource, "limit_source"),
  (.limitDwellWarnS, "limit_dwell_warn_s"), (.freezeMaterial, "freeze_material"),
  (.gate11Reason, "gate11_reason"), (.freezeDwellS, "freeze_dwell_s"),
  (.freezeToleranceEu, "freeze_tolerance_eu"), (.vpEligibleSamples, "vp_eligible_samples"),
  (.vpTrackingErrorMeanPp, "vp_tracking_error_mean_pp"),
  (.vpTrackingErrorP95Pp, "vp_tracking_error_p95_pp"),
  (.vpNonFollowingDwellS, "vp_nonfollowing_dwell_s"),
  (.vpTrackingHealthy, "vp_tracking_healthy"), (.freezeRunSamples, "freeze_run_samples"),
  (.freezeIndexS, "freeze_index_s"), (.pvQuantizationCount, "pv_quantization_count"),
  (.pvDriftPerDay, "pv_drift_per_day"), (.deltaPvMean, "delta_pv_mean"),
  (.deltaPvStd, "delta_pv_std"), (.spikeCount, "spike_count"), (.gate11Status, "gate11_status"),
  (.stictionSignal, "stiction_signal"), (.gateProfileId, "gate_profile_id"),
  (.dynamicClass, "dynamic_class"), (.loopType, "loop_type")]

def initial : (f : LongField) → f.kind.Value
  | .windowKind => "24h"
  | .cycleSource => "NONE"
  | .gate5Status | .gate6Status | .gate7Status | .gate8Status | .gate9Status | .gate11Status =>
      "PENDING"
  | .periodStatus => "NO_VALID_CYCLE"
  | .calculationVersion => FeatureTopic.calculationVersion
  | .dynamicsProfileVersion => FeatureTopic.dynamicsProfileVersion
  | .sourceCommit | .jarSha256 => unknownBuild
  | .contractVersion => FeatureTopic.contractVersion
  | .bundleHash => ProfileHash.legacy
  | .evaluationState => "EVALUATED"
  | .resultRevision => (1 : ℤ)
  | .purpose => "LIVE"
  | .datasetHash => DatasetHash.empty
  | .dynamicsClass | .profileSource => "UNKNOWN"
  | .stictionSignal => "OP"
  | f => f.kind.zero

end LongField

/-- The long diagnostics record. -/
@[ext]
structure CplmLongDiagnosticsResult where
  value : (f : LongField) → f.kind.Value
  cornerScoreRaw : F64
  gate10Status : String
  configurationVersion : String
  methodRunIds : Dict String String
  analysisRunId : Option String
  dwellEvents : List DwellEvent
  freezeEvents : List FreezeEvent
  observabilityFlags : List String
  interaction : Option InteractionSummary
  methodEligibility : Dict String Verdict
  alignedShort : Option CplmShortFeatureResult

namespace CplmLongDiagnosticsResult

abbrev table : FieldTable LongField :=
  ⟨LongField.kind, LongField.written, LongField.readFrom, LongField.initial⟩

def ofValues (value : table.Record) : CplmLongDiagnosticsResult :=
  { value := value
    cornerScoreRaw := F64.ofInt 0
    gate10Status := "PENDING"
    configurationVersion := ""
    methodRunIds := Dict.empty
    analysisRunId := none
    dwellEvents := []
    freezeEvents := []
    observabilityFlags := []
    interaction := none
    methodEligibility := Dict.empty
    alignedShort := none }

/-- The raw corner score as it is written: the legacy one where it is not positive. -/
def writtenCornerScore (r : CplmLongDiagnosticsResult) : F64 :=
  if F64.lt (F64.ofInt 0) r.cornerScoreRaw then r.cornerScoreRaw else r.value .cornerScore

def always (r : CplmLongDiagnosticsResult) : List (String × Json) :=
  [("schemaVersion", .number (.integral 1)), ("eventType", .text "CPLM_LONG_DIAGNOSTIC")] ++
    (LongField.written.map fun m => (m.2, table.write r.value m.1)) ++
    [("corner_score_raw", Json.ofF64 r.writtenCornerScore),
      ("method_run_ids", Json.ofTexts r.methodRunIds),
      ("analysis_run_id", (r.analysisRunId.map Json.text).getD .null),
      ("gate10_valve_output", .text r.gate10Status),
      ("gate10_status", .text r.gate10Status),
      ("dwell_events", .array (r.dwellEvents.map DwellEvent.write)),
      ("freeze_events", .array (r.freezeEvents.map FreezeEvent.write)),
      ("method_eligibility", MethodEligibility.write r.methodEligibility),
      ("observability_flags", .array (r.observabilityFlags.map Json.text))]

def sometimes (r : CplmLongDiagnosticsResult) : List (String × Option Json) :=
  [("configurationVersion",
      if r.configurationVersion = "" then none else some (.text r.configurationVersion)),
    ("interaction", r.interaction.map InteractionSummary.write),
    ("short_features", r.alignedShort.map CplmShortFeatureResult.toJson),
    ("travel_per_day", r.alignedShort.map fun s => Json.ofF64 (s.value .travelPerDay)),
    ("reversals_per_hour", r.alignedShort.map fun s => Json.ofF64 (s.value .reversalsPerHour))]

/-- The members of `toJson`. -/
def members (r : CplmLongDiagnosticsResult) : List (String × Json) :=
  r.always ++ Json.optionals r.sometimes

def toJson (r : CplmLongDiagnosticsResult) : Json := .object r.members

def saturationStatus (sat : F64) : String :=
  if F64.lt sat (F64.ofRat (5 / 100)) then "PASS" else "WARN"

/-- Gate 10 as `fromJson` reads it: a pending status is cleared by the saturation, where the record
has one that is a number. -/
def readGate10 (root : Json) : String :=
  let status := (root.get "gate10_valve_output").asText ((root.get "gate10_status").asText "PENDING")
  let sat := (root.get "saturation_pct").asF64 none
  if status = "PENDING" ∧ (root.get "saturation_pct").isSome ∧ sat ≠ none then saturationStatus sat
  else status

def fromJson (root : Json) : CplmLongDiagnosticsResult :=
  { value := table.read root
    cornerScoreRaw := (root.get "corner_score_raw").asF64 (table.read root .cornerScore)
    gate10Status := readGate10 root
    configurationVersion := (root.get "configurationVersion").asText ""
    methodRunIds := Json.textsOf (root.get "method_run_ids")
    analysisRunId := (root.get "analysis_run_id").nullableText
    dwellEvents := (root.get "dwell_events").elements.map DwellEvent.read
    freezeEvents := (root.get "freeze_events").elements.map FreezeEvent.read
    observabilityFlags := if (root.get "observability_flags").isArray then
      (root.get "observability_flags").elements.map Json.asText else []
    interaction := InteractionSummary.read (root.get "interaction")
    methodEligibility := MethodEligibility.read (root.get "method_eligibility")
    alignedShort := ((root.get "short_features").filter Json.isObject).map
      CplmShortFeatureResult.fromJson }

/-! ## What comes back -/

/-- The raw corner score is the one that is written, and the short record is settled. -/
structure Settled (r : CplmLongDiagnosticsResult) : Prop where
  corner : r.writtenCornerScore = r.cornerScoreRaw
  short : ∀ s, r.alignedShort = some s → s.Settled

structure Finite (r : CplmLongDiagnosticsResult) : Prop where
  value : table.Holds r.value
  corner : r.cornerScoreRaw.IsFinite
  dwell : ∀ e ∈ r.dwellEvents, e.Finite
  freeze : ∀ e ∈ r.freezeEvents, e.Finite
  interaction : ∀ s, r.interaction = some s → s.Finite
  short : ∀ s, r.alignedShort = some s → s.Finite

def afterTopic (r : CplmLongDiagnosticsResult) : CplmLongDiagnosticsResult :=
  { r with
    value := Function.update r.value .freezeFraction (LongField.initial .freezeFraction)
    gate10Status := if r.gate10Status = "PENDING" then saturationStatus (r.value .saturationPct)
      else r.gate10Status }

theorem holds_initial : table.Holds LongField.initial := by
  intro f
  cases f <;> first | exact trivial | exact FieldKind.holds_zero .double |
    exact FieldKind.holds_zero .int | exact FieldKind.holds_zero .long |
    exact (by decide : (-2 ^ 31 : ℤ) ≤ 1 ∧ (1 : ℤ) < 2 ^ 31)

theorem agrees {f : LongField} (h : f ≠ .freezeFraction) : table.Agrees f := by
  revert h
  cases f <;> decide +kernel

theorem keys_nodup (r : CplmLongDiagnosticsResult) :
    (Json.keysOf r.always ++ r.sometimes.map Prod.fst).Nodup := by
  have hkeys : Json.keysOf r.always ++ r.sometimes.map Prod.fst =
      ["schemaVersion", "eventType"] ++ LongField.written.map Prod.snd ++
        ["corner_score_raw", "method_run_ids", "analysis_run_id", "gate10_valve_output",
          "gate10_status", "dwell_events", "freeze_events", "method_eligibility",
          "observability_flags"] ++
        ["configurationVersion", "interaction", "short_features", "travel_per_day",
          "reversals_per_hour"] := by
    unfold always Json.keysOf
    rw [List.map_append, List.map_append, List.map_map]
    rfl
  rw [hkeys]
  decide +kernel

variable {r : CplmLongDiagnosticsResult}

theorem keysOf_members_nodup : (Json.keysOf r.members).Nodup := by
  have hkeys : Json.keysOf r.members = Json.keysOf r.always ++ Json.keysOf (Json.optionals r.sometimes) :=
    List.map_append
  rw [hkeys]
  exact ((List.Sublist.refl _).append (Json.keysOf_optionals_sublist _)).nodup r.keys_nodup

theorem get_always {k : String} {j : Json} (h : (k, j) ∈ r.always) : r.toJson.get k = some j :=
  Json.get_of_mem keysOf_members_nodup (List.mem_append_left _ h)

theorem get_sometimes {k : String} {v : Option Json} (h : (k, v) ∈ r.sometimes) :
    r.toJson.get k = v := Json.get_optionals r.keys_nodup h

theorem written_mem {f : LongField} {k : String} (h : (f, k) ∈ LongField.written) :
    (k, table.write r.value f) ∈ r.always :=
  List.mem_append_left _ (List.mem_append_right _ (List.mem_map.mpr ⟨(f, k), h, rfl⟩))

theorem value_fromJson_toJson (hr : r.Finite) :
    (fromJson r.toJson).value =
      Function.update r.value .freezeFraction (LongField.initial .freezeFraction) := by
  have hmem : ∀ m ∈ table.written, (m.2, table.write r.value m.1) ∈ r.members := fun m hm =>
    List.mem_append_left _ (written_mem hm)
  funext f
  by_cases hf : f = .freezeFraction
  · subst hf
    rw [Function.update_self]
    rfl
  · rw [Function.update_of_ne hf]
    exact FieldTable.read_of_put keysOf_members_nodup hmem (agrees hf) (hr.value f) rfl

theorem gate10Status_fromJson_toJson (hr : r.Finite) :
    (fromJson r.toJson).gate10Status = r.afterTopic.gate10Status := by
  have hstatus : r.toJson.get "gate10_valve_output" = some (.text r.gate10Status) :=
    get_always (by simp [always])
  have hmember : r.toJson.get "saturation_pct" = some (Json.ofF64 (r.value .saturationPct)) :=
    get_always (written_mem (f := .saturationPct) (by decide +kernel))
  have hsat : JsonNode.asF64 (some (Json.ofF64 (r.value .saturationPct))) none =
      r.value .saturationPct := JsonNode.asF64_ofF64 (hr.value .saturationPct) none
  obtain ⟨q, hq, -⟩ : F64.IsFinite (r.value .saturationPct) := hr.value .saturationPct
  unfold fromJson readGate10 afterTopic
  dsimp only
  rw [hstatus, hmember, hsat]
  by_cases hpending : r.gate10Status = "PENDING"
  · rw [if_pos hpending]
    refine if_pos ⟨hpending, rfl, ?_⟩
    rw [hq]
    exact Option.some_ne_none _
  · rw [if_neg hpending]
    exact if_neg fun h => hpending h.1

theorem cornerScoreRaw_fromJson_toJson (h : r.Settled) (hr : r.Finite) :
    (fromJson r.toJson).cornerScoreRaw = r.cornerScoreRaw := by
  have hget : r.toJson.get "corner_score_raw" = some (Json.ofF64 r.cornerScoreRaw) := by
    rw [← h.corner]
    exact get_always (by simp [always])
  unfold fromJson
  dsimp only
  rw [hget]
  exact JsonNode.asF64_ofF64 hr.corner _

theorem runs_fromJson_toJson :
    (fromJson r.toJson).methodRunIds = r.methodRunIds ∧
      (fromJson r.toJson).analysisRunId = r.analysisRunId := by
  have hids : r.toJson.get "method_run_ids" = some (Json.ofTexts r.methodRunIds) :=
    get_always (by simp [always])
  have hrun : r.toJson.get "analysis_run_id" = some ((r.analysisRunId.map Json.text).getD .null) :=
    get_always (by simp [always])
  unfold fromJson
  dsimp only
  rw [hids, hrun, Json.textsOf_ofTexts]
  refine ⟨rfl, ?_⟩
  cases r.analysisRunId with
  | none => rfl
  | some run => rfl

theorem lists_fromJson_toJson (hr : r.Finite) :
    (fromJson r.toJson).dwellEvents = r.dwellEvents ∧
      (fromJson r.toJson).freezeEvents = r.freezeEvents ∧
      (fromJson r.toJson).observabilityFlags = r.observabilityFlags ∧
      (fromJson r.toJson).methodEligibility = r.methodEligibility := by
  have hdwell : r.toJson.get "dwell_events" = some (.array (r.dwellEvents.map DwellEvent.write)) :=
    get_always (by simp [always])
  have hfreeze : r.toJson.get "freeze_events" =
      some (.array (r.freezeEvents.map FreezeEvent.write)) := get_always (by simp [always])
  have hflags : r.toJson.get "observability_flags" =
      some (.array (r.observabilityFlags.map Json.text)) := get_always (by simp [always])
  have hmethods : r.toJson.get "method_eligibility" =
      some (MethodEligibility.write r.methodEligibility) := get_always (by simp [always])
  unfold fromJson
  dsimp only
  rw [hdwell, hfreeze, hflags, hmethods]
  exact ⟨map_read_write fun e he => DwellEvent.read_write (hr.dwell e he),
    map_read_write fun e he => FreezeEvent.read_write (hr.freeze e he),
    map_read_write fun _ _ => rfl, MethodEligibility.read_write r.methodEligibility⟩

theorem parts_fromJson_toJson (h : r.Settled) (hr : r.Finite) :
    (fromJson r.toJson).configurationVersion = r.configurationVersion ∧
      (fromJson r.toJson).interaction = r.interaction ∧
      (fromJson r.toJson).alignedShort = r.alignedShort := by
  have hversion : r.toJson.get "configurationVersion" =
      if r.configurationVersion = "" then none else some (.text r.configurationVersion) :=
    get_sometimes (by simp [sometimes])
  have hinteraction : r.toJson.get "interaction" = r.interaction.map InteractionSummary.write :=
    get_sometimes (by simp [sometimes])
  have hshort : r.toJson.get "short_features" = r.alignedShort.map CplmShortFeatureResult.toJson :=
    get_sometimes (by simp [sometimes])
  unfold fromJson
  dsimp only
  rw [hversion, hinteraction, hshort]
  refine ⟨?_, ?_, ?_⟩
  · split
    · rename_i hempty
      rw [hempty]
      rfl
    · rfl
  · rcases Option.eq_none_or_eq_some r.interaction with hnone | ⟨i, hsome⟩
    · rw [hnone]
      rfl
    · rw [hsome]
      exact InteractionSummary.read_write (hr.interaction i hsome)
  · rcases Option.eq_none_or_eq_some r.alignedShort with hnone | ⟨s, hsome⟩
    · rw [hnone]
      rfl
    · have hread := CplmShortFeatureResult.short_fromJson_toJson (h.short s hsome) (hr.short s hsome)
      rw [hsome, Option.map_some, Option.filter_some, if_pos (by rfl), Option.map_some, hread]

theorem long_fromJson_toJson (h : r.Settled) (hr : r.Finite) : fromJson r.toJson = r.afterTopic := by
  have hruns := runs_fromJson_toJson (r := r)
  have hlists := lists_fromJson_toJson hr
  have hparts := parts_fromJson_toJson h hr
  exact CplmLongDiagnosticsResult.ext (value_fromJson_toJson hr) (cornerScoreRaw_fromJson_toJson h hr)
    (gate10Status_fromJson_toJson hr) hparts.1 hruns.1 hruns.2 hlists.1 hlists.2.1 hlists.2.2.1 hparts.2.1
    hlists.2.2.2 hparts.2.2

end CplmLongDiagnosticsResult

end OpenBridge.FeatureTopic
