import OpenBridge.Foundation.RecordJson
import OpenBridge.Identity.RunIdentity

/-!
# Feature topics: the short feature record

`CplmShortFeatureResult`: its fields, the members `toJson` writes them to, those `fromJson` reads them
from, and the round trip.  Jackson's text of a tree reads back as the tree, so a record is written to a
tree and read from it; a double in the tree is its literal.  No two members have one key, so their
order is not kept.
-/

namespace OpenBridge.FeatureTopic

open OpenBridge.Foundation
open OpenBridge.Identity

/-- `CplmLoopDynamicsProfile.CALCULATION_VERSION`. -/
def calculationVersion : String := "3.0.0"

/-- `CplmLoopDynamicsProfile.DYNAMICS_PROFILE_VERSION`. -/
def dynamicsProfileVersion : String := "2.0.0"

/-- `BuildIdentity.UNKNOWN`. -/
def unknownBuild : String := "unknown"

/-- `BuildIdentity.CONTRACT_VERSION`. -/
def contractVersion : String := "v1"

/-- The plain fields of a short feature record. -/
inductive ShortField where
  | loopId | assetUuid | windowKind | windowStartMs | windowEndMs | samplePeriodSec
  | expectedSampleCount | sampleCount | completeness | badQualityPct | unknownQualityPct
  | duplicateTimestamps | samplingJitter | gapCount | maxGapS | gate0Status | gate0Reason
  | autoPct | manualPct | modeChangesPerHour | gate1Status | spMin | spMax | spRange
  | spChangesPerHour | gate2Status | gate2BandEu | gate2BandSource | mae | rmse | iae | ise
  | itae | goodErrorPct | oce | pvStd | opStd | freezeIndexS | gate3Status | effortRatio
  | effortRatioNormalized | activityBasis | activityReason | gate4WarnRatio | gate4HighRatio
  | opTravel | travelPerDay | reversalCount | reversalsPerHour | saturationPct | gate4Status
  | gate2rStatus | regionOutOfBandPct | operatingRegionValid | calculationVersion
  | dynamicsProfileVersion | sourceCommit | jarSha256 | contractVersion | bundleHash
  | contextRevision | evaluationState | evaluationReason | purpose | datasetHash | resultRevision
  | dynamicsClass | gateProfileId | loopType | sufficientData
  deriving DecidableEq

namespace ShortField

def kind : ShortField → FieldKind
  | .loopId | .assetUuid | .windowKind | .gate0Status | .gate0Reason | .gate1Status
  | .gate2Status | .gate2BandSource | .gate3Status | .activityBasis | .activityReason
  | .gate4Status | .gate2rStatus | .calculationVersion | .dynamicsProfileVersion | .sourceCommit
  | .jarSha256 | .contractVersion | .bundleHash | .evaluationState | .evaluationReason | .purpose
  | .datasetHash | .dynamicsClass | .gateProfileId | .loopType => .text
  | .windowStartMs | .windowEndMs => .long
  | .expectedSampleCount | .sampleCount | .duplicateTimestamps | .gapCount | .reversalCount
  | .contextRevision | .resultRevision => .int
  | .operatingRegionValid | .sufficientData => .bool
  | _ => .double

/-- The members that `toJson` writes, in its order. -/
def written : List (ShortField × String) := [
  (.loopId, "loop_id"), (.assetUuid, "asset_uuid"), (.windowKind, "window_kind"),
  (.windowStartMs, "windowStartMs"), (.windowEndMs, "windowEndMs"),
  (.samplePeriodSec, "sample_period_sec"), (.expectedSampleCount, "expected_sample_count"),
  (.sampleCount, "sample_count"), (.completeness, "completeness"),
  (.badQualityPct, "bad_quality_pct"), (.unknownQualityPct, "unknown_quality_pct"),
  (.duplicateTimestamps, "duplicate_timestamps"), (.samplingJitter, "sampling_jitter"),
  (.gapCount, "gap_count"), (.maxGapS, "max_gap_s"), (.gate0Status, "gate0_status"),
  (.gate0Reason, "gate0_reason"), (.autoPct, "auto_pct"), (.manualPct, "manual_pct"),
  (.modeChangesPerHour, "mode_changes_per_h"), (.gate1Status, "gate1_status"),
  (.spMin, "sp_min"), (.spMax, "sp_max"), (.spRange, "sp_range"),
  (.spChangesPerHour, "sp_changes_per_h"), (.gate2Status, "gate2_status"),
  (.gate2BandEu, "gate2_band_eu"), (.gate2BandSource, "gate2_band_source"), (.mae, "mae"),
  (.rmse, "rmse"), (.iae, "iae"), (.ise, "ise"), (.itae, "itae"),
  (.goodErrorPct, "good_error_pct"), (.oce, "oce"), (.pvStd, "pv_std"), (.opStd, "op_std"),
  (.freezeIndexS, "freeze_index_s"), (.gate3Status, "gate3_status"),
  (.effortRatio, "effort_ratio"), (.effortRatioNormalized, "effort_ratio_normalized"),
  (.activityBasis, "activity_basis"), (.activityReason, "activity_reason"),
  (.gate4WarnRatio, "gate4_warn_ratio"), (.gate4HighRatio, "gate4_high_ratio"),
  (.opTravel, "op_travel"), (.travelPerDay, "travel_per_day"),
  (.reversalCount, "reversal_count"), (.reversalsPerHour, "reversals_per_hour"),
  (.saturationPct, "saturation_pct"), (.gate4Status, "gate4_status"),
  (.gate2rStatus, "gate2r_status"), (.regionOutOfBandPct, "region_out_of_band_pct"),
  (.operatingRegionValid, "operating_region_valid"), (.calculationVersion, "calculationVersion"),
  (.dynamicsProfileVersion, "dynamicsProfileVersion"), (.sourceCommit, "sourceCommit"),
  (.jarSha256, "jarSha256"), (.contractVersion, "contractVersion"), (.bundleHash, "bundle_hash"),
  (.contextRevision, "context_revision"), (.evaluationState, "evaluation_state"),
  (.evaluationReason, "evaluation_reason"), (.purpose, "purpose"),
  (.datasetHash, "dataset_hash"), (.resultRevision, "result_revision"),
  (.dynamicsClass, "dynamics_class"), (.gateProfileId, "gate_profile_id"),
  (.loopType, "loop_type"), (.sufficientData, "sufficient_data")]

/-- The members that `fromJson` reads, in its order. -/
def readFrom : List (ShortField × String) := [
  (.loopId, "loop_id"), (.assetUuid, "asset_uuid"), (.windowKind, "window_kind"),
  (.windowStartMs, "windowStartMs"), (.windowEndMs, "windowEndMs"),
  (.samplePeriodSec, "sample_period_sec"), (.expectedSampleCount, "expected_sample_count"),
  (.sampleCount, "sample_count"), (.completeness, "completeness"),
  (.badQualityPct, "bad_quality_pct"), (.unknownQualityPct, "unknown_quality_pct"),
  (.gate0Reason, "gate0_reason"), (.duplicateTimestamps, "duplicate_timestamps"),
  (.samplingJitter, "sampling_jitter"), (.gapCount, "gap_count"), (.maxGapS, "max_gap_s"),
  (.autoPct, "auto_pct"), (.manualPct, "manual_pct"),
  (.modeChangesPerHour, "mode_changes_per_h"), (.spMin, "sp_min"), (.spMax, "sp_max"),
  (.spRange, "sp_range"), (.gate2BandEu, "gate2_band_eu"),
  (.gate2BandSource, "gate2_band_source"), (.activityBasis, "activity_basis"),
  (.activityReason, "activity_reason"), (.gate4WarnRatio, "gate4_warn_ratio"),
  (.gate4HighRatio, "gate4_high_ratio"), (.spChangesPerHour, "sp_changes_per_h"), (.mae, "mae"),
  (.rmse, "rmse"), (.iae, "iae"), (.ise, "ise"), (.itae, "itae"),
  (.goodErrorPct, "good_error_pct"), (.oce, "oce"), (.pvStd, "pv_std"), (.opStd, "op_std"),
  (.freezeIndexS, "freeze_index_s"), (.effortRatio, "effort_ratio"),
  (.effortRatioNormalized, "effort_ratio_normalized"), (.opTravel, "op_travel"),
  (.travelPerDay, "travel_per_day"), (.reversalCount, "reversal_count"),
  (.reversalsPerHour, "reversals_per_hour"), (.saturationPct, "saturation_pct"),
  (.gate0Status, "gate0_status"), (.gate1Status, "gate1_status"), (.gate2Status, "gate2_status"),
  (.gate3Status, "gate3_status"), (.gate4Status, "gate4_status"),
  (.gate2rStatus, "gate2r_status"), (.regionOutOfBandPct, "region_out_of_band_pct"),
  (.operatingRegionValid, "operating_region_valid"), (.calculationVersion, "calculationVersion"),
  (.dynamicsProfileVersion, "dynamicsProfileVersion"), (.sourceCommit, "sourceCommit"),
  (.jarSha256, "jarSha256"), (.contractVersion, "contractVersion"), (.bundleHash, "bundle_hash"),
  (.contextRevision, "context_revision"), (.evaluationState, "evaluation_state"),
  (.evaluationReason, "evaluation_reason"), (.resultRevision, "result_revision"),
  (.purpose, "purpose"), (.datasetHash, "dataset_hash"), (.dynamicsClass, "dynamics_class"),
  (.gateProfileId, "gate_profile_id"), (.loopType, "loop_type"),
  (.sufficientData, "sufficient_data")]

/-- The fields that `putMetric` writes. -/
def isMetric : ShortField → Bool
  | .autoPct | .manualPct | .modeChangesPerHour | .spMin | .spMax | .spRange | .spChangesPerHour
  | .gate2BandEu | .mae | .rmse | .iae | .ise | .itae | .goodErrorPct | .oce | .pvStd | .opStd
  | .freezeIndexS | .effortRatio | .effortRatioNormalized | .gate4WarnRatio | .gate4HighRatio
  | .opTravel | .travelPerDay | .reversalCount | .reversalsPerHour | .saturationPct
  | .regionOutOfBandPct => true
  | _ => false

def initial : (f : ShortField) → f.kind.Value
  | .gate0Status | .gate1Status | .gate2Status | .gate3Status | .gate4Status => "PENDING"
  | .gate2rStatus => "PASS"
  | .operatingRegionValid | .sufficientData => true
  | .calculationVersion => FeatureTopic.calculationVersion
  | .dynamicsProfileVersion => FeatureTopic.dynamicsProfileVersion
  | .sourceCommit | .jarSha256 => unknownBuild
  | .contractVersion => FeatureTopic.contractVersion
  | .bundleHash => ProfileHash.legacy
  | .evaluationState => "EVALUATED"
  | .resultRevision => (1 : ℤ)
  | .purpose => "LIVE"
  | .datasetHash => DatasetHash.empty
  | .dynamicsClass => "UNKNOWN"
  | f => f.kind.zero

end ShortField

@[ext]
structure CplmShortFeatureResult where
  value : (f : ShortField) → f.kind.Value
  activityRatioNorm : Option F64
  methodRunIds : Dict String String
  analysisRunId : Option String

namespace CplmShortFeatureResult

abbrev table : FieldTable ShortField :=
  ⟨ShortField.kind, ShortField.written, ShortField.readFrom, ShortField.initial⟩

def ofValues (value : table.Record) : CplmShortFeatureResult := ⟨value, none, Dict.empty, none⟩

def sufficientData (r : CplmShortFeatureResult) : Bool := r.value .sufficientData

/-- `put` and `putMetric`: a metric that was never computed is null. -/
def put (r : CplmShortFeatureResult) (f : ShortField) : Json :=
  if f.isMetric ∧ ¬ r.sufficientData then .null else table.write r.value f

/-- The members of `toJson`. -/
def members (r : CplmShortFeatureResult) : List (String × Json) :=
  [("schemaVersion", .number (.integral 1)), ("eventType", .text "CPLM_SHORT_FEATURE")] ++
    (ShortField.written.map fun m => (m.2, r.put m.1)) ++
    [("activity_ratio_norm",
        ((r.activityRatioNorm.filter fun _ => r.sufficientData).map Json.ofF64).getD .null),
      ("method_run_ids", Json.ofTexts r.methodRunIds),
      ("analysis_run_id", (r.analysisRunId.map Json.text).getD .null)]

def toJson (r : CplmShortFeatureResult) : Json := .object r.members

def fromJson (root : Json) : CplmShortFeatureResult :=
  { value := table.read root
    activityRatioNorm := ((root.get "activity_ratio_norm").filter fun j => ¬ j.isNull).map fun j =>
      JsonNode.asF64 (some j) (F64.ofInt 0)
    methodRunIds := Json.textsOf (root.get "method_run_ids")
    analysisRunId := (root.get "analysis_run_id").nullableText }

/-! ## The round trip -/

structure Settled (r : CplmShortFeatureResult) : Prop where
  metric : r.sufficientData = false → ∀ f, f.isMetric = true → r.value f = f.initial
  ratio : r.sufficientData = false → r.activityRatioNorm = none

structure Finite (r : CplmShortFeatureResult) : Prop where
  value : table.Holds r.value
  ratio : ∀ a, r.activityRatioNorm = some a → a.IsFinite

theorem holds_initial : table.Holds ShortField.initial := by
  intro f
  cases f <;> first | exact trivial | exact FieldKind.holds_zero .double |
    exact FieldKind.holds_zero .int | exact FieldKind.holds_zero .long |
    exact (by decide : (-2 ^ 31 : ℤ) ≤ 1 ∧ (1 : ℤ) < 2 ^ 31)

theorem agrees (f : ShortField) : table.Agrees f := by
  cases f <;> decide

theorem keysOf_members_nodup (r : CplmShortFeatureResult) : (Json.keysOf r.members).Nodup := by
  have hkeys : Json.keysOf r.members = ["schemaVersion", "eventType"] ++
      ShortField.written.map Prod.snd ++
      ["activity_ratio_norm", "method_run_ids", "analysis_run_id"] := by
    unfold members Json.keysOf
    rw [List.map_append, List.map_append, List.map_map]
    rfl
  rw [hkeys]
  decide

variable {r : CplmShortFeatureResult}

theorem value_fromJson_toJson (h : r.Settled) (hr : r.Finite) : (fromJson r.toJson).value = r.value := by
  have hmem : ∀ m ∈ table.written, (m.2, r.put m.1) ∈ r.members := by
    intro m hm
    unfold members
    exact List.mem_append_left _ (List.mem_append_right _ (List.mem_map.mpr ⟨m, hm, rfl⟩))
  funext f
  by_cases hnull : f.isMetric = true ∧ ¬ r.sufficientData
  · have hput : r.put f = .null := if_pos hnull
    have hinitial := h.metric (Bool.not_eq_true _ ▸ hnull.2) f hnull.1
    change table.read r.toJson f = r.value f
    unfold toJson
    rw [FieldTable.read_object r.keysOf_members_nodup hmem (agrees f), hput, FieldKind.read_null,
      hinitial]
  · exact FieldTable.read_of_put r.keysOf_members_nodup hmem (agrees f) (hr.value f) (if_neg hnull)

theorem activityRatioNorm_fromJson_toJson (h : r.Settled) (hr : r.Finite) :
    (fromJson r.toJson).activityRatioNorm = r.activityRatioNorm := by
  have hget : r.toJson.get "activity_ratio_norm" =
      some (((r.activityRatioNorm.filter fun _ => r.sufficientData).map Json.ofF64).getD .null) :=
    Json.get_of_mem r.keysOf_members_nodup (by simp [members])
  have hkept : (r.activityRatioNorm.filter fun _ => r.sufficientData) = r.activityRatioNorm := by
    cases hs : r.sufficientData with
    | false => rw [h.ratio hs, Option.filter_none]
    | true => cases r.activityRatioNorm <;> rfl
  unfold fromJson
  dsimp only
  rw [hget, hkept]
  rcases Option.eq_none_or_eq_some r.activityRatioNorm with hnone | ⟨a, hsome⟩
  · rw [hnone]
    rfl
  · obtain ⟨q, rfl, hq⟩ := hr.ratio a hsome
    rw [hsome, Option.map_some, Option.getD_some, Option.filter_some, if_pos (by rfl),
      Option.map_some, JsonNode.asF64_ofF64 ⟨q, rfl, hq⟩]

theorem short_fromJson_toJson (h : r.Settled) (hr : r.Finite) : fromJson r.toJson = r := by
  have hkeys := r.keysOf_members_nodup
  have hvalue := value_fromJson_toJson h hr
  have hratio := activityRatioNorm_fromJson_toJson h hr
  have hids : (fromJson r.toJson).methodRunIds = r.methodRunIds := by
    have hget : r.toJson.get "method_run_ids" = some (Json.ofTexts r.methodRunIds) :=
      Json.get_of_mem hkeys (by simp [members])
    unfold fromJson
    dsimp only
    rw [hget, Json.textsOf_ofTexts]
  have hrun : (fromJson r.toJson).analysisRunId = r.analysisRunId := by
    have hget : r.toJson.get "analysis_run_id" = some ((r.analysisRunId.map Json.text).getD .null) :=
      Json.get_of_mem hkeys (by simp [members])
    unfold fromJson
    dsimp only
    rw [hget]
    cases r.analysisRunId with
    | none => rfl
    | some run => rfl
  exact CplmShortFeatureResult.ext hvalue hratio hids hrun

end CplmShortFeatureResult

end OpenBridge.FeatureTopic
