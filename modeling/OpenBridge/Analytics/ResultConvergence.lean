import OpenBridge.Analytics.CplmConsumers
import OpenBridge.Foundation.Compaction
import OpenBridge.Foundation.Guid
import OpenBridge.Foundation.FirstsBy

/-!
# Analytics: the rows of the results

What `CplmResultConsumerService` writes of a result: `BindGateParameters`, the parameters of
`PersistFeatureAsync`, and the three upserts.  `created_at` is left out.
-/

namespace OpenBridge.Analytics

open OpenBridge.Foundation

inductive ResultTable where
  | gate
  | short
  | long
  deriving DecidableEq

def ResultTable.metrics : ResultTable → List String
  | gate => ["mae", "rmse", "iae", "good_error_pct", "acf_period_s", "acf_regularity",
      "effort_ratio", "triangularity", "horch_oddness", "phase_area_norm_per_cycle",
      "corner_score", "travel_per_day", "reversals_per_hour", "harmonic_amplitude_ratio",
      "harmonic_energy_ratio", "confidence"]
  | short => ["iae", "ise", "mae", "rmse", "good_error_pct", "effort_ratio", "travel_per_day",
      "reversals_per_hour", "auto_pct", "completeness"]
  | long => ["acf_period_s", "acf_regularity", "effort_ratio", "triangularity", "horch_oddness",
      "corner_score", "travel_per_day", "reversals_per_hour", "harmonic_amplitude_ratio",
      "harmonic_energy_ratio"]

def ResultTable.texts : ResultTable → List String
  | gate => ["diagnosis", "severity"]
  | _ => []

def ResultTable.windowKind : ResultTable → String
  | short => "5m"
  | _ => "24h"

structure ResultKey where
  table : ResultTable
  loopId : String
  windowKind : String
  windowEndMs : ℤ
  source : String
  bundleHash : String
  deriving DecidableEq

/-- The evaluation that a row carries: its analysis run, purpose and context revision. -/
structure ResultRun where
  analysisRunId : Option Guid
  purpose : String
  contextRevision : ℤ
  deriving DecidableEq

/-- The other columns of a row. -/
structure ResultRow where
  windowStartMs : Option ℤ
  sampleCount : ℤ
  metrics : List (Option Double)
  texts : List (Option String)
  payload : Json
  methodRunIds : Json
  run : ResultRun
  resultRevision : ℤ
  sourceCommit : Option String
  jarSha256 : Option String
  datasetHash : Option String

structure Delivery where
  table : ResultTable
  root : Json

/-! ## The parameters -/

def getInt (root : Json) (name : String) : ℤ :=
  match root.get name with
  | some (.number n) => (int32? n).getD 0
  | _ => 0

/-- `GetDoubleOrNull`: an absent member is zero, one that is no number is `NULL`. -/
def getDoubleOrNull (root : Json) (name : String) : Option Double :=
  match root.get name with
  | none => some (.finite 0)
  | some (.number n) => some n.toDouble
  | some _ => none

/-- `AddTimestamp`: a time that is not positive is `NULL`. -/
def timestamp (root : Json) (name : String) : Option ℤ := (int64? root name).filter (0 < ·)

def methodRunIds (root : Json) : Json :=
  match root.get "method_run_ids" with
  | some ids => if ids.isObject then ids else .object []
  | none => .object []

section Parameters

/- `Guid.TryParse`. -/
variable (tryParseGuid : String → Option Guid)

/-- The evaluation among `AddIdentityParameters`. -/
def runOf (root : Json) : ResultRun where
  analysisRunId := (getString root "analysis_run_id").bind tryParseGuid
  purpose := (getString root "purpose").getD "LIVE"
  contextRevision := getInt root "context_revision"

def keyOf (d : Delivery) : ResultKey where
  table := d.table
  loopId := (loopIdOf d.root).getD ""
  windowKind := (getString d.root "window_kind").getD d.table.windowKind
  windowEndMs := (int64? d.root "windowEndMs").getD 0
  source := (getString d.root "calculation_source").getD "flink"
  bundleHash := (getString d.root "bundle_hash").getD "legacy"

def rowOf (d : Delivery) : ResultRow where
  windowStartMs := timestamp d.root "windowStartMs"
  sampleCount := getInt d.root "sample_count"
  metrics := d.table.metrics.map (getDoubleOrNull d.root)
  texts := d.table.texts.map (getString d.root)
  payload := d.root
  methodRunIds := methodRunIds d.root
  run := runOf tryParseGuid d.root
  resultRevision := max 1 (getInt d.root "result_revision")
  sourceCommit := getString d.root "sourceCommit"
  jarSha256 := getString d.root "jarSha256"
  datasetHash := getString d.root "dataset_hash"

def bound (d : Delivery) : Option (ResultKey × ResultRow) :=
  match persist d.root with
  | .applies => some (keyOf d, rowOf tryParseGuid d)
  | _ => none

end Parameters

/-! ## The upserts -/

/-- `DO UPDATE SET`: the columns that are set from `EXCLUDED`. -/
def doUpdate (stored excluded : ResultRow) : ResultRow :=
  { stored with
    windowStartMs := excluded.windowStartMs
    sampleCount := excluded.sampleCount
    metrics := excluded.metrics
    texts := excluded.texts
    payload := excluded.payload
    methodRunIds := excluded.methodRunIds
    run := { stored.run with
      contextRevision := excluded.run.contextRevision
      purpose := excluded.run.purpose
      analysisRunId := excluded.run.analysisRunId }
    resultRevision := excluded.resultRevision
    sourceCommit := excluded.sourceCommit
    jarSha256 := excluded.jarSha256
    datasetHash := excluded.datasetHash }

theorem doUpdate_eq (stored excluded : ResultRow) : doUpdate stored excluded = excluded := rfl

/-- `INSERT … ON CONFLICT … DO UPDATE … WHERE EXCLUDED.sample_count >= sample_count`. -/
def upsert (excluded : ResultRow) (stored : Option ResultRow) : Option ResultRow :=
  match stored with
  | none => some excluded
  | some row =>
      if row.sampleCount ≤ excluded.sampleCount then some (doUpdate row excluded) else some row

def rowsAfter (tryParseGuid : String → Option Guid) (ds : List Delivery) :
    ResultKey → Option ResultRow :=
  (ds.filterMap (bound tryParseGuid)).foldl
    (Compaction.keyedStep Prod.fst fun kr stored => upsert kr.2 stored) fun _ => none

/-- `withReplayLineage`: the fields a replay puts on its results.  The flag of assumed quality is among
the fields of `result`. -/
def withReplayLineage (result : Dict String Json) (replayId inputTopic : String)
    (purpose analysisRunId : Option String) : Dict String Json :=
  let root := (result.set "replay_id" (.text replayId)).set "calculation_source"
    (.text "flink-historical-replay")
  let root := (root.set "replay_input_topic" (.text inputTopic)).set "purpose"
    (.text (if purpose.getD "" = "" then "REPLAY" else purpose.getD ""))
  root.set "analysis_run_id"
    (if analysisRunId.getD "" = "" then .null else .text (analysisRunId.getD ""))

/-!
# Analytics: when the result rows converge

A key's row is a register that keeps the result with the most samples, the last delivered of them.
The key holds neither the analysis run nor the purpose nor the context revision: two evaluations of
one window with one source and bundle share a row.
-/

section Rows

/- `Guid.TryParse`. -/
variable (tryParseGuid : String → Option Guid)

def rowAt (k : ResultKey) (d : Delivery) : Option ResultRow :=
  (bound tryParseGuid d).bind fun kr => if kr.1 = k then some kr.2 else none

theorem rowAt_eq_some {k : ResultKey} {d : Delivery} {r : ResultRow} :
    rowAt tryParseGuid k d = some r ↔ bound tryParseGuid d = some (k, r) := by
  unfold rowAt
  rw [Option.bind_eq_some_iff]
  constructor
  · rintro ⟨⟨k', r'⟩, hbound, hif⟩
    split at hif
    · rename_i hk
      dsimp only at hk hif
      obtain rfl := Option.some.inj hif
      rw [hbound, hk]
    · cases hif
  · exact fun hbound => ⟨_, hbound, if_pos rfl⟩

theorem run_of_bound {k : ResultKey} {d : Delivery} {r : ResultRow}
    (h : bound tryParseGuid d = some (k, r)) : r.run = runOf tryParseGuid d.root := by
  unfold bound at h
  split at h
  · obtain ⟨-, rfl⟩ := Prod.mk.inj (Option.some.inj h)
    rfl
  · cases h

theorem upsert_eq_put (excluded : ResultRow) (stored : Option ResultRow) :
    upsert excluded stored = KeepGreatest.put ResultRow.sampleCount excluded stored := by
  cases stored with
  | none => rfl
  | some row =>
    unfold upsert KeepGreatest.put
    dsimp only
    rw [doUpdate_eq]

theorem rowsAfter_eq (ds : List Delivery) (k : ResultKey) :
    rowsAfter tryParseGuid ds k =
      KeepGreatest.kept ResultRow.sampleCount (ds.filterMap (rowAt tryParseGuid k)) := by
  unfold rowsAfter
  rw [Compaction.foldl_keyedStep]
  unfold KeepGreatest.kept
  generalize none = held
  induction ds generalizing held with
  | nil => rfl
  | cons d rest ih =>
    cases hbound : bound tryParseGuid d with
    | none =>
      have hnone : rowAt tryParseGuid k d = none := by
        unfold rowAt
        rw [hbound]
        rfl
      rw [List.filterMap_cons_none hbound, List.filterMap_cons_none hnone]
      exact ih held
    | some kr =>
      obtain ⟨k', r⟩ := kr
      by_cases hk : k' = k
      · subst hk
        have hsome := (rowAt_eq_some tryParseGuid).mpr hbound
        rw [List.filterMap_cons_some hbound, List.filterMap_cons_some hsome, List.filter_cons,
          if_pos (decide_eq_true rfl), List.foldl_cons, List.foldl_cons, upsert_eq_put]
        exact ih _
      · have hnone : rowAt tryParseGuid k d = none := by
          unfold rowAt
          rw [hbound]
          exact if_neg hk
        rw [List.filterMap_cons_some hbound, List.filterMap_cons_none hnone, List.filter_cons,
          if_neg (by simpa using hk)]
        exact ih held

end Rows

def Delivery.isLive (d : Delivery) : Bool := (keyOf d).source = "flink"

section Claims

variable (tryParseGuid : String → Option Guid) (ds : List Delivery)

def live : List Delivery := ds.filter Delivery.isLive

/-- The rows of the live results have the most samples, and are those of every order and repetition
of these results. -/
structure ConvergesLive : Prop where
  most : ∀ k r, rowsAfter tryParseGuid (live ds) k = some r →
    ∀ d ∈ live ds, ∀ r', bound tryParseGuid d = some (k, r') → r'.sampleCount ≤ r.sampleCount
  order : ∀ ds', (∀ d, d ∈ ds' ↔ d ∈ live ds) →
    rowsAfter tryParseGuid ds' = rowsAfter tryParseGuid (live ds)

/-- The row of a result's key is the one that the results of its own evaluation leave alone. -/
def NonInterfering : Prop :=
  ∀ d ∈ ds, ∀ k r, bound tryParseGuid d = some (k, r) →
    rowsAfter tryParseGuid ds k = rowsAfter tryParseGuid
      (ds.filter fun e => runOf tryParseGuid e.root = runOf tryParseGuid d.root) k

def MostSampled (k : ResultKey) (r : ResultRow) : Prop :=
  KeepGreatest.Greatest ResultRow.sampleCount ((live ds).filterMap (rowAt tryParseGuid k)) r

def OneRefinement : Prop :=
  ∀ k r r', MostSampled tryParseGuid ds k r → MostSampled tryParseGuid ds k r' → r = r'

def OneRun : Prop :=
  ∀ d ∈ ds, ∀ e ∈ ds, ∀ k r r', bound tryParseGuid d = some (k, r) →
    bound tryParseGuid e = some (k, r') → r.run = r'.run

variable {tryParseGuid ds}

theorem mem_rows {k : ResultKey} {r : ResultRow} : r ∈ ds.filterMap (rowAt tryParseGuid k) ↔
    ∃ d ∈ ds, bound tryParseGuid d = some (k, r) := by
  rw [List.mem_filterMap]
  exact exists_congr fun d => and_congr_right fun _ => rowAt_eq_some tryParseGuid

theorem convergesLive_iff :
    ConvergesLive tryParseGuid ds ↔ OneRefinement tryParseGuid ds := by
  constructor
  · intro h k r r' hr hr'
    -- a most sampled result that is delivered once more, and last, is stored
    have hstored : ∀ {q}, MostSampled tryParseGuid ds k q →
        rowsAfter tryParseGuid (live ds) k = some q := by
      intro q hq
      obtain ⟨d, hd, hbound⟩ := mem_rows.mp hq.1
      rw [← h.order (live ds ++ [d]) fun e => by
        rw [List.mem_append, List.mem_singleton]
        exact ⟨fun he => he.elim id fun heq => heq ▸ hd, .inl⟩]
      rw [rowsAfter_eq, List.filterMap_append,
        List.filterMap_cons_some ((rowAt_eq_some tryParseGuid).mpr hbound), List.filterMap_nil]
      exact KeepGreatest.kept_concat_of_greatest hq.2
    exact Option.some.inj ((hstored hr).symm.trans (hstored hr'))
  · intro h
    refine ⟨?_, ?_⟩
    · intro k r hstored d hd r' hbound
      rw [rowsAfter_eq] at hstored
      exact (KeepGreatest.greatest_of_kept hstored).2 r' (mem_rows.mpr ⟨d, hd, hbound⟩)
    · intro ds' hmem
      funext k
      rw [rowsAfter_eq, rowsAfter_eq]
      refine KeepGreatest.kept_congr_iff.mpr (h k) _ fun r => ?_
      rw [mem_rows, mem_rows]
      exact exists_congr fun d => and_congr_left fun _ => hmem d

theorem nonInterfering_iff : NonInterfering tryParseGuid ds ↔ OneRun tryParseGuid ds := by
  constructor
  · intro h d hd e he k r r' hbound hbound'
    -- the one row of the key is of the evaluation of either result
    have hrun : ∀ {c q}, c ∈ ds → bound tryParseGuid c = some (k, q) →
        ∃ stored, rowsAfter tryParseGuid ds k = some stored ∧ stored.run = q.run := by
      intro c q hc hq
      have hmem : q ∈ (ds.filter fun e => runOf tryParseGuid e.root = runOf tryParseGuid c.root).filterMap
          (rowAt tryParseGuid k) :=
        mem_rows.mpr ⟨c, List.mem_filter.mpr ⟨hc, decide_eq_true rfl⟩, hq⟩
      obtain ⟨stored, hstored⟩ := KeepGreatest.exists_kept ResultRow.sampleCount hmem
      obtain ⟨e, he, hbound⟩ := mem_rows.mp (KeepGreatest.greatest_of_kept hstored).1
      refine ⟨stored, ?_, ?_⟩
      · rw [h c hc k q hq, rowsAfter_eq]
        exact hstored
      · rw [run_of_bound tryParseGuid hbound, run_of_bound tryParseGuid hq]
        exact of_decide_eq_true (List.mem_filter.mp he).2
    obtain ⟨stored, hstored, hof⟩ := hrun hd hbound
    obtain ⟨stored', hstored', hof'⟩ := hrun he hbound'
    obtain rfl := Option.some.inj (hstored.symm.trans hstored')
    exact hof.symm.trans hof'
  · intro h d hd k r hbound
    rw [rowsAfter_eq, rowsAfter_eq, List.filterMap_filter]
    congr 1
    refine List.filterMap_congr fun e he => ?_
    cases hrow : rowAt tryParseGuid k e with
    | none => rw [ite_self]
    | some r' =>
      have hbound' := (rowAt_eq_some tryParseGuid).mp hrow
      have hrun := h e he d hd k r' r hbound' hbound
      rw [run_of_bound tryParseGuid hbound', run_of_bound tryParseGuid hbound] at hrun
      rw [if_pos (decide_eq_true hrun)]

end Claims

/-- The rows converge, and no evaluation overwrites or suppresses another, exactly when the live
results of a key with the most samples are one result, and a key has one analysis run, purpose and
context revision. -/
theorem results_converge_iff (tryParseGuid : String → Option Guid) (ds : List Delivery) :
    (ConvergesLive tryParseGuid ds ∧ NonInterfering tryParseGuid ds) ↔
      OneRefinement tryParseGuid ds ∧ OneRun tryParseGuid ds := by
  rw [convergesLive_iff, nonInterfering_iff]

def dayResult (samples : ℤ) : Dict String Json :=
  (((Dict.empty.set "loop_id" (.text "FIC-101")).set "windowEndMs"
    (.number (.integral 1768780800000))).set "sample_count" (.number (.integral samples))).set
      "bundle_hash" (.text "b1")

def replayed (samples : ℤ) (purpose : String) (run : Guid) : Delivery :=
  ⟨.gate, .object (withReplayLineage (dayResult samples) "replay" "samples" (some purpose)
    (some run.text)).entries⟩

/-- `Guid.TryParse` on the texts of two runs. -/
def parseRun (s : String) : Option Guid :=
  if s = Guid.text 1 then some 1 else if s = Guid.text 2 then some 2 else none

def replayThenShadow : List Delivery := [replayed 8640 "REPLAY" 1, replayed 8639 "SHADOW" 2]

/-- The result of the shadow run is never stored. -/
theorem shadow_suppressed_by_replay :
    ¬ ∀ (tryParseGuid : String → Option Guid) (ds : List Delivery),
      ConvergesLive tryParseGuid ds ∧ NonInterfering tryParseGuid ds := by
  intro h
  have happlies : persist (replayed 8639 "SHADOW" 2).root = .applies := by decide
  have hbound : bound parseRun (replayed 8639 "SHADOW" 2) =
      some (keyOf (replayed 8639 "SHADOW" 2), rowOf parseRun (replayed 8639 "SHADOW" 2)) := by
    unfold bound
    rw [happlies]
  have hrow := (h parseRun replayThenShadow).2 _ (by simp [replayThenShadow]) _ _ hbound
  have hrun := congrArg (Option.map fun r => r.run.analysisRunId) hrow
  revert hrun
  decide

end OpenBridge.Analytics
