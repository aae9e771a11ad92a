import OpenBridge.Response.ResponseCapture

/-!
# Response: the observed response of an event

`metrics/Endpoints.java`, `metrics/Settling.java` and the quantities of
`metrics/ResponseMetricCalculator.compute` that come from the endpoints and the settling.
-/

namespace OpenBridge.Response

/-- `Quantity`: a value, or the reason why there is none. -/
inductive Quantity
  | of (value : ℚ)
  | unavailable (reason : String)
  deriving DecidableEq

namespace Endpoints

structure Estimate where
  value : Option ℚ
  reason : String
  samples : ℕ
  start : ℚ
  stop : ℚ

/-- `NO_VALID_BASELINE`. -/
def noValidBaseline : String := "NO_VALID_BASELINE"

/-- `NO_STABLE_ENDPOINT`. -/
def noStableEndpoint : String := "NO_STABLE_ENDPOINT"

def inWindow (d : EventDataset) (start stop : ℚ) (halfOpenEnd : Bool) : List DataPoint :=
  d.points.filter fun p =>
    p.valid && decide (start ≤ p.t) && (if halfOpenEnd then decide (p.t < stop) else decide (p.t ≤ stop))

/-- `window`: the median of the valid points, when the window is covered and stable. -/
def window (d : EventDataset) (start stop : ℚ) (halfOpenEnd : Bool) (band : ℚ) (minSamples : ℕ)
    (reason : String) : Estimate :=
  let inside := inWindow d start stop halfOpenEnd
  let vals := inside.map DataPoint.y
  let span := stop - start
  if vals.length < minSamples then ⟨none, reason, vals.length, start, stop⟩
  else if 1 / 2 * span < (inside.headD default).t - start ∨
      1 / 2 * span < stop - (inside.getLastD default).t then
    ⟨none, reason, vals.length, start, stop⟩
  else if !within band vals then ⟨none, reason, vals.length, start, stop⟩
  else ⟨some (median vals), "", vals.length, start, stop⟩

def baseline (d : EventDataset) (preSupportS stableBandEu : ℚ) (minSamples : ℕ) : Estimate :=
  window d (d.t0 - preSupportS) d.t0 true stableBandEu minSamples noValidBaseline

def endpoint (d : EventDataset) (tailDwellS stableBandEu : ℚ) (minSamples : ℕ) : Estimate :=
  window d (d.tEnd - tailDwellS) d.tEnd false stableBandEu minSamples noStableEndpoint

end Endpoints

def DataPoint.counts (t0 : ℚ) (p : DataPoint) : Bool := p.valid && decide (t0 ≤ p.t)

namespace Settling

/-- The walk of `settle` from the newest point back: the earliest time from which every later valid
point is in the band, with no gap between two of them. -/
def walkBack (t0 centre band maxGapS : ℚ) : Option ℚ → ℚ → List DataPoint → Option ℚ
  | entry, _, [] => entry
  | entry, prevT, p :: older =>
      if p.t < t0 then entry
      else if !p.valid then walkBack t0 centre band maxGapS entry prevT older
      else if maxGapS < prevT - p.t then entry
      else if band < |p.y - centre| then entry
      else walkBack t0 centre band maxGapS (some p.t) p.t older

/-- `settle`: measured from the start of the event, when the tail dwell was observed. -/
def settle (d : EventDataset) (centre band tailDwellS maxGapS : ℚ) : Option ℚ :=
  match d.points.reverse.dropWhile fun p => !p.counts d.t0 with
  | [] => none
  | last :: older =>
    match walkBack d.t0 centre band maxGapS none last.t (last :: older) with
    | none => none
    | some entry => if d.tEnd - entry < tailDwellS then none else some (entry - d.t0)

def responseSettle (d : EventDataset) (yss band tailDwellS maxGapS : ℚ) : Option ℚ :=
  settle d yss band tailDwellS maxGapS

def targetSettle (d : EventDataset) (r1 targetBand tailDwellS maxGapS : ℚ) : Option ℚ :=
  settle d r1 targetBand tailDwellS maxGapS

end Settling

namespace ResponseMetricCalculator

structure Settings where
  preSupportS : ℚ
  tailDwellS : ℚ
  stableBandEu : ℚ
  absSettlingBandEu : ℚ
  relSettlingBand : ℚ
  noiseFloorEu : ℚ
  maxGapS : ℚ
  minResponseEu : ℚ
  targetBandEu : ℚ
  minSamples : ℕ := 3

structure Observed where
  inputStep : Quantity
  spStep : Quantity
  baselinePv : Quantity
  endpointPv : Quantity
  settleResponse : Quantity
  settleTarget : Quantity
  steadyError : Quantity
  servoGain : Quantity

def quantity (value : Option ℚ) (reason : String) : Quantity :=
  match value with
  | none => .unavailable reason
  | some v => .of v

def compute (d : EventDataset) (r0 r1 : ℚ) (duApplied : Option ℚ) (s : Settings) : Observed :=
  let refStep := r1 ≠ r0
  let y0e := Endpoints.baseline d s.preSupportS s.stableBandEu s.minSamples
  let ysse := Endpoints.endpoint d s.tailDwellS s.stableBandEu s.minSamples
  let inputStep := quantity duApplied "NO_STEP_OR_UNKNOWN_INPUT"
  let spStep := quantity (if refStep then some (r1 - r0) else none) "NOT_REFERENCE_STEP"
  let baselinePv := quantity y0e.value Endpoints.noValidBaseline
  let endpointPv := quantity ysse.value Endpoints.noStableEndpoint
  let censored : Observed :=
    { inputStep := inputStep
      spStep := spStep
      baselinePv := baselinePv
      endpointPv := endpointPv
      settleResponse := .unavailable
        (if ysse.value.isNone then "RIGHT_CENSORED_OR_INTEGRATING_OPEN_LOOP"
        else "NO_MEANINGFUL_RESPONSE")
      settleTarget := .unavailable "TARGET_NOT_REACHED_OR_NO_OBJECTIVE"
      steadyError := quantity (if refStep then ysse.value.map (r1 - ·) else none)
        Endpoints.noStableEndpoint
      servoGain := .unavailable "NO_REFERENCE_STEP_OR_ENDPOINT" }
  match y0e.value, ysse.value with
  | some y0, some yss =>
    if |yss - y0| < s.minResponseEu then censored
    else
      let dy := yss - y0
      let band := responseBand s.absSettlingBandEu s.relSettlingBand dy s.noiseFloorEu
      { inputStep := inputStep
        spStep := spStep
        baselinePv := baselinePv
        endpointPv := endpointPv
        settleResponse := quantity (Settling.responseSettle d yss band s.tailDwellS s.maxGapS)
          "RIGHT_CENSORED_OR_INTEGRATING_OPEN_LOOP"
        settleTarget := quantity
          (if refStep then Settling.targetSettle d r1 s.targetBandEu s.tailDwellS s.maxGapS else none)
          "TARGET_NOT_REACHED_OR_NO_OBJECTIVE"
        steadyError := quantity (if refStep then some (r1 - yss) else none)
          Endpoints.noStableEndpoint
        servoGain := quantity (if refStep then some (dy / (r1 - r0)) else none)
          "NO_REFERENCE_STEP_OR_ENDPOINT" }
  | _, _ => censored

end ResponseMetricCalculator

def metricSettings (cfg : ResponseJobConfig) : ResponseMetricCalculator.Settings :=
  { preSupportS := cfg.preSupportS
    tailDwellS := cfg.tailDwellS
    stableBandEu := cfg.stableBandEu
    absSettlingBandEu := cfg.absSettlingBandEu
    relSettlingBand := cfg.relSettlingBand
    noiseFloorEu := cfg.noiseFloorEu
    maxGapS := cfg.maxGapS
    minResponseEu := cfg.minResponseEu
    targetBandEu := cfg.targetBandEu }

/-!
# Response: when the metric reports a settling time

The walk of the metric keeps the last part of the event's valid points that stays in the band
without a gap.
-/

open OpenBridge.Foundation

namespace EventDataset

def counted (d : EventDataset) : List DataPoint := d.points.filter (DataPoint.counts d.t0)

variable {d : EventDataset}

theorem pairwise_counted (d : EventDataset) : d.counted.Pairwise fun a b => a.t < b.t :=
  d.increasing.filter _

end EventDataset

namespace Settling

def inBand (centre band : ℚ) (p : DataPoint) : Bool := decide (|p.y - centre| ≤ band)

def near (maxGapS : ℚ) (later p : DataPoint) : Bool := decide (later.t - p.t ≤ maxGapS)

variable {t0 centre band maxGapS tailDwellS : ℚ} {d : EventDataset}

theorem walkBack_eq {points : List DataPoint} (h : points.Pairwise fun a b => b.t < a.t)
    (entry : Option ℚ) (previous : DataPoint) :
    walkBack t0 centre band maxGapS entry previous.t points =
      ((leadingRun (inBand centre band) (near maxGapS) (some previous)
        (points.filter (DataPoint.counts t0))).getLast?.map DataPoint.t).or entry := by
  induction points generalizing entry previous with
  | nil => rfl
  | cons p older ih =>
    obtain ⟨hhead, hrest⟩ := List.pairwise_cons.mp h
    rw [walkBack]
    split
    · rename_i hbefore
      have hnone : (p :: older).filter (DataPoint.counts t0) = [] := by
        refine List.filter_eq_nil_iff.mpr fun q hq hcounted => ?_
        rw [DataPoint.counts, Bool.and_eq_true, decide_eq_true_eq] at hcounted
        rcases List.mem_cons.mp hq with rfl | hq
        · exact absurd hcounted.2 (not_le.mpr hbefore)
        · exact absurd (hcounted.2.trans_lt (hhead q hq)) (not_lt.mpr hbefore.le)
      rw [hnone]
      rfl
    · rename_i hfrom
      cases hvalid : p.valid with
      | false =>
        rw [if_pos (by rfl), ih hrest, List.filter_cons_of_neg (by simp [DataPoint.counts, hvalid])]
      | true =>
        rw [if_neg (by simp), List.filter_cons_of_pos
          (by simpa [DataPoint.counts, hvalid] using hfrom), leadingRun]
        split
        · rename_i hgap
          have hfar : near maxGapS previous p = false := decide_eq_false (not_le.mpr hgap)
          rw [Option.all_some, hfar, Bool.and_false]
          rfl
        · rename_i hgap
          split
          · rename_i hout
            have hout : inBand centre band p = false := decide_eq_false (not_le.mpr hout)
            rw [hout, Bool.false_and]
            rfl
          · rename_i hin
            have hin : inBand centre band p = true := decide_eq_true (not_lt.mp hin)
            have hnear : near maxGapS previous p = true := decide_eq_true (not_lt.mp hgap)
            rw [ih hrest, Option.all_some, hin, hnear, Bool.and_true, if_pos rfl, List.getLast?_cons]
            cases (leadingRun (inBand centre band) (near maxGapS) (some p)
              (older.filter (DataPoint.counts t0))).getLast? <;> rfl

theorem dropWhile_counted (d : EventDataset) :
    (d.points.reverse.dropWhile fun p => !p.counts d.t0).filter (DataPoint.counts d.t0) =
      d.counted.reverse := by
  rw [EventDataset.counted, ← List.filter_reverse]
  generalize d.points.reverse = points
  induction points with
  | nil => rfl
  | cons p rest ih =>
    rw [List.dropWhile_cons]
    cases hp : p.counts d.t0 with
    | false =>
      rw [Bool.not_false, if_pos rfl, ih, List.filter_cons_of_neg (by rw [hp]; exact Bool.false_ne_true)]
    | true => rw [Bool.not_true, if_neg Bool.false_ne_true]

theorem settle_eq (hgap : 0 ≤ maxGapS) : settle d centre band tailDwellS maxGapS =
    (leadingRun (inBand centre band) (near maxGapS) none d.counted.reverse).getLast?.bind fun first =>
      if d.tEnd - first.t < tailDwellS then none else some (first.t - d.t0) := by
  have hcounted := dropWhile_counted d
  have hdecreasing : (d.points.reverse.dropWhile fun p => !p.counts d.t0).Pairwise
      fun a b => b.t < a.t :=
    (List.pairwise_reverse.mpr d.increasing).sublist (List.dropWhile_sublist _)
  unfold settle
  cases hwalk : d.points.reverse.dropWhile fun p => !p.counts d.t0 with
  | nil =>
    rw [hwalk] at hcounted
    rw [← hcounted]
    rfl
  | cons last older =>
    rw [hwalk] at hcounted hdecreasing
    have hlast : last.counts d.t0 = true := by
      have hhead := List.head?_dropWhile_not (fun p => !p.counts d.t0) d.points.reverse
      rw [hwalk] at hhead
      simpa using hhead
    have hself : near maxGapS last last = true := decide_eq_true (by rw [sub_self]; exact hgap)
    have hsame : leadingRun (inBand centre band) (near maxGapS) (some last) d.counted.reverse =
        leadingRun (inBand centre band) (near maxGapS) none d.counted.reverse := by
      rw [← hcounted, List.filter_cons_of_pos hlast, leadingRun, leadingRun, Option.all_some, hself]
      rfl
    dsimp only
    rw [walkBack_eq hdecreasing, hcounted, hsame]
    cases (leadingRun (inBand centre band) (near maxGapS) none d.counted.reverse).getLast? <;> rfl

/-- From the last point at or before an instant on, neighbours are no further apart than the gap. -/
structure Held (points : List DataPoint) (by_ maxGapS : ℚ) (older : List DataPoint)
    (first : DataPoint) (rest : List DataPoint) : Prop where
  split : points = older ++ first :: rest
  early : first.t ≤ by_
  late : ∀ p ∈ rest, by_ < p.t
  close : (first :: rest).IsChain fun a b => b.t - a.t ≤ maxGapS

theorem settle_iff (hgap : 0 ≤ maxGapS) :
    (∃ ts, settle d centre band tailDwellS maxGapS = some ts ∧
        ts ≤ d.tEnd - d.t0 - tailDwellS) ↔
      ∃ older first rest, Held d.counted (d.tEnd - tailDwellS) maxGapS older first rest ∧
        ∀ p ∈ first :: rest, |p.y - centre| ≤ band := by
  have hprefix := leadingRun_prefix (inBand centre band) (near maxGapS) none
    d.counted.reverse
  rw [settle_eq hgap]
  constructor
  · rintro ⟨ts, hts, -⟩
    obtain ⟨entry, hentry, hts⟩ := Option.bind_eq_some_iff.mp hts
    have hearly : entry.t ≤ d.tEnd - tailDwellS := by
      split at hts
      · cases hts
      · rename_i hdwell
        linarith [not_lt.mp hdwell]
    have hsuffix := List.reverse_suffix.mpr hprefix
    rw [List.reverse_reverse] at hsuffix
    obtain ⟨before, hbefore⟩ := hsuffix
    have hup := (EventDataset.pairwise_counted d).sublist
      (hbefore ▸ List.sublist_append_right before _)
    obtain ⟨older, first, rest, hsplit, hfirst, hrest, -⟩ := exists_last_upto hup
      (List.mem_reverse.mpr (List.mem_of_mem_getLast? hentry)) hearly
    have hchain := isChain_leadingRun (inBand centre band) (near maxGapS) none
      d.counted.reverse
    rw [Option.toList_none, List.nil_append, ← List.isChain_reverse, hsplit] at hchain
    refine ⟨before ++ older, first, rest, ⟨?_, hfirst, hrest, ?_⟩, fun p hp => ?_⟩
    · rw [← hbefore, hsplit, List.append_assoc]
    · exact hchain.right_of_append.imp fun a b hab => of_decide_eq_true hab
    · have hmem : p ∈ leadingRun (inBand centre band) (near maxGapS) none d.counted.reverse := by
        rw [← List.mem_reverse, hsplit]
        exact List.mem_append_right _ hp
      have hin : inBand centre band p = true := ok_of_mem_leadingRun hmem
      exact of_decide_eq_true hin
  · rintro ⟨older, first, rest, hheld, hband⟩
    have hrun : (first :: rest).reverse <+: d.counted.reverse := by
      rw [List.reverse_prefix, hheld.split]
      exact List.suffix_append _ _
    have hleading := @prefix_leadingRun _ (inBand centre band) (near maxGapS) none _ _ hrun
      (fun p hp => decide_eq_true (hband p (List.mem_reverse.mp hp)))
      (List.isChain_reverse.mpr (hheld.close.imp fun a b hab => decide_eq_true hab))
    have hfirst : first ∈ leadingRun (inBand centre band) (near maxGapS) none d.counted.reverse :=
      hleading.subset (List.mem_reverse.mpr List.mem_cons_self)
    obtain ⟨entry, hentry⟩ := Option.ne_none_iff_exists'.mp
      (mt List.getLast?_eq_none_iff.mp (List.ne_nil_of_mem hfirst))
    have hle : entry.t ≤ first.t := by
      have hdown : d.counted.reverse.Pairwise fun a b => b.t < a.t :=
        List.pairwise_reverse.mpr (EventDataset.pairwise_counted d)
      exact @le_of_mem_getLast? _ _ _ (fun p : DataPoint => OrderDual.toDual p.t) _ _ _
        (hdown.sublist hprefix.sublist) hfirst hentry
    have hdwell : ¬ d.tEnd - entry.t < tailDwellS := by
      have hearly := hheld.early
      linarith
    refine ⟨entry.t - d.t0, ?_, by linarith⟩
    rw [hentry, Option.bind_some, if_neg hdwell]

end Settling

end OpenBridge.Response
