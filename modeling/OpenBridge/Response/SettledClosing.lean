import OpenBridge.Response.CaptureTransitions
import OpenBridge.Response.ObservedSettling

/-!
# Response: what a settled capture reports

A capture is closed as settled on its good samples; the metric reads the valid points of the
dataset, those that were taken in AUT as well, and asks for a covered tail and for support without
gaps.
-/

namespace OpenBridge.Response

open OpenBridge.Foundation

theorem median_of_perm {xs ys : List ℚ} (h : xs.Perm ys) : median xs = median ys := by
  have hsort : xs.insertionSort (· ≤ ·) = ys.insertionSort (· ≤ ·) :=
    List.Perm.eq_of_pairwise' (List.pairwise_insertionSort _ xs) (List.pairwise_insertionSort _ ys)
      ((List.perm_insertionSort _ xs).trans (h.trans (List.perm_insertionSort _ ys).symm))
  rw [median, hsort]
  rfl

theorem within_mono {band : ℚ} {xs ys : List ℚ} (hsub : ∀ x ∈ xs, x ∈ ys)
    (h : within band ys = true) : within band xs = true := by
  rw [within, List.all_eq_true] at h ⊢
  intro a ha
  rw [List.all_eq_true]
  exact fun b hb => List.all_eq_true.mp (h a (hsub a ha)) b (hsub b hb)

namespace Endpoints

variable {d : EventDataset} {start stop band v : ℚ} {halfOpenEnd : Bool} {minSamples : ℕ}
  {reason : String}

theorem pairwise_inWindow (d : EventDataset) (start stop : ℚ) (halfOpenEnd : Bool) :
    (inWindow d start stop halfOpenEnd).Pairwise fun a b => a.t < b.t := d.increasing.filter _

structure Covered (points : List DataPoint) (start stop : ℚ) : Prop where
  firstHalf : ∃ p ∈ points, p.t - start ≤ 1 / 2 * (stop - start)
  secondHalf : ∃ p ∈ points, stop - p.t ≤ 1 / 2 * (stop - start)

theorem covered_iff {points : List DataPoint} (h : points.Pairwise fun a b => a.t < b.t)
    (hne : points ≠ []) : Covered points start stop ↔
      ¬ (1 / 2 * (stop - start) < (points.headD default).t - start ∨
        1 / 2 * (stop - start) < stop - (points.getLastD default).t) := by
  obtain ⟨first, rest, rfl⟩ := List.exists_cons_of_ne_nil hne
  obtain ⟨last, hlast⟩ := Option.ne_none_iff_exists'.mp (mt List.getLast?_eq_none_iff.mp hne)
  rw [List.headD_cons, List.getLastD_eq_getLast?, hlast, Option.getD_some, not_or, not_lt, not_lt]
  constructor
  · rintro ⟨⟨p, hp, hfirst⟩, ⟨q, hq, hsecond⟩⟩
    have hfirstLe : first.t ≤ p.t := by
      rcases List.mem_cons.mp hp with rfl | hp
      · exact le_refl _
      · exact ((List.pairwise_cons.mp h).1 p hp).le
    have hlastLe := le_of_mem_getLast? h hq hlast
    exact ⟨by linarith, by linarith⟩
  · rintro ⟨hfirst, hsecond⟩
    exact ⟨⟨first, List.mem_cons_self, hfirst⟩, ⟨last, List.mem_of_mem_getLast? hlast, hsecond⟩⟩

theorem window_value_iff (hmin : 0 < minSamples) :
    (window d start stop halfOpenEnd band minSamples reason).value = some v ↔
      minSamples ≤ (inWindow d start stop halfOpenEnd).length ∧
        Covered (inWindow d start stop halfOpenEnd) start stop ∧
        within band ((inWindow d start stop halfOpenEnd).map DataPoint.y) = true ∧
        median ((inWindow d start stop halfOpenEnd).map DataPoint.y) = v := by
  unfold window
  dsimp only
  rw [List.length_map]
  split
  · rename_i hfew
    exact iff_of_false nofun fun h => absurd h.1 (not_le.mpr hfew)
  · rename_i hmany
    have hlen := not_lt.mp hmany
    have hne : inWindow d start stop halfOpenEnd ≠ [] := List.ne_nil_of_length_pos (by omega)
    have hcovered := @covered_iff start stop _
      (pairwise_inWindow d start stop halfOpenEnd) hne
    split
    · rename_i hout
      exact iff_of_false nofun fun h => hcovered.mp h.2.1 hout
    · rename_i hin
      cases hband : within band ((inWindow d start stop halfOpenEnd).map DataPoint.y) with
      | false =>
        rw [Bool.not_false, if_pos rfl]
        exact iff_of_false nofun fun h => Bool.false_ne_true h.2.2.1
      | true =>
        rw [Bool.not_true, if_neg Bool.false_ne_true, Option.some_inj]
        exact ⟨fun h => ⟨hlen, hcovered.mpr hin, rfl, h⟩, fun h => h.2.2.2⟩

end Endpoints

namespace ResponseCapture

variable {c : ResponseCapture} {cfg : ResponseJobConfig} {f : SourceSupport} {e : ResponseEvent}
  {nowS : ℚ}

/-! ## What the test of the tail has seen -/

def tailRows (c : ResponseCapture) (nowS : ℚ) : List Row :=
  c.ring.filter fun row => decide (nowS - c.cfg.tailDwellS ≤ row.tS) && row.good

theorem RingSound.pairwise_reverse (hr : RingSound cfg c f) :
    c.ring.reverse.Pairwise fun a b => b.tS < a.tS :=
  List.pairwise_reverse.mpr hr.spaced.pairwise

theorem RingSound.tail_perm (hr : RingSound cfg c f) (nowS : ℚ) :
    (c.tail nowS).Perm ((c.tailRows nowS).map Row.pv) := by
  unfold tail tailRows
  rw [takeWhile_from_eq_filter _ hr.pairwise_reverse, List.filter_filter, List.filter_reverse]
  refine ((List.reverse_perm _).trans ?_).map Row.pv
  rw [List.filter_congr fun row _ => Bool.and_comm _ _]

theorem bandEntry_spec {t0 yss band entry : ℚ} {before : Option ℚ} {rows : List Row}
    (hrows : rows.Pairwise fun a b => b.tS < a.tS)
    (hbefore : ∀ t ∈ before, ∀ row ∈ rows, row.tS < t)
    (h : bandEntry t0 yss band before rows = some entry) :
    (before = some entry ∨ ∃ row ∈ rows, row.good = true ∧ row.tS = entry ∧ t0 ≤ entry) ∧
      ∀ row ∈ rows, row.good = true → entry ≤ row.tS → |row.pv - yss| ≤ band := by
  induction rows generalizing before with
  | nil => exact ⟨.inl h, nofun⟩
  | cons row older ih =>
    obtain ⟨hhead, hrest⟩ := List.pairwise_cons.mp hrows
    have hstop : before = some entry →
        (before = some entry ∨ ∃ r ∈ row :: older, r.good = true ∧ r.tS = entry ∧ t0 ≤ entry) ∧
        ∀ r ∈ row :: older, r.good = true → entry ≤ r.tS → |r.pv - yss| ≤ band := fun hentry =>
      ⟨.inl hentry, fun r hr _ hle => absurd (hbefore entry hentry r hr) (not_lt.mpr hle)⟩
    rw [bandEntry] at h
    split at h
    · exact hstop h
    · rename_i hfrom
      split at h
      · rename_i hbad
        obtain ⟨hplace, hband⟩ := ih hrest (fun t ht r hr =>
          hbefore t ht r (List.mem_cons_of_mem row hr)) h
        refine ⟨hplace.imp_right fun ⟨r, hr, hplace⟩ => ⟨r, List.mem_cons_of_mem row hr, hplace⟩,
          fun r hr hgood hentry => ?_⟩
        rcases List.mem_cons.mp hr with rfl | hr
        · rw [hgood] at hbad
          cases hbad
        · exact hband r hr hgood hentry
      · rename_i hgood
        split at h
        · exact hstop h
        · rename_i hin
          obtain ⟨hplace, hband⟩ := ih hrest (fun t ht => by
            obtain rfl := Option.some_inj.mp ht
            exact hhead) h
          refine ⟨.inr ?_, fun r hr hrgood hentry => ?_⟩
          · rcases hplace with hself | ⟨r, hr, hplace⟩
            · obtain rfl := Option.some_inj.mp hself
              exact ⟨row, List.mem_cons_self, by simpa using hgood, rfl, not_lt.mp hfrom⟩
            · exact ⟨r, List.mem_cons_of_mem row hr, hplace⟩
          · rcases List.mem_cons.mp hr with rfl | hr
            · exact not_lt.mp hin
            · exact hband r hr hrgood hentry

def responseSize (c : ResponseCapture) (e : ResponseEvent) (nowS : ℚ) : ℚ :=
  if 3 ≤ (c.preValues e.t0).length then median (c.tail nowS) - median (c.preValues e.t0) else 0

/-- A settled tail: enough good rows, within the stable band, and every good row in the band from an
entry on that is at least the tail dwell ago. -/
structure SettledTail (c : ResponseCapture) (e : ResponseEvent) (nowS : ℚ) : Prop where
  enough : 3 ≤ (c.tail nowS).length
  stable : within c.cfg.stableBandEu (c.tail nowS) = true
  entered : ∃ entry ∈ c.ring, entry.good = true ∧ e.t0 ≤ entry.tS ∧
    entry.tS ≤ nowS - c.cfg.tailDwellS ∧
    ∀ row ∈ c.ring, row.good = true → entry.tS ≤ row.tS → |row.pv - median (c.tail nowS)| ≤
      responseBand c.cfg.absSettlingBandEu c.cfg.relSettlingBand (c.responseSize e nowS)
        c.cfg.noiseFloorEu

theorem RingSound.settledTail (hr : RingSound cfg c f) (hopen : c.machine.open_ = some e)
    (h : c.settled nowS = true) : SettledTail c e nowS := by
  unfold settled at h
  rw [hopen] at h
  dsimp only at h
  split at h
  · cases h
  · split at h
    · cases h
    · rename_i hmany
      split at h
      · cases h
      · rename_i hstable
        obtain ⟨entry, hentry, hdwell⟩ := (Option.any_eq_true _ _).mp h
        obtain ⟨hplace, hband⟩ := bandEntry_spec hr.pairwise_reverse (by simp) hentry
        have hdwell := of_decide_eq_true hdwell
        obtain ⟨row, hrow, hgood, rfl, hle⟩ := hplace.resolve_left nofun
        exact ⟨not_lt.mp hmany, by simpa using hstable, row, List.mem_reverse.mp hrow, hgood, hle,
          by linarith, fun r hr => hband r (List.mem_reverse.mpr hr)⟩

/-! ## The dataset of the capture -/

theorem RingSound.points_eq (hr : RingSound cfg c f) (e : ResponseEvent) (tEnd : ℚ) :
    (c.bundle e tEnd).data.points = (c.ring.filter fun row =>
      decide (e.t0 - c.cfg.preSupportS ≤ row.tS ∧ row.tS ≤ tEnd)).map Row.point :=
  congrArg (List.map Row.point) (hr.bundleRows_eq _ _)

theorem RingSound.le_now (hr : RingSound cfg c f) (hnow : c.lastTs = some nowS) {row : Row}
    (hrow : row ∈ c.ring) : row.tS ≤ nowS := by
  obtain ⟨last, hlast, hle⟩ := hr.upto _ (hr.kept row hrow)
  rw [hnow] at hlast
  exact hle.trans (Option.some_inj.mp hlast).ge

/-- A good sample of the event or its pre-support that is not a valid point of the dataset: it was taken
in MAN, or before the pre-support. -/
def Masked (c : ResponseCapture) (e : ResponseEvent) : Prop :=
  ∃ row ∈ c.ring, row.good = true ∧ (e.t0 - c.cfg.preSupportS ≤ row.tS ∨ e.t0 ≤ row.tS) ∧
    ¬ (row.auto = true ∧ e.t0 - c.cfg.preSupportS ≤ row.tS)

theorem Masked.not_iff : ¬ Masked c e ↔ ∀ row ∈ c.ring, row.good = true →
    (e.t0 - c.cfg.preSupportS ≤ row.tS ∨ e.t0 ≤ row.tS) →
      row.auto = true ∧ e.t0 - c.cfg.preSupportS ≤ row.tS := by
  unfold Masked
  push Not
  rfl

theorem RingSound.inWindow_eq (hr : RingSound cfg c f) (e : ResponseEvent) (tEnd start stop : ℚ)
    (halfOpenEnd : Bool) : Endpoints.inWindow (c.bundle e tEnd).data start stop halfOpenEnd =
      (c.ring.filter fun row => decide (e.t0 - c.cfg.preSupportS ≤ row.tS ∧ row.tS ≤ tEnd) &&
        (row.good && row.auto && decide (start ≤ row.tS) &&
          (if halfOpenEnd then decide (row.tS < stop) else decide (row.tS ≤ stop)))).map
        Row.point := by
  unfold Endpoints.inWindow
  rw [hr.points_eq, List.filter_map, List.filter_filter]
  refine congrArg (List.map Row.point) (List.filter_congr fun row _ => ?_)
  rw [Bool.and_comm]
  rfl

theorem RingSound.tail_subset (hr : RingSound cfg c f) {p : DataPoint}
    (hp : p ∈ Endpoints.inWindow (c.bundle e nowS).data (nowS - c.cfg.tailDwellS) nowS false) :
    p.y ∈ c.tail nowS := by
  rw [hr.inWindow_eq] at hp
  obtain ⟨row, hrow, rfl⟩ := List.mem_map.mp hp
  obtain ⟨hmem, htest⟩ := List.mem_filter.mp hrow
  simp only [Bool.and_eq_true, decide_eq_true_eq] at htest
  refine (hr.tail_perm nowS).symm.subset (List.mem_map.mpr ⟨row, ?_, rfl⟩)
  refine List.mem_filter.mpr ⟨hmem, ?_⟩
  rw [Bool.and_eq_true, decide_eq_true_eq]
  exact ⟨htest.2.1.2, htest.2.1.1.1⟩

theorem RingSound.tail_values (hr : RingSound cfg c f) (hnow : c.lastTs = some nowS)
    (hmask : ¬ Masked c e) (hlong : e.t0 ≤ nowS - c.cfg.tailDwellS) :
    ((Endpoints.inWindow (c.bundle e nowS).data (nowS - c.cfg.tailDwellS) nowS false).map
      DataPoint.y).Perm (c.tail nowS) := by
  refine List.Perm.trans (List.Perm.of_eq ?_) (hr.tail_perm nowS).symm
  rw [hr.inWindow_eq, List.map_map]
  refine congrArg (List.map Row.pv) (List.filter_congr fun row hrow => ?_)
  have hle := hr.le_now hnow hrow
  have hkeep := Masked.not_iff.mp hmask row hrow
  rw [Bool.eq_iff_iff]
  simp only [Bool.and_eq_true, decide_eq_true_eq, Bool.false_eq_true, if_false]
  constructor
  · rintro ⟨-, ⟨⟨hgood, -⟩, hfrom⟩, -⟩
    exact ⟨hfrom, hgood⟩
  · rintro ⟨hfrom, hgood⟩
    obtain ⟨hauto, hstart⟩ := hkeep hgood (.inr (hlong.trans hfrom))
    exact ⟨⟨hstart, hle⟩, ⟨⟨hgood, hauto⟩, hfrom⟩, hle⟩

theorem RingSound.pre_values (hr : RingSound cfg c f) (hnow : c.lastTs = some nowS)
    (hmask : ¬ Masked c e) :
    (Endpoints.inWindow (c.bundle e nowS).data (e.t0 - c.cfg.preSupportS) e.t0 true).map
      DataPoint.y = c.preValues e.t0 := by
  unfold preValues
  rw [hr.inWindow_eq, List.map_map]
  refine congrArg (List.map Row.pv) (List.filter_congr fun row hrow => ?_)
  have hle := hr.le_now hnow hrow
  have hkeep := Masked.not_iff.mp hmask row hrow
  rw [Bool.eq_iff_iff]
  simp only [Bool.and_eq_true, decide_eq_true_eq, if_true]
  constructor
  · rintro ⟨-, ⟨⟨hgood, -⟩, hfrom⟩, hbefore⟩
    exact ⟨⟨hfrom, hbefore⟩, hgood⟩
  · rintro ⟨⟨hfrom, hbefore⟩, hgood⟩
    exact ⟨⟨hfrom, hle⟩, ⟨⟨hgood, (hkeep hgood (.inl hfrom)).1⟩, hfrom⟩, hbefore⟩

/-! ## The metric of a settled capture -/

/-- What is promised of a bundle that was closed as settled: a stable endpoint, and a settling time where
there is a baseline and the response is large enough. -/
def SettlingReported (cfg : ResponseJobConfig) (b : Closed) : Prop :=
  let q := ResponseMetricCalculator.compute b.data b.r0 b.r1 b.duApplied (metricSettings cfg)
  (∃ yss, q.endpointPv = .of yss) ∧
    ∀ y0 yss, q.baselinePv = .of y0 → q.endpointPv = .of yss → cfg.minResponseEu ≤ |yss - y0| →
      ∃ ts, q.settleResponse = .of ts ∧ ts ≤ b.data.tEnd - b.data.t0 - cfg.tailDwellS

def tailPoints (cfg : ResponseJobConfig) (b : Closed) : List DataPoint :=
  Endpoints.inWindow b.data (b.data.tEnd - cfg.tailDwellS) b.data.tEnd false

/-- The support that the metric asks for: enough valid points in both halves of the tail, and, where
there is a response, no gap from the last of the event's valid points before the tail on.  Where a
good sample is masked, the valid points must be in the band of their own. -/
structure MetricSupport (c : ResponseCapture) (b : Closed) : Prop where
  enough : 3 ≤ (tailPoints c.cfg b).length
  covered : Endpoints.Covered (tailPoints c.cfg b) (b.data.tEnd - c.cfg.tailDwellS) b.data.tEnd
  held : ∀ y0 yss,
    (Endpoints.baseline b.data c.cfg.preSupportS c.cfg.stableBandEu 3).value = some y0 →
    (Endpoints.endpoint b.data c.cfg.tailDwellS c.cfg.stableBandEu 3).value = some yss →
    c.cfg.minResponseEu ≤ |yss - y0| →
      ∃ older first rest, Settling.Held b.data.counted (b.data.tEnd - c.cfg.tailDwellS)
          c.cfg.maxGapS older first rest ∧
        (Masked c b.event → ∀ p ∈ first :: rest, |p.y - yss| ≤
          responseBand c.cfg.absSettlingBandEu c.cfg.relSettlingBand (yss - y0) c.cfg.noiseFloorEu)

theorem quantity_eq_of {value : Option ℚ} (reason : String) {v : ℚ} :
    ResponseMetricCalculator.quantity value reason = .of v ↔ value = some v := by
  unfold ResponseMetricCalculator.quantity
  cases value with
  | none => exact iff_of_false nofun nofun
  | some w => rw [Quantity.of.injEq, Option.some_inj]

section Compute

open ResponseMetricCalculator

variable {d : EventDataset} {r0 r1 : ℚ} {du : Option ℚ} {s : Settings} {v y0 yss : ℚ}

theorem baselinePv_eq_of : (compute d r0 r1 du s).baselinePv = .of v ↔
    (Endpoints.baseline d s.preSupportS s.stableBandEu s.minSamples).value = some v := by
  rw [← quantity_eq_of Endpoints.noValidBaseline]
  unfold compute
  dsimp only
  split
  · split <;> exact Iff.rfl
  · exact Iff.rfl

theorem endpointPv_eq_of : (compute d r0 r1 du s).endpointPv = .of v ↔
    (Endpoints.endpoint d s.tailDwellS s.stableBandEu s.minSamples).value = some v := by
  rw [← quantity_eq_of Endpoints.noStableEndpoint]
  unfold compute
  dsimp only
  split
  · split <;> exact Iff.rfl
  · exact Iff.rfl

theorem settleResponse_eq_of
    (hy0 : (Endpoints.baseline d s.preSupportS s.stableBandEu s.minSamples).value = some y0)
    (hyss : (Endpoints.endpoint d s.tailDwellS s.stableBandEu s.minSamples).value = some yss)
    (hsize : s.minResponseEu ≤ |yss - y0|) : (compute d r0 r1 du s).settleResponse = .of v ↔
      Settling.settle d yss (responseBand s.absSettlingBandEu s.relSettlingBand (yss - y0)
        s.noiseFloorEu) s.tailDwellS s.maxGapS = some v := by
  rw [← quantity_eq_of "RIGHT_CENSORED_OR_INTEGRATING_OPEN_LOOP"]
  unfold compute
  dsimp only
  rw [hy0, hyss]
  dsimp only
  rw [if_neg (not_lt.mpr hsize)]
  rfl

end Compute

theorem settlingReported_iff {b : Closed} : SettlingReported cfg b ↔
    (∃ yss, (Endpoints.endpoint b.data cfg.tailDwellS cfg.stableBandEu 3).value = some yss) ∧
      ∀ y0 yss, (Endpoints.baseline b.data cfg.preSupportS cfg.stableBandEu 3).value = some y0 →
        (Endpoints.endpoint b.data cfg.tailDwellS cfg.stableBandEu 3).value = some yss →
        cfg.minResponseEu ≤ |yss - y0| →
          ∃ ts, Settling.settle b.data yss (responseBand cfg.absSettlingBandEu cfg.relSettlingBand
              (yss - y0) cfg.noiseFloorEu) cfg.tailDwellS cfg.maxGapS = some ts ∧
            ts ≤ b.data.tEnd - b.data.t0 - cfg.tailDwellS := by
  unfold SettlingReported
  dsimp only
  refine and_congr (exists_congr fun yss => endpointPv_eq_of) ?_
  refine forall_congr' fun y0 => forall_congr' fun yss => ?_
  refine imp_congr_ctx baselinePv_eq_of fun hy0 => imp_congr_ctx endpointPv_eq_of fun hyss =>
    forall_congr' fun hsize => exists_congr fun ts => ?_
  exact and_congr_left fun _ => settleResponse_eq_of hy0 hyss hsize

theorem SettledTail.maxGapS_pos (h : SettledTail c e nowS) (hr : RingSound cfg c f) :
    0 < cfg.maxGapS := by
  have hlen : 3 ≤ (c.tailRows nowS).length := by
    have henough := h.enough
    rwa [(hr.tail_perm nowS).length_eq, List.length_map] at henough
  have hring : 3 ≤ c.ring.length := hlen.trans (List.length_filter_le _ _)
  have hspaced := hr.spaced
  match hrows : c.ring with
  | [] => rw [hrows] at hring; simp at hring
  | [_] => rw [hrows] at hring; simp at hring
  | a :: b :: rest =>
    rw [hrows] at hspaced
    obtain ⟨hlt, hle⟩ := (List.isChain_cons_cons.mp hspaced).1
    linarith

theorem SettledTail.long (h : SettledTail c e nowS) : e.t0 ≤ nowS - c.cfg.tailDwellS := by
  obtain ⟨entry, -, -, hle, hdwell, -⟩ := h.entered
  exact hle.trans hdwell

theorem SettledTail.endpoint_iff (h : SettledTail c e nowS) (hr : RingSound cfg c f) {v : ℚ} :
    (Endpoints.endpoint (c.bundle e nowS).data c.cfg.tailDwellS c.cfg.stableBandEu 3).value =
        some v ↔
      3 ≤ (tailPoints c.cfg (c.bundle e nowS)).length ∧
        Endpoints.Covered (tailPoints c.cfg (c.bundle e nowS)) (nowS - c.cfg.tailDwellS) nowS ∧
        median ((tailPoints c.cfg (c.bundle e nowS)).map DataPoint.y) = v := by
  have hstable : within c.cfg.stableBandEu
      ((tailPoints c.cfg (c.bundle e nowS)).map DataPoint.y) = true :=
    within_mono (fun y hy => by
      obtain ⟨p, hp, rfl⟩ := List.mem_map.mp hy
      exact hr.tail_subset hp) h.stable
  refine (Endpoints.window_value_iff (by omega)).trans ?_
  exact ⟨fun ⟨hlen, hcovered, _, hv⟩ => ⟨hlen, hcovered, hv⟩,
    fun ⟨hlen, hcovered, hv⟩ => ⟨hlen, hcovered, hstable, hv⟩⟩

theorem SettledTail.same_band (h : SettledTail c e nowS) (hr : RingSound cfg c f)
    (hnow : c.lastTs = some nowS) (hmask : ¬ Masked c e) {y0 yss : ℚ}
    (hy0 : (Endpoints.baseline (c.bundle e nowS).data c.cfg.preSupportS c.cfg.stableBandEu 3).value =
      some y0)
    (hyss : (Endpoints.endpoint (c.bundle e nowS).data c.cfg.tailDwellS c.cfg.stableBandEu 3).value =
      some yss) :
    median (c.tail nowS) = yss ∧ c.responseSize e nowS = yss - y0 := by
  obtain ⟨-, -, hyss⟩ := (h.endpoint_iff hr).mp hyss
  obtain ⟨hmany, -, -, hy0⟩ := (Endpoints.window_value_iff (by omega)).mp hy0
  have htail : median (c.tail nowS) = yss :=
    (median_of_perm (hr.tail_values hnow hmask h.long)).symm.trans hyss
  have hpre := hr.pre_values hnow hmask
  have hlen : 3 ≤ (c.preValues e.t0).length := by
    rw [← hpre, List.length_map]
    exact hmany
  refine ⟨htail, ?_⟩
  rw [responseSize, if_pos hlen, htail, ← hpre]
  exact congrArg (yss - ·) hy0

theorem SettledTail.inBand (h : SettledTail c e nowS) (hr : RingSound cfg c f)
    (hnow : c.lastTs = some nowS) (hmask : ¬ Masked c e) {older rest : List DataPoint} {first : DataPoint}
    (hheld : Settling.Held (c.bundle e nowS).data.counted (nowS - c.cfg.tailDwellS) c.cfg.maxGapS
      older first rest) : ∀ p ∈ first :: rest, |p.y - median (c.tail nowS)| ≤
        responseBand c.cfg.absSettlingBandEu c.cfg.relSettlingBand (c.responseSize e nowS)
          c.cfg.noiseFloorEu := by
  obtain ⟨entry, hentry, hgood, hfrom, hby, hband⟩ := h.entered
  obtain ⟨hauto, hstart⟩ := Masked.not_iff.mp hmask entry hentry hgood (.inr hfrom)
  have hup := EventDataset.pairwise_counted (c.bundle e nowS).data
  rw [hheld.split] at hup
  obtain ⟨-, hlast, -⟩ := List.pairwise_append.mp hup
  have hfirst : entry.tS ≤ first.t := by
    have hcounted : entry.point ∈ (c.bundle e nowS).data.counted := by
      refine List.mem_filter.mpr ⟨?_, ?_⟩
      · rw [hr.points_eq]
        exact List.mem_map_of_mem (List.mem_filter.mpr
          ⟨hentry, decide_eq_true ⟨hstart, hr.le_now hnow hentry⟩⟩)
      · simp only [DataPoint.counts, Row.point, hgood, hauto, Bool.and_self, Bool.true_and]
        exact decide_eq_true hfrom
    rw [hheld.split] at hcounted
    rcases List.mem_append.mp hcounted with hmem | hmem
    · exact ((List.pairwise_append.mp hup).2.2 _ hmem first List.mem_cons_self).le
    · rcases List.mem_cons.mp hmem with heq | hmem
      · exact (congrArg DataPoint.t heq).le
      · exact absurd (hheld.late _ hmem) (not_lt.mpr hby)
  intro p hp
  have hcounted : p ∈ (c.bundle e nowS).data.counted := by
    rw [hheld.split]
    exact List.mem_append_right _ hp
  obtain ⟨hpoint, hcounts⟩ := List.mem_filter.mp hcounted
  obtain ⟨row, hrow, rfl, -⟩ := mem_bundle_points hpoint
  have hafter : entry.tS ≤ row.tS := by
    rcases List.mem_cons.mp hp with heq | hp
    · exact hfirst.trans (congrArg DataPoint.t heq).ge
    · exact hfirst.trans ((List.pairwise_cons.mp hlast).1 _ hp).le
  refine hband row hrow ?_ hafter
  rw [DataPoint.counts, Row.point, Bool.and_eq_true, Bool.and_eq_true] at hcounts
  exact hcounts.1.1

theorem SettledTail.reported_iff (h : SettledTail c e nowS) (hr : RingSound cfg c f)
    (hnow : c.lastTs = some nowS) {b : Closed} (hdata : b.data = (c.bundle e nowS).data)
    (hevent : b.event.t0 = e.t0) : SettlingReported cfg b ↔ MetricSupport c b := by
  have hcfg := hr.cfg_eq
  have hgap : 0 ≤ c.cfg.maxGapS := by
    rw [hcfg]
    exact (h.maxGapS_pos hr).le
  have hmasked : Masked c b.event ↔ Masked c e := by
    unfold Masked
    rw [hevent]
  subst hcfg
  have hpoints : tailPoints c.cfg b = tailPoints c.cfg (c.bundle e nowS) := by
    unfold tailPoints
    rw [hdata]
  rw [settlingReported_iff]
  constructor
  · rintro ⟨⟨yss, hyss⟩, hsettle⟩
    rw [hdata] at hyss
    obtain ⟨henough, hcovered, -⟩ := (h.endpoint_iff hr).mp hyss
    rw [← hpoints] at henough hcovered
    refine ⟨henough, by rw [hdata]; exact hcovered, fun y0 yss hy0 hyss hsize => ?_⟩
    obtain ⟨older, first, rest, hheld, hband⟩ :=
      (Settling.settle_iff hgap).mp (hsettle y0 yss hy0 hyss hsize)
    exact ⟨older, first, rest, hheld, fun _ => hband⟩
  · rintro ⟨henough, hcovered, hheld⟩
    rw [hdata, hpoints] at hcovered
    have hendpoint := (h.endpoint_iff hr).mpr ⟨hpoints ▸ henough, hcovered, rfl⟩
    rw [← hdata] at hendpoint
    refine ⟨⟨_, hendpoint⟩, fun y0 yss hy0 hyss hsize => (Settling.settle_iff hgap).mpr ?_⟩
    obtain ⟨older, first, rest, hheld, hband⟩ := hheld y0 yss hy0 hyss hsize
    refine ⟨older, first, rest, hheld, ?_⟩
    rcases em (Masked c e) with hmask | hmask
    · exact hband (hmasked.mpr hmask)
    · rw [hdata] at hy0 hyss hheld
      obtain ⟨hmedian, hresponse⟩ := h.same_band hr hnow hmask hy0 hyss
      have hseen := h.inBand hr hnow hmask hheld
      rwa [hmedian, hresponse] at hseen

/-! ## Complete captures in every run -/

theorem MetricSupport.of_sameFeed {c' : ResponseCapture} {b : Closed} (hs : SameFeed c c') :
    MetricSupport c b ↔ MetricSupport c' b := by
  have hmasked : Masked c' b.event ↔ Masked c b.event := by
    unfold Masked
    rw [hs.ring, hs.cfg]
  constructor
  · rintro ⟨henough, hcovered, hheld⟩
    refine ⟨by rwa [hs.cfg], by rwa [hs.cfg], ?_⟩
    rw [hs.cfg, hmasked]
    exact hheld
  · rintro ⟨henough, hcovered, hheld⟩
    rw [hs.cfg] at henough hcovered hheld
    rw [hmasked] at hheld
    exact ⟨henough, hcovered, hheld⟩

/-- In every run the metric reports the settling of a complete capture exactly where it has its
support. -/
theorem settlingReported_iff_support (cfg : ResponseJobConfig) (inputs : List CaptureInput)
    (i : CaptureInput) (b : Closed) (hb : b ∈ ((after cfg inputs).step i).2)
    (hcomplete : b.event.captureState = .complete) :
    SettlingReported cfg b ↔ MetricSupport (after cfg (inputs ++ [i])) b := by
  have hring := ringSound_after cfg inputs
  have hlive : Live (after cfg inputs).cfg (after cfg inputs).machine := by
    rw [hring.cfg_eq]
    exact live_after cfg inputs
  have hnot : b.event.captureState ≠ .censored := by
    rw [hcomplete]
    exact nofun
  rw [after_concat]
  cases i with
  | health ineligible atS => exact absurd (censored_of_mem_onHealth hb) hnot
  | sample s vpUsable =>
    obtain ⟨htaken, hsame, e, hopen, hsettled, hbundle⟩ :=
      exists_settled_of_mem_onSample hlive hb hnot
    have hadmitted := hring.admitted htaken
    have hguarded := hadmitted.of_sameFeed (sameFeed_guarded _ s vpUsable)
    have hnow : ((after cfg inputs).guarded s vpUsable).lastTs = some (row s vpUsable).tS :=
      (sameFeed_guarded (after cfg inputs) s vpUsable).lastTs
    rw [ResponseCapture.step, ← MetricSupport.of_sameFeed hsame]
    refine (hguarded.settledTail hopen hsettled).reported_iff hguarded hnow ?_ ?_
    · rw [hbundle]
      rfl
    · rw [hbundle]
      rfl

def stepSample (atS : ℤ) (good : Bool) : CaptureInput :=
  .sample
    { eventTsMs := atS * 1000
      pv := if atS < 60 then 50 else 55
      sp := if atS < 60 then 50 else 55
      op := 40
      isGoodQuality := good } false

def stepSamples : ℤ → List Bool → List CaptureInput
  | _, [] => []
  | atS, good :: rest => stepSample atS good :: stepSamples (atS + 20) rest

def settlingReport (cfg : ResponseJobConfig) (b : Closed) :
    CaptureState × Quantity × Quantity × Quantity :=
  let q := ResponseMetricCalculator.compute b.data b.r0 b.r1 b.duApplied (metricSettings cfg)
  (b.event.captureState, q.baselinePv, q.endpointPv, q.settleResponse)

theorem settlingReported_iff_support_step :
    ∃ b ∈ ((after {} (stepSamples 0 (List.replicate 12 true))).step (stepSample 240 true)).2,
      SettlingReported {} b ↔ MetricSupport
        (after {} (stepSamples 0 (List.replicate 12 true) ++ [stepSample 240 true])) b := by
  have hreport : ((after {} (stepSamples 0 (List.replicate 12 true))).step
      (stepSample 240 true)).2.map (settlingReport {}) = [(.complete, .of 50, .of 55, .of 0)] := by
    decide +kernel
  obtain ⟨b, hb, hreport⟩ := List.map_eq_singleton_iff.mp hreport
  have hmem := hb ▸ List.mem_singleton_self b
  exact ⟨b, hmem, settlingReported_iff_support {} _ _ b hmem (congrArg Prod.fst hreport)⟩

/-- Three bad samples in the tail leave good ones at both ends of it, so the test of the tail is met;
the metric sees a gap between them. -/
theorem settled_across_gap : ¬ ∀ (cfg : ResponseJobConfig) (inputs : List CaptureInput)
    (i : CaptureInput), ∀ b ∈ ((after cfg inputs).step i).2, b.event.captureState = .complete →
      SettlingReported cfg b := by
  intro h
  have hreport : ((after {} (stepSamples 0
      [true, true, true, true, true, true, true, false, false, false, true, true])).step
        (stepSample 240 true)).2.map (settlingReport {}) =
      [(.complete, .of 50, .of 55, .unavailable "RIGHT_CENSORED_OR_INTEGRATING_OPEN_LOOP")] := by
    decide +kernel
  obtain ⟨b, hb, hreport⟩ := List.map_eq_singleton_iff.mp hreport
  unfold settlingReport at hreport
  simp only [Prod.mk.injEq] at hreport
  obtain ⟨hcomplete, hbaseline, hendpoint, hsettle⟩ := hreport
  obtain ⟨-, hreported⟩ := h {} _ _ b (hb ▸ List.mem_singleton_self b) hcomplete
  obtain ⟨ts, hts, -⟩ := hreported 50 55 hbaseline hendpoint (by norm_num)
  rw [hsettle] at hts
  cases hts

end ResponseCapture

end OpenBridge.Response
