import OpenBridge.LongWindow.LongDiagnosticsProcessFunction

/-!
# Long windows: which windows are evaluated

Whether a quarter of an hour is visited at all depends on its timer: a sample registers the one
after it only when no later one is remembered, and a timer registers the next one after the
watermark only.
-/

namespace OpenBridge.LongWindow

open OpenBridge.Foundation

/-- The last quarter of an hour in the range of a `long`. -/
def lastBoundary : ℤ := 9223372036854000000

def boundaryAfter (t : ℤ) : ℤ := (t / timerIntervalMs + 1) * timerIntervalMs

/-! ## The registered times -/

theorem tdiv_timerIntervalMs (t : ℤ) : t - timerIntervalMs < t.tdiv timerIntervalMs * timerIntervalMs ∧
    t.tdiv timerIntervalMs * timerIntervalMs < t + timerIntervalMs := by
  have hpos : (0 : ℤ) < timerIntervalMs := by decide
  have hsum := Int.mul_tdiv_add_tmod t timerIntervalMs
  have hlt := Int.tmod_lt_of_pos t hpos
  have hgt := Int.lt_tmod_of_pos t hpos
  rw [mul_comm] at hsum
  constructor <;> omega

theorem alignedNext_eq {t : ℤ} (hmin : minLong ≤ t) (hlt : t < lastBoundary) :
    alignedNext t = (t.tdiv timerIntervalMs + 1) * timerIntervalMs := by
  obtain ⟨hlower, hupper⟩ := tdiv_timerIntervalMs t
  unfold minLong at hmin
  unfold lastBoundary at hlt
  unfold timerIntervalMs at hlower hupper
  unfold alignedNext timerIntervalMs
  rcases le_total 0 t with hpos | hneg
  · rw [Int.tdiv_eq_ediv_of_nonneg hpos] at hlower hupper ⊢
    refine wrap64_of_range ?_ ?_ <;> omega
  · refine wrap64_of_range ?_ ?_ <;> omega

theorem timerIntervalMs_dvd_alignedNext {t : ℤ} (hmin : minLong ≤ t) (hlt : t < lastBoundary) :
    timerIntervalMs ∣ alignedNext t := by
  rw [alignedNext_eq hmin hlt]
  exact Int.dvd_mul_left _ _

theorem lt_alignedNext {t : ℤ} (hmin : minLong ≤ t) (hlt : t < lastBoundary) :
    t < alignedNext t := by
  have hlower := (tdiv_timerIntervalMs t).1
  rw [alignedNext_eq hmin hlt, add_mul, one_mul]
  omega

theorem nextTimer_spec {t w : ℤ} (hmin : minLong ≤ t) (hdvd : timerIntervalMs ∣ t) (hdue : t ≤ w)
    (hlt : w < lastBoundary) :
    w < LongDiagnosticsProcessFunction.nextTimer t w ∧
      timerIntervalMs ∣ LongDiagnosticsProcessFunction.nextTimer t w := by
  have hw : minLong ≤ w := hmin.trans hdue
  have hnext : wrap64 (t + timerIntervalMs) = t + timerIntervalMs := by
    obtain ⟨k, rfl⟩ := hdvd
    unfold minLong at hmin
    unfold lastBoundary at hlt
    unfold timerIntervalMs at hmin hdue ⊢
    refine wrap64_of_range ?_ ?_ <;> omega
  unfold LongDiagnosticsProcessFunction.nextTimer
  rw [hnext]
  dsimp only
  split
  · exact ⟨lt_alignedNext hw hlt, timerIntervalMs_dvd_alignedNext hw hlt⟩
  · rename_i hpassed
    exact ⟨not_le.mp hpassed, dvd_add hdvd dvd_rfl⟩

theorem evictBefore_eq {t : ℤ} (hmin : minLong + bufferRetentionMs ≤ t) (hmax : t < lastBoundary) :
    wrap64 (t - bufferRetentionMs) = t - bufferRetentionMs := by
  unfold minLong bufferRetentionMs at hmin
  unfold lastBoundary at hmax
  unfold bufferRetentionMs
  refine wrap64_of_range ?_ ?_ <;> omega

theorem lt_boundaryAfter (t : ℤ) : t < boundaryAfter t := by
  unfold boundaryAfter timerIntervalMs
  omega

namespace LongOperator

/-! ## What is promised, and where -/

/-- The schedule of the evaluations after a run. -/
structure Scheduled (inputs : List LongInput) : Prop where
  /-- A window is evaluated at most once. -/
  once : ((evaluations (trace inputs)).map fun e => (e.kind, e.windowEnd)).Nodup
  /-- It ends at a quarter of an hour, and its slice holds the first sample of each timestamp in it. -/
  sliced : ∀ before e rest, trace inputs = before ++ .evaluated e :: rest →
    timerIntervalMs ∣ e.windowEnd ∧
      e.slice = firstsBy LongSample.ts ((arrivals before).filter fun s =>
        e.windowEnd - e.kind.sizeMs ≤ s.ts ∧ s.ts < e.windowEnd)
  /-- The quarter of an hour after a sample that was not late is visited once the watermark has passed
  it. -/
  covered : (after inputs).draining = false → ∀ s wm, .arrived s wm ∈ trace inputs → wm < s.ts →
    boundaryAfter s.ts ≤ (after inputs).watermark →
      ∃ e ∈ evaluations (trace inputs), e.windowEnd = boundaryAfter s.ts

/-- The times of the samples are in range, and no timer fires at a watermark from the last quarter of
an hour on. -/
structure InRange (inputs : List LongInput) : Prop where
  elements : ∀ s, .element s ∈ inputs → s.peerOfLoopId = none →
    minLong + bufferRetentionMs ≤ s.ts ∧ s.ts < lastBoundary
  fires : ∀ pre, pre ++ [.fire] <+: inputs →
    (∃ t ∈ (after pre).timers.times, t ≤ (after pre).watermark) →
      (after pre).watermark < lastBoundary

/-- And a watermark passes the quarter of an hour after a sample that was not late only when its timer
is registered. -/
structure Regular (inputs : List LongInput) : Prop extends InRange inputs where
  registered : ∀ pre w, pre ++ [.watermark w] <+: inputs → ∀ s wm, .arrived s wm ∈ trace pre →
    wm < s.ts → (after pre).watermark < boundaryAfter s.ts → boundaryAfter s.ts ≤ w →
      boundaryAfter s.ts ∈ (after pre).timers.times

theorem InRange.of_prefix {pre inputs : List LongInput} (h : InRange inputs) (hpre : pre <+: inputs) :
    InRange pre where
  elements s hs := h.elements s (hpre.subset hs)
  fires p hp := h.fires p (hp.trans hpre)

theorem Regular.of_prefix {pre inputs : List LongInput} (h : Regular inputs) (hpre : pre <+: inputs) :
    Regular pre where
  toInRange := h.toInRange.of_prefix hpre
  registered p w hp := h.registered p w (hp.trans hpre)

/-! ## The invariant -/

/-- How the operator stands after what a run has left behind. -/
structure OnSchedule (o : LongOperator) (tr : List LongTrace) : Prop where
  aligned : ∀ t ∈ o.timers.times, timerIntervalMs ∣ t ∧ minLong + bufferRetentionMs ≤ t
  ahead : ∀ e ∈ evaluations tr, (∀ t ∈ o.timers.times, e.windowEnd < t) ∧
    ∃ n ∈ o.fn.nextTimerTs, e.windowEnd < n
  once : ((evaluations tr).map fun e => (e.kind, e.windowEnd)).Nodup
  sliced : ∀ before e rest, tr = before ++ .evaluated e :: rest →
    timerIntervalMs ∣ e.windowEnd ∧
      e.slice = firstsBy LongSample.ts ((arrivals before).filter fun s =>
        e.windowEnd - e.kind.sizeMs ≤ s.ts ∧ s.ts < e.windowEnd)
  buffered : ∀ c, (∀ e ∈ evaluations tr, e.windowEnd - bufferRetentionMs ≤ c) →
    firstsBy LongSample.ts (o.fn.rollingBuffer.filter fun s => decide (c ≤ s.ts)) =
      firstsBy LongSample.ts ((arrivals tr).filter fun s => decide (c ≤ s.ts))

theorem onSchedule_new : OnSchedule new [] where
  aligned t ht := absurd ht List.not_mem_nil
  ahead e he := absurd he List.not_mem_nil
  once := List.nodup_nil
  sliced before e rest h := by simp at h
  buffered c _ := rfl

variable {o : LongOperator} {tr : List LongTrace}

@[simp] theorem arrivals_append (xs ys : List LongTrace) :
    arrivals (xs ++ ys) = arrivals xs ++ arrivals ys :=
  List.filterMap_append ..

@[simp] theorem evaluations_append (xs ys : List LongTrace) :
    evaluations (xs ++ ys) = evaluations xs ++ evaluations ys :=
  List.filterMap_append ..

@[simp] theorem arrivals_evaluated (es : List Evaluation) :
    arrivals (es.map .evaluated) = [] := by
  simp [arrivals]

@[simp] theorem evaluations_evaluated (es : List Evaluation) :
    evaluations (es.map .evaluated) = es := by
  induction es with
  | nil => rfl
  | cons e es ih => exact congrArg (e :: ·) ih

theorem OnSchedule.peer (h : OnSchedule o tr) {s : LongSample} (hs : s.peerOfLoopId.isSome) :
    OnSchedule (o.step (.element s)).1 (tr ++ (o.step (.element s)).2) := by
  rw [step]
  split
  · rwa [List.append_nil]
  · rw [LongDiagnosticsProcessFunction.processElement, if_pos hs, List.append_nil]
    exact { h with }

theorem OnSchedule.arrive (h : OnSchedule o tr) (s : LongSample) {timers : Timers}
    {next : Option ℤ}
    (htimers : ∀ t, t ∈ timers.times → t ∈ o.timers.times ∨
      (timerIntervalMs ∣ t ∧ minLong + bufferRetentionMs ≤ t) ∧
        ∀ n ∈ o.fn.nextTimerTs, n < t)
    (hnext : ∀ n ∈ o.fn.nextTimerTs, ∃ m ∈ next, n ≤ m) :
    OnSchedule
      { o with
        fn := { o.fn with rollingBuffer := o.fn.rollingBuffer ++ [s], nextTimerTs := next }
        timers := timers }
      (tr ++ [.arrived s o.watermark]) := by
  have hevaluations : evaluations (tr ++ [.arrived s o.watermark]) = evaluations tr := by
    rw [evaluations_append]
    exact List.append_nil _
  refine ⟨fun t ht => ?_, fun e he => ?_, ?_, fun before e rest htr => ?_, fun c hc => ?_⟩
  · exact (htimers t ht).elim (h.aligned t) And.left
  · rw [hevaluations] at he
    obtain ⟨hahead, n, hn, hlt⟩ := h.ahead e he
    refine ⟨fun t ht => ?_, ?_⟩
    · rcases htimers t ht with ht | ht
      · exact hahead t ht
      · exact hlt.trans (ht.2 n hn)
    · obtain ⟨m, hm, hle⟩ := hnext n hn
      exact ⟨m, hm, hlt.trans_le hle⟩
  · rw [hevaluations]
    exact h.once
  · rcases List.eq_nil_or_concat rest with rfl | ⟨rest, last, rfl⟩
    · obtain ⟨-, heq⟩ := List.append_inj' htr rfl
      exact absurd heq (by simp)
    · have hsplit : tr ++ [.arrived s o.watermark] = (before ++ .evaluated e :: rest) ++ [last] := by
        simpa using htr
      obtain ⟨rfl, -⟩ := List.append_inj' hsplit rfl
      exact h.sliced before e rest rfl
  · rw [hevaluations] at hc
    rw [arrivals_append, List.filter_append, List.filter_append]
    exact firstsBy_append_congr (h.buffered c hc) _

theorem OnSchedule.own (h : OnSchedule o tr) {s : LongSample} (hs : s.peerOfLoopId = none)
    (hrange : minLong + bufferRetentionMs ≤ s.ts ∧ s.ts < lastBoundary) :
    OnSchedule (o.step (.element s)).1 (tr ++ (o.step (.element s)).2) := by
  have hmin : minLong ≤ s.ts := by
    have := hrange.1
    unfold bufferRetentionMs at this
    omega
  have hlt := lt_alignedNext hmin hrange.2
  have haligned : timerIntervalMs ∣ alignedNext s.ts ∧ minLong + bufferRetentionMs ≤ alignedNext s.ts :=
    ⟨timerIntervalMs_dvd_alignedNext hmin hrange.2, hrange.1.trans hlt.le⟩
  have hown : ¬ s.peerOfLoopId.isSome := by rw [hs]; exact Bool.false_ne_true
  rw [step]
  split
  · rwa [List.append_nil]
  · rw [LongDiagnosticsProcessFunction.processElement, if_neg hown]
    dsimp only
    split
    · rename_i hnone
      refine h.arrive s (fun t ht => ?_) ?_
      · rcases Timers.mem_register.mp ht with rfl | ht
        · exact .inr ⟨haligned, fun n hn => absurd (hnone ▸ hn) (by simp)⟩
        · exact .inl ht
      · exact fun n hn => absurd (hnone ▸ hn) (by simp)
    · rename_i current hcurrent
      split
      · rename_i hlater
        refine h.arrive s (fun t ht => ?_) ?_
        · rcases Timers.mem_register.mp ht with rfl | ht
          · refine .inr ⟨haligned, fun n hn => ?_⟩
            obtain rfl : current = n := Option.some.inj (hcurrent.symm.trans hn)
            exact hlater
          · exact .inl ht
        · intro n hn
          obtain rfl : current = n := Option.some.inj (hcurrent.symm.trans hn)
          exact ⟨_, rfl, hlater.le⟩
      · exact h.arrive s (fun t ht => .inl ht) (fun n hn => ⟨n, hn, le_rfl⟩)

theorem OnSchedule.slice_evaluate (h : OnSchedule o tr) {t : ℤ} (kind : WindowKind)
    (hmin : minLong + bufferRetentionMs ≤ t) (hmax : t < lastBoundary)
    (hahead : ∀ e ∈ evaluations tr, e.windowEnd < t) :
    (o.fn.evaluate t kind).slice = firstsBy LongSample.ts ((arrivals tr).filter fun s =>
      t - kind.sizeMs ≤ s.ts ∧ s.ts < t) := by
  have hsize : kind.sizeMs ≤ bufferRetentionMs := by cases kind <;> decide
  have hcutoff : wrap64 (t - kind.sizeMs) = t - kind.sizeMs := by
    have hpos : 0 ≤ kind.sizeMs := by cases kind <;> decide
    unfold minLong at hmin
    unfold lastBoundary at hmax
    refine wrap64_of_range ?_ ?_ <;> omega
  have hbuffered := h.buffered (t - bufferRetentionMs) fun e he => by
    have := hahead e he
    omega
  dsimp only [LongDiagnosticsProcessFunction.evaluate, LongDiagnosticsProcessFunction.retained]
  rw [evictBefore_eq hmin hmax, hcutoff]
  simp only [ge_iff_le]
  rw [hbuffered]
  -- Of what the eviction keeps, the slice takes the samples of the window.
  rw [filter_firstsBy (fun ts => decide (t - kind.sizeMs ≤ ts ∧ ts < t)), List.filter_filter]
  congr 1
  refine List.filter_congr fun s _ => ?_
  rw [← Bool.decide_and]
  refine decide_eq_decide.mpr ⟨And.left, fun hin => ⟨hin, ?_⟩⟩
  omega

theorem mem_split_append {es : List Evaluation} {before after : List LongTrace} {e : Evaluation}
    (h : tr ++ es.map .evaluated = before ++ .evaluated e :: after) :
    (∃ c, tr = before ++ .evaluated e :: c) ∨ e ∈ es ∧ arrivals before = arrivals tr := by
  have hlast : ∀ {c : List LongTrace}, es.map LongTrace.evaluated = c ++ .evaluated e :: after →
      e ∈ es ∧ arrivals (tr ++ c) = arrivals tr := by
    intro c hc
    obtain ⟨es₁, es₂, rfl, rfl, h₂⟩ := List.map_eq_append_iff.mp hc
    obtain ⟨e', es₃, rfl, he, -⟩ := List.map_eq_cons_iff.mp h₂
    obtain rfl := LongTrace.evaluated.inj he
    exact ⟨by simp, by simp⟩
  rcases List.append_eq_append_iff.mp h with ⟨c, rfl, hc⟩ | ⟨c, rfl, hc⟩
  · exact .inr (hlast hc)
  · cases c with
    | nil =>
      rw [List.nil_append] at hc
      obtain ⟨he, hsame⟩ := hlast (c := []) hc.symm
      exact .inr ⟨he, by simp⟩
    | cons x c =>
      obtain ⟨rfl, -⟩ := List.cons.inj hc
      exact .inl ⟨c, rfl⟩

theorem OnSchedule.fired (h : OnSchedule o tr) {t : ℤ} {rest : Timers}
    (hpop : o.timers.pop o.watermark = some (t, rest)) (hwatermark : o.watermark < lastBoundary) :
    OnSchedule
      { o with
        fn := (o.fn.onTimer t o.watermark).1
        timers := rest.register (o.fn.onTimer t o.watermark).2.2 }
      (tr ++ (o.fn.onTimer t o.watermark).2.1.map .evaluated) := by
  obtain ⟨hdue, hfirst, htimes⟩ := Timers.pop_some hpop
  have ht : t ∈ o.timers.times := by rw [htimes]; exact List.mem_cons_self
  obtain ⟨hdvd, hmin⟩ := h.aligned t ht
  have hlong : minLong ≤ t := by
    unfold bufferRetentionMs at hmin
    omega
  obtain ⟨hnext, hnextDvd⟩ := nextTimer_spec hlong hdvd hdue hwatermark
  have hpast : ∀ e ∈ evaluations tr, e.windowEnd < t := fun e he => (h.ahead e he).1 t ht
  set es := (o.fn.onTimer t o.watermark).2.1 with hes
  have hends : ∀ e ∈ es, e.windowEnd = t := by
    intro e he
    rw [hes] at he
    rcases List.mem_cons.mp he with rfl | he
    · rfl
    · rcases List.mem_cons.mp he with rfl | he
      · rfl
      · rw [List.mem_singleton.mp he]
        rfl
  have hslices : ∀ e ∈ es, e.slice = firstsBy LongSample.ts ((arrivals tr).filter fun s =>
      e.windowEnd - e.kind.sizeMs ≤ s.ts ∧ s.ts < e.windowEnd) := by
    intro e he
    rw [hes] at he
    have hslice := fun kind => h.slice_evaluate (t := t) kind hmin (hdue.trans_lt hwatermark) hpast
    rcases List.mem_cons.mp he with rfl | he
    · exact hslice .h4
    · rcases List.mem_cons.mp he with rfl | he
      · exact hslice .h12
      · rw [List.mem_singleton.mp he]
        exact hslice .h24
  have hkinds : (es.map fun e => (e.kind, e.windowEnd)) =
      [(.h4, t), (.h12, t), (.h24, t)] := rfl
  refine ⟨fun u hu => ?_, fun e he => ?_, ?_, fun before e after htr => ?_, fun c hc => ?_⟩
  · rcases Timers.mem_register.mp hu with rfl | hu
    · exact ⟨hnextDvd, hmin.trans (hdue.trans hnext.le)⟩
    · exact h.aligned u (by rw [htimes]; exact List.mem_cons_of_mem _ hu)
  · have hle : e.windowEnd ≤ t := by
      rw [evaluations_append, evaluations_evaluated] at he
      rcases List.mem_append.mp he with he | he
      · exact (hpast e he).le
      · exact (hends e he).le
    refine ⟨fun u hu => ?_, _, rfl, (hle.trans hdue).trans_lt hnext⟩
    rcases Timers.mem_register.mp hu with rfl | hu
    · exact (hle.trans hdue).trans_lt hnext
    · exact hle.trans_lt (hfirst u hu)
  · rw [evaluations_append, evaluations_evaluated, List.map_append, hkinds]
    refine List.nodup_append.mpr ⟨h.once, by simp, ?_⟩
    rintro a ha b hb rfl
    obtain ⟨e, he, rfl⟩ := List.mem_map.mp ha
    have hlt := hpast e he
    have heq : e.windowEnd = t := by
      simp only [List.mem_cons, Prod.mk.injEq, List.not_mem_nil, or_false] at hb
      rcases hb with hb | hb | hb <;> exact hb.2
    omega
  · rcases mem_split_append htr with ⟨c, rfl⟩ | ⟨he, hbefore⟩
    · exact h.sliced before e c rfl
    · rw [hbefore, hslices e he, hends e he]
      exact ⟨hdvd, rfl⟩
  · rw [evaluations_append, evaluations_evaluated] at hc
    rw [arrivals_append, arrivals_evaluated, List.append_nil]
    have hevict : t - bufferRetentionMs ≤ c :=
      hc _ (List.mem_append_right _ (List.mem_cons_self (a := o.fn.evaluate t .h4)))
    have hkept : ((o.fn.rollingBuffer.filter fun s => decide (s.ts ≥ t - bufferRetentionMs)).filter
        fun s => decide (c ≤ s.ts)) = o.fn.rollingBuffer.filter fun s => decide (c ≤ s.ts) := by
      rw [List.filter_filter]
      refine List.filter_congr fun s _ => ?_
      rw [← Bool.decide_and]
      exact decide_eq_decide.mpr ⟨And.left, fun hle => ⟨hle, hevict.trans hle⟩⟩
    change firstsBy LongSample.ts ((o.fn.retained t).filter fun s => decide (c ≤ s.ts)) = _
    rw [LongDiagnosticsProcessFunction.retained, evictBefore_eq hmin (hdue.trans_lt hwatermark),
      filter_firstsBy (fun ts => decide (c ≤ ts)), firstsBy_firstsBy, hkept]
    exact h.buffered c fun e he => hc e (List.mem_append_left _ he)

/-! ## Runs -/

variable {inputs : List LongInput}

theorem after_concat (inputs : List LongInput) (i : LongInput) :
    after (inputs ++ [i]) = ((after inputs).step i).1 :=
  Machine.stateAfter_concat _ _ _ _

theorem trace_concat (inputs : List LongInput) (i : LongInput) :
    trace (inputs ++ [i]) = trace inputs ++ ((after inputs).step i).2 :=
  Machine.outputs_concat _ _ _ _

theorem onSchedule_of_inRange (h : InRange inputs) : OnSchedule (after inputs) (trace inputs) := by
  induction inputs using List.reverseRecOn with
  | nil => exact onSchedule_new
  | append_singleton inputs i ih =>
    have hso := ih (h.of_prefix (List.prefix_append _ _))
    rw [after_concat, trace_concat]
    cases i with
    | element s =>
      cases hpeer : s.peerOfLoopId with
      | none => exact hso.own hpeer (h.elements s (List.mem_concat_self) hpeer)
      | some peer => exact hso.peer (by rw [hpeer]; rfl)
    | watermark w =>
      rw [step]
      split
      · rwa [List.append_nil]
      · rw [List.append_nil]
        exact { hso with }
    | fire =>
      rw [step]
      split
      · split
        · rw [List.append_nil]
          exact { hso with }
        · rename_i t rest hpop
          obtain ⟨hdue, -, htimes⟩ := Timers.pop_some hpop
          refine hso.fired hpop (h.fires inputs List.prefix_rfl ⟨t, ?_, hdue⟩)
          rw [htimes]
          exact List.mem_cons_self
      · rwa [List.append_nil]

/-- The quarter of an hour after a sample that was not late lies ahead, or has been visited, or its
timer is among those being fired. -/
def Covered (o : LongOperator) (tr : List LongTrace) : Prop :=
  ∀ s wm, .arrived s wm ∈ tr → wm < s.ts →
    o.watermark < boundaryAfter s.ts ∨
      (∃ e ∈ evaluations tr, e.windowEnd = boundaryAfter s.ts) ∨
      o.draining = true ∧ boundaryAfter s.ts ∈ o.timers.times

theorem Covered.element (h : Covered o tr) (s : LongSample) :
    Covered (o.step (.element s)).1 (tr ++ (o.step (.element s)).2) := by
  rw [step]
  split
  · rwa [List.append_nil]
  · intro s' wm hs' hlate
    rcases List.mem_append.mp hs' with hs' | hs'
    · rcases h s' wm hs' hlate with hahead | ⟨e, he, heq⟩ | ⟨hdraining, -⟩
      · exact .inl hahead
      · exact .inr (.inl ⟨e, by rw [evaluations_append]; exact List.mem_append_left _ he, heq⟩)
      · contradiction
    · split at hs'
      · exact absurd hs' List.not_mem_nil
      · obtain ⟨rfl, rfl⟩ : s' = s ∧ wm = o.watermark := by simpa using hs'
        exact .inl (hlate.trans (lt_boundaryAfter _))

theorem Covered.watermark (h : Covered o tr) {w : ℤ}
    (hregistered : ∀ s wm, .arrived s wm ∈ tr → wm < s.ts → o.watermark < boundaryAfter s.ts →
      boundaryAfter s.ts ≤ w → boundaryAfter s.ts ∈ o.timers.times) :
    Covered { o with watermark := w, draining := true } tr := by
  intro s wm hs hlate
  rcases h s wm hs hlate with hahead | hvisited | ⟨-, htimer⟩
  · rcases lt_or_ge w (boundaryAfter s.ts) with hlt | hge
    · exact .inl hlt
    · exact .inr (.inr ⟨rfl, hregistered s wm hs hlate hahead hge⟩)
  · exact .inr (.inl hvisited)
  · exact .inr (.inr ⟨rfl, htimer⟩)

theorem Covered.fire (h : Covered o tr) :
    Covered (o.step .fire).1 (tr ++ (o.step .fire).2) := by
  rw [step]
  split
  · rename_i hdraining
    split
    · rename_i hnone
      rw [List.append_nil]
      intro s wm hs hlate
      rcases h s wm hs hlate with hahead | hvisited | ⟨-, htimer⟩
      · exact .inl hahead
      · exact .inr (.inl hvisited)
      · exact .inl (Timers.lt_of_pop_none hnone _ htimer)
    · rename_i t rest hpop
      obtain ⟨-, -, htimes⟩ := Timers.pop_some hpop
      intro s wm hs hlate
      rw [evaluations_append, evaluations_evaluated]
      rcases List.mem_append.mp hs with hs | hs
      · rcases h s wm hs hlate with hahead | ⟨e, he, heq⟩ | ⟨-, htimer⟩
        · exact .inl hahead
        · exact .inr (.inl ⟨e, List.mem_append_left _ he, heq⟩)
        · rw [htimes] at htimer
          rcases List.mem_cons.mp htimer with heq | htimer
          · exact .inr (.inl ⟨_, List.mem_append_right _ List.mem_cons_self, heq.symm⟩)
          · exact .inr (.inr ⟨hdraining, Timers.mem_register.mpr (.inr htimer)⟩)
      · obtain ⟨e, -, he⟩ := List.mem_map.mp hs
        exact absurd he (by simp)
  · rwa [List.append_nil]

theorem covered_of_regular (h : Regular inputs) : Covered (after inputs) (trace inputs) := by
  induction inputs using List.reverseRecOn with
  | nil => exact fun s wm hs => absurd hs List.not_mem_nil
  | append_singleton inputs i ih =>
    have hcovered := ih (h.of_prefix (List.prefix_append _ _))
    rw [after_concat, trace_concat]
    cases i with
    | element s => exact hcovered.element s
    | watermark w =>
      rw [step]
      split
      · rwa [List.append_nil]
      · rw [List.append_nil]
        exact hcovered.watermark (h.registered inputs w List.prefix_rfl)
    | fire => exact hcovered.fire

/-- Every state of a run in which the times are in range and no watermark passes a quarter of an hour
without its timer is on schedule. -/
theorem scheduled_of_regular (inputs : List LongInput) (h : Regular inputs) :
    ∀ pre, pre <+: inputs → Scheduled pre := by
  intro pre hpre
  have hregular := h.of_prefix hpre
  have hso := onSchedule_of_inRange hregular.toInRange
  refine ⟨hso.once, hso.sliced, fun hidle s wm hs hlate hpassed => ?_⟩
  rcases covered_of_regular hregular s wm hs hlate with hahead | hvisited | ⟨hdraining, -⟩
  · exact absurd hpassed (not_le.mpr hahead)
  · exact hvisited
  · rw [hidle] at hdraining
    exact absurd hdraining Bool.false_ne_true

theorem watermark_lt {bound : ℤ} (hbound : minLong < bound)
    (h : ∀ w, .watermark w ∈ inputs → w < bound) : (after inputs).watermark < bound := by
  induction inputs using List.reverseRecOn with
  | nil => exact hbound
  | append_singleton inputs i ih =>
    have hso := ih fun w hw => h w (List.mem_append_left _ hw)
    rw [after_concat]
    cases i with
    | element s => unfold step; dsimp only; split <;> exact hso
    | watermark w =>
      unfold step
      dsimp only
      split
      · exact hso
      · exact h w List.mem_concat_self
    | fire =>
      unfold step
      dsimp only
      split
      · split <;> exact hso
      · exact hso

def sampleAt (ts : ℤ) : LongSample := ⟨{ eventTsMs := ts }, none, none, 0⟩

/-- A sample before and one after a quarter of an hour, and the watermark that passes it. -/
theorem scheduled_of_regular_sample :
    let inputs := [.element (sampleAt 840000), .element (sampleAt 960000), .watermark 900000, .fire,
      .fire]
    (evaluations (trace inputs)).map (fun e => (e.kind, e.windowEnd, e.slice.length)) =
        [(.h4, 900000, 1), (.h12, 900000, 1), (.h24, 900000, 1)] ∧
      Scheduled inputs := by
  intro inputs
  refine ⟨by decide, scheduled_of_regular inputs ⟨⟨?_, ?_⟩, ?_⟩ inputs List.prefix_rfl⟩
  · intro s hs _
    have hs : s = sampleAt 840000 ∨ s = sampleAt 960000 := by simpa [inputs] using hs
    rcases hs with rfl | rfl <;> decide
  · intro pre hpre _
    refine watermark_lt (by decide) fun w hw => ?_
    have hw := hpre.subset (List.mem_append_left _ hw)
    have hw : w = 900000 := by simpa [inputs] using hw
    subst hw
    decide
  · rintro pre w ⟨post, hpost⟩ s wm hs - - hle
    -- The watermark comes third.
    have hpre : pre = [.element (sampleAt 840000), .element (sampleAt 960000)] ∧ w = 900000 := by
      rcases pre with _ | ⟨a, _ | ⟨b, _ | ⟨c, _ | ⟨d, _ | ⟨e, pre⟩⟩⟩⟩⟩ <;> simp_all [inputs]
    obtain ⟨rfl, rfl⟩ := hpre
    have hs : s = sampleAt 840000 ∨ s = sampleAt 960000 := by
      have hs : LongTrace.arrived s wm ∈ [LongTrace.arrived (sampleAt 840000) minLong,
        LongTrace.arrived (sampleAt 960000) minLong] := hs
      simp only [List.mem_cons, LongTrace.arrived.injEq, List.not_mem_nil, or_false] at hs
      exact hs.imp And.left And.left
    rcases hs with rfl | rfl
    · decide
    · exact absurd hle (by decide)

/-- The first sample of a loop is two minutes ahead of the second, and the quarter of an hour between
them is never visited. -/
theorem boundary_passed_over : ¬ ∀ inputs : List LongInput, Scheduled inputs := by
  intro h
  have hcovered := (h [.element (sampleAt 960000), .element (sampleAt 840000), .watermark 900000,
    .fire]).covered rfl (sampleAt 840000) minLong
    (List.mem_cons_of_mem _ List.mem_cons_self) (by decide) (by decide)
  obtain ⟨e, he, -⟩ := hcovered
  exact absurd he List.not_mem_nil

end LongOperator

end OpenBridge.LongWindow
