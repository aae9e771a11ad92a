import OpenBridge.LongWindow.EvaluationSchedule
import OpenBridge.ShortWindow.BufferContents

/-!
# Short windows: the range of the timers

A timer is registered at most a little more than an hour after a buffered sample, so the times of the
timers do not leave the range of a `long` where those of the samples keep away from its ends.
-/

namespace OpenBridge.ShortWindow

open OpenBridge.Foundation

namespace Spec

variable {spec : Spec} {ts e : ℤ}

theorem lastStart_lt (spec : Spec) (ts : ℤ) : spec.lastStart ts < ts + spec.slideMs := by
  have hmod := Int.lt_tmod_of_pos (ts + spec.slideMs) spec.slide_pos
  unfold lastStart
  omega

theorem lt_of_mem_endsFrom {start : ℤ} (h : e ∈ spec.endsFrom ts start) : ts < e := by
  have hslide := spec.slide_pos
  rw [endsFrom] at h
  split at h
  · rcases List.mem_cons.mp h with rfl | h
    · omega
    · exact lt_of_mem_endsFrom h
  · exact absurd h List.not_mem_nil
termination_by (start - (ts - spec.sizeMs)).toNat

theorem windowEnds_range (h : e ∈ spec.windowEnds ts) :
    ts < e ∧ e < ts + spec.slideMs + spec.sizeMs := by
  have hle := (spec.pairwise_endsFrom ts _).2 e h
  have hlt := spec.lastStart_lt ts
  exact ⟨lt_of_mem_endsFrom h, by omega⟩

end Spec

def longestSpanMs : ℤ := 4080000

theorem span_le {spec : Spec} (h : spec ∈ ShortWindowSpecs.all) :
    spec.slideMs + spec.sizeMs + spec.latenessMs ≤ longestSpanMs := by
  simp only [ShortWindowSpecs.all, List.mem_cons, List.not_mem_nil, or_false] at h
  rcases h with rfl | rfl | rfl | rfl | rfl | rfl <;> decide

theorem retainUntil_le (ts : ℤ) :
    ShortWindowSpecs.retainUntil ts ≤ max minLong (ts + longestSpanMs) := by
  have hfold : ∀ (specs : List Spec) (init : ℤ), (∀ spec ∈ specs, spec ∈ ShortWindowSpecs.all) →
      init ≤ max minLong (ts + longestSpanMs) →
      specs.foldl (fun latest spec =>
        max latest (spec.cleanupTime (spec.lastStart ts + spec.sizeMs))) init ≤
          max minLong (ts + longestSpanMs) := by
    intro specs
    induction specs with
    | nil => exact fun _ _ hinit => hinit
    | cons spec specs ih =>
      intro init hspecs hinit
      refine ih _ (fun s hs => hspecs s (List.mem_cons_of_mem _ hs)) (max_le hinit ?_)
      have hspan := span_le (hspecs spec List.mem_cons_self)
      have hlt := spec.lastStart_lt ts
      refine le_trans ?_ (le_max_right _ _)
      unfold Spec.cleanupTime
      omega
  exact hfold _ _ (fun _ h => h) (le_max_left _ _)

theorem liveWindows_range {wm ts : ℤ} {f : Spec × ℤ} (h : f ∈ liveWindows wm ts) :
    f.1 ∈ ShortWindowSpecs.all ∧ ts < f.2 ∧ f.2 < ts + f.1.slideMs + f.1.sizeMs ∧
      wm < f.1.cleanupTime f.2 := by
  obtain ⟨spec, hspec, hf⟩ := List.mem_flatMap.mp h
  obtain ⟨e, he, rfl⟩ := List.mem_map.mp hf
  obtain ⟨he, hlive⟩ := List.mem_filter.mp he
  obtain ⟨hlt, hgt⟩ := Spec.windowEnds_range he
  exact ⟨hspec, hlt, hgt, by simpa using hlive⟩

def timerSpanMs : ℤ := 4260000

namespace ShortFeatureBufferFn

variable {π : Type} {f : ShortFeatureBufferFn π}

theorem timerFor_range {wm ts : ℤ} (h : liveWindows wm ts ≠ []) :
    ts ≤ timerFor wm ts ∧ timerFor wm ts ≤ ts + timerSpanMs := by
  unfold timerFor firstOnTimeEnd
  cases hmin : (((liveWindows wm ts).filter fun f => decide (wm < f.2 - 1)).map Prod.snd).min? with
  | some e =>
    obtain ⟨g, hg, rfl⟩ := List.mem_map.mp (List.min?_mem hmin)
    obtain ⟨hspec, hlt, hgt, -⟩ := liveWindows_range (List.mem_filter.mp hg).1
    have hspan := span_le hspec
    have hlate := g.1.lateness_pos
    unfold longestSpanMs at hspan
    unfold timerSpanMs
    dsimp only
    omega
  | none =>
    obtain ⟨g, hg⟩ := List.exists_mem_of_ne_nil _ h
    obtain ⟨hspec, hlt, hgt, hlive⟩ := liveWindows_range hg
    have hspan := span_le hspec
    have hlate : g.2 - 1 ≤ wm := by
      by_contra hon
      have hnil : ((liveWindows wm ts).filter fun f => decide (wm < f.2 - 1)) = [] := by
        simpa using List.min?_eq_none_iff.mp hmin
      refine List.ne_nil_of_mem (List.mem_filter.mpr ⟨hg, ?_⟩) hnil
      exact decide_eq_true (not_le.mp hon)
    have hminute := lt_minuteOf_add wm
    have hminute' := minuteOf_le wm
    unfold Spec.cleanupTime at hlive
    unfold longestSpanMs at hspan
    unfold timerSpanMs
    unfold minuteMs at hminute ⊢
    dsimp only
    omega

/-! ## The minutes -/

@[simp] theorem minutes_keepFrom (left : List ℤ) : (f.keepFrom left).minutes = left := by
  cases left <;> rfl

theorem mem_left_of_keepFrom {left : List ℤ} {m : ℤ} (h : m ∈ (f.keepFrom left).minutes) :
    m ∈ left := by
  rwa [minutes_keepFrom] at h

theorem dropWhile_minutes (p : ℤ → ℤ → Bool) (ms : List ℤ) (count : ℤ) :
    (dropWhile p ms count f).1.minutes = f.minutes ∧ (dropWhile p ms count f).2.2 <:+ ms ∧
      ∀ m rest, (dropWhile p ms count f).2.2 = m :: rest → ∃ c, p c m = false := by
  induction ms generalizing count f with
  | nil => exact ⟨rfl, List.suffix_rfl, fun _ _ h => by simp [dropWhile] at h⟩
  | cons m ms ih =>
    unfold dropWhile
    split
    · obtain ⟨hminutes, hsuffix, hhead⟩ := ih (f := f.dropMinute m) (count - f.sizeOfMinute m)
      exact ⟨hminutes, hsuffix.trans (List.suffix_cons _ _), hhead⟩
    · rename_i hp
      refine ⟨rfl, List.suffix_rfl, fun m' rest h => ?_⟩
      obtain ⟨rfl, -⟩ := List.cons.inj h
      exact ⟨count, by simpa using hp⟩

theorem minutes_shrinkBefore (m target count : ℤ) :
    (f.shrinkBefore m target count).2.minutes ⊆ f.minutes := by
  obtain ⟨hminutes, hsuffix, -⟩ := dropWhile_minutes (f := f)
    (fun count minute => decide (target < count ∧ minute < m)) f.minutes count
  unfold shrinkBefore
  dsimp only
  split
  · split
    · exact fun x hx => hminutes ▸ hx
    · exact fun x hx => hsuffix.subset (mem_left_of_keepFrom hx)
  · split
    · exact fun x hx => hminutes ▸ hx
    · exact fun x hx => hsuffix.subset (mem_left_of_keepFrom hx)

theorem evict_minutes (t : ℤ) : (f.evict t).1.minutes ⊆ f.minutes ∧
    ((f.evict t).2 = true →
      ∃ m ∈ f.minutes, t < ShortWindowSpecs.retainUntil (m + minuteMs - 1)) := by
  unfold evict
  split
  · exact ⟨List.Subset.refl _, fun h => absurd h Bool.false_ne_true⟩
  · obtain ⟨hminutes, hsuffix, hhead⟩ := dropWhile_minutes (f := f.count.2)
      (fun _ minute => decide (ShortWindowSpecs.retainUntil (minute + minuteMs - 1) ≤ t)) f.minutes
      f.count.1
    have hleft : (dropWhile (fun _ minute => decide (ShortWindowSpecs.retainUntil
        (minute + minuteMs - 1) ≤ t)) f.minutes f.count.1 f.count.2).2.2 ≠ [] →
        ∃ m ∈ f.minutes, t < ShortWindowSpecs.retainUntil (m + minuteMs - 1) := by
      intro hne
      obtain ⟨m, rest, hcons⟩ := List.exists_cons_of_ne_nil hne
      obtain ⟨c, hc⟩ := hhead m rest hcons
      refine ⟨m, hsuffix.subset (hcons ▸ List.mem_cons_self), ?_⟩
      exact not_le.mp (of_decide_eq_false hc)
    rw [count_minutes] at hminutes
    dsimp only
    split
    · exact ⟨by simp, fun h => absurd h Bool.false_ne_true⟩
    · rename_i hne
      split
      · exact ⟨fun x hx => hminutes ▸ hx, fun _ => hleft hne⟩
      · exact ⟨fun x hx => hsuffix.subset (mem_left_of_keepFrom hx), fun _ => hleft hne⟩

theorem processElement_minutes (fingerprint : π → String) (maxSamplesPerLoop wm : ℤ)
    (x : TimedSample π) :
    (∀ m ∈ (f.processElement fingerprint maxSamplesPerLoop wm x).1.minutes,
      m ∈ f.minutes ∨ m = minuteOf x.ts) ∧
      ∀ t ∈ (f.processElement fingerprint maxSamplesPerLoop wm x).2.2,
        x.ts ≤ t ∧ t ≤ x.ts + timerSpanMs := by
  unfold processElement
  split
  · exact ⟨fun m hm => .inl hm, fun t ht => absurd ht (by simp)⟩
  · rename_i hlive
    dsimp only
    split
    · exact ⟨fun m hm => .inl hm, fun t ht => absurd ht (by simp)⟩
    · have hroom : ∀ room : ℤ × ShortFeatureBufferFn π,
          (if capFor x.sample.gridSeconds maxSamplesPerLoop ≤ f.count.1 then
            f.count.2.shrinkBefore (minuteOf x.ts)
              (capFor x.sample.gridSeconds maxSamplesPerLoop - 1) f.count.1
          else f.count) = room → room.2.minutes ⊆ f.minutes := by
        rintro room rfl
        rw [← count_minutes f]
        split
        · exact minutes_shrinkBefore _ _ _
        · exact List.Subset.refl _
      generalize (if capFor x.sample.gridSeconds maxSamplesPerLoop ≤ f.count.1 then
        f.count.2.shrinkBefore (minuteOf x.ts)
          (capFor x.sample.gridSeconds maxSamplesPerLoop - 1) f.count.1
        else f.count) = room at hroom ⊢
      split
      · exact ⟨fun m hm => .inl (hroom room rfl hm), fun t ht => absurd ht (by simp)⟩
      · refine ⟨fun m hm => ?_, fun t ht => ?_⟩
        · change m ∈ (if (f.minuteIndex.get? (minuteOf x.ts)).isNone then
            addMinute (minuteOf x.ts) room.2.minutes else room.2.minutes) at hm
          split at hm
          · rcases mem_addMinute.mp hm with rfl | hm
            · exact .inr rfl
            · exact .inl (hroom room rfl hm)
          · exact .inl (hroom room rfl hm)
        · obtain rfl := Option.some.inj ht
          exact timerFor_range hlive

/-! ## The timers -/

/-- The minutes lie before a bound, and the timers in a range that reaches a little beyond it. -/
structure TimersWithin (low high : ℤ) (ts : Timers) (f : ShortFeatureBufferFn π) : Prop where
  minutes : ∀ m ∈ f.minutes, m ≤ high
  timers : ∀ t ∈ ts.times, low ≤ t ∧ t ≤ high + timerSpanMs

variable {low high w : ℤ} {ts : Timers}

theorem TimersWithin.fired (hlow : minLong ≤ low) (h : TimersWithin low high ts f) {t : ℤ}
    {rest : Timers} (hpop : ts.pop w = some (t, rest)) :
    TimersWithin low high (rest.registerNext (f.onTimer t).2.2) (f.onTimer t).1 := by
  obtain ⟨-, -, htimes⟩ := Timers.pop_some hpop
  obtain ⟨hsubset, hleft⟩ := evict_minutes (f := f) t
  have ht := h.timers t (htimes ▸ List.mem_cons_self)
  refine ⟨fun m hm => h.minutes m (hsubset hm), fun u hu => ?_⟩
  rcases Timers.mem_registerNext.mp hu with ⟨next, hnext, rfl⟩ | hu
  · unfold onTimer at hnext
    dsimp only at hnext
    split at hnext
    · rename_i hevicted
      obtain ⟨m, hm, hneeded⟩ := hleft hevicted
      obtain rfl := Option.some.inj hnext
      have hle := retainUntil_le (m + minuteMs - 1)
      have hhigh := h.minutes m hm
      have hminute := minuteOf_le t
      have hlater := lt_nextBoundary t
      unfold longestSpanMs at hle
      unfold minuteMs at hle hneeded
      refine ⟨ht.1.trans hlater.le, ?_⟩
      change nextBoundary t ≤ high + timerSpanMs
      unfold nextBoundary minuteMs timerSpanMs
      omega
    · exact absurd hnext (by simp)
  · exact h.timers u (by rw [htimes]; exact List.mem_cons_of_mem _ hu)

end ShortFeatureBufferFn

namespace BufferOperator

variable {π : Type} {low high : ℤ} {fingerprint : π → String} {maxSamplesPerLoop : ℤ}
  {o : BufferOperator π}

def Within (low high : ℤ) (o : BufferOperator π) : Prop :=
  ShortFeatureBufferFn.TimersWithin low high o.timers o.fn

theorem Within.step (hlow : minLong ≤ low) (h : o.Within low high) {e : Event π}
    (he : ∀ x, e = .sample x → low ≤ x.ts ∧ x.ts ≤ high) :
    (o.step fingerprint maxSamplesPerLoop e).1.Within low high := by
  cases e with
  | sample x =>
    obtain ⟨hmin, hmax⟩ := he x rfl
    obtain ⟨hminutes, htimers⟩ := ShortFeatureBufferFn.processElement_minutes (f := o.fn) fingerprint
      maxSamplesPerLoop o.watermark x
    refine ⟨fun m hm => ?_, fun t ht => ?_⟩
    · rcases hminutes m hm with hm | rfl
      · exact h.minutes m hm
      · exact (minuteOf_le _).trans hmax
    · dsimp only [BufferOperator.step] at ht
      cases hnext : (o.fn.processElement fingerprint maxSamplesPerLoop o.watermark x).2.2 with
      | none =>
        rw [hnext] at ht
        exact h.timers t ht
      | some next =>
        rw [hnext] at ht
        rcases Timers.mem_register.mp ht with rfl | ht
        · have hrange := htimers t hnext
          omega
        · exact h.timers t ht
  | watermark w =>
    obtain ⟨n, hn, -⟩ := exists_fireDue ShortFeatureBufferFn.onTimer w o.timers o.fn
    have hfired := fireDue_invariant ShortFeatureBufferFn.onTimer (w := w)
      (P := ShortFeatureBufferFn.TimersWithin low high)
      (fun ts f t rest hts hpop => hts.fired hlow hpop) h n
    rw [hn] at hfired
    exact hfired

theorem within_of_samples (hlow : minLong ≤ low) {events : List (Event π)}
    (h : ∀ x, .sample x ∈ events → low ≤ x.ts ∧ x.ts ≤ high) :
    (Machine.stateAfter (step fingerprint maxSamplesPerLoop) new events).Within low high := by
  induction events using List.reverseRecOn with
  | nil =>
    exact ⟨fun m hm => absurd hm List.not_mem_nil, fun t ht => absurd ht List.not_mem_nil⟩
  | append_singleton events e ih =>
    rw [Machine.stateAfter_concat]
    refine (ih fun x hx => h x (List.mem_append_left _ hx)).step hlow ?_
    rintro x rfl
    exact h x List.mem_concat_self

end BufferOperator

end OpenBridge.ShortWindow

/-!
# Long windows: advancing the watermark

A watermark is followed by the timers that are due.
-/

namespace OpenBridge.LongWindow

open OpenBridge.Foundation
open OpenBridge.ShortWindow (BufferOperator ShortFeatureBufferFn)

namespace LongOperator

def drained (o : LongOperator) (w : ℤ) (n : ℕ) : LongOperator :=
  Machine.stateAfter step o (.watermark w :: List.replicate n .fire)

def buffered (o : LongOperator) : List LongSample := o.fn.rollingBuffer ++ o.fn.peerBuffer

/-- The watermark is taken in: finitely many timers fire, none is registered at or below it, and what
is older than 24 hours and 25 minutes before it is no longer buffered. -/
structure Drains (o : LongOperator) (w : ℤ) : Prop where
  finite : ∃ n, (o.drained w n).draining = false
  later : ∀ n, ∀ t ∈ (o.drained w n).timers.times, t ∈ o.timers.times ∨ w < t
  retained : ∀ n, (o.drained w n).draining = false → ∀ s ∈ (o.drained w n).buffered,
    w - bufferRetentionMs - timerIntervalMs ≤ s.ts

/-- No timer is due at a watermark from the last quarter of an hour on, and what is older than 24 hours
and 25 minutes before the watermark is older than 24 hours and 10 minutes before a timer that is
due. -/
structure Drainable (o : LongOperator) (w : ℤ) : Prop where
  due : ∀ t ∈ o.timers.times, t ≤ w → w < lastBoundary
  old : ∀ s ∈ o.buffered, s.ts < w - bufferRetentionMs - timerIntervalMs →
    ∃ t ∈ o.timers.times, t ≤ w ∧ s.ts < t - bufferRetentionMs

variable {o p : LongOperator} {w : ℤ}

theorem drained_zero (hidle : o.draining = false) (hw : o.watermark ≤ w) :
    o.drained w 0 = { o with watermark := w, draining := true } := by
  have hturn : ¬ (o.draining = true ∨ w < o.watermark) := by
    rw [hidle]
    exact not_or.mpr ⟨Bool.false_ne_true, not_lt.mpr hw⟩
  change (o.step (.watermark w)).1 = _
  rw [step, if_neg hturn]

theorem drained_succ (o : LongOperator) (w : ℤ) (n : ℕ) :
    o.drained w (n + 1) = ((o.drained w n).step .fire).1 := by
  rw [drained, drained, List.replicate_succ', ← List.cons_append, Machine.stateAfter_concat]

/-- How far the firings have come: the old timers and later ones are left, the watermark stands, and a
timer that has fired has evicted what was too old. -/
structure Draining (o : LongOperator) (w : ℤ) (p : LongOperator) : Prop where
  watermark : p.watermark = w
  later : ∀ t ∈ p.timers.times, t ∈ o.timers.times ∨ w < t
  settled : p.draining = false → p.timers.pop w = none
  evicted : ∀ t ∈ o.timers.times, t ≤ w → t ∈ p.timers.times ∨
    ∀ s ∈ p.buffered, t - bufferRetentionMs ≤ s.ts
  subset : p.buffered ⊆ o.buffered

theorem mem_buffered_onTimer {f : LongDiagnosticsProcessFunction} {t : ℤ} {s : LongSample}
    (hmin : minLong + bufferRetentionMs ≤ t) (hmax : t < lastBoundary)
    (hs : s ∈ (f.onTimer t w).1.rollingBuffer ++ (f.onTimer t w).1.peerBuffer) :
    s ∈ f.rollingBuffer ++ f.peerBuffer ∧ t - bufferRetentionMs ≤ s.ts := by
  have hevict := evictBefore_eq hmin hmax
  rcases List.mem_append.mp hs with hs | hs
  · obtain ⟨hmem, hkept⟩ := List.mem_filter.mp (mem_of_mem_firstsFrom hs)
    rw [hevict] at hkept
    exact ⟨List.mem_append_left _ hmem, of_decide_eq_true hkept⟩
  · obtain ⟨hmem, hkept⟩ := List.mem_filter.mp (mem_of_mem_firstsFrom hs)
    rw [hevict] at hkept
    exact ⟨List.mem_append_right _ hmem, not_lt.mp (of_decide_eq_true hkept)⟩

theorem Draining.fire
    (haligned : ∀ t ∈ o.timers.times, timerIntervalMs ∣ t ∧ minLong + bufferRetentionMs ≤ t)
    (hdue : ∀ t ∈ o.timers.times, t ≤ w → w < lastBoundary) (h : Draining o w p) :
    Draining o w (p.step .fire).1 ∧
      (p.draining = true → (p.step .fire).1.draining = false ∨
        (p.step .fire).1.timers.work w < p.timers.work w) := by
  have hwatermark := h.watermark
  rw [step]
  split
  · rename_i hdraining
    rw [hwatermark]
    split
    · rename_i hnone
      exact ⟨⟨rfl, h.later, fun _ => hnone, h.evicted, h.subset⟩, fun _ => .inl rfl⟩
    · rename_i t rest hpop
      obtain ⟨hle, -, htimes⟩ := Timers.pop_some hpop
      have ht : t ∈ o.timers.times := by
        refine (h.later t (htimes ▸ List.mem_cons_self)).resolve_right (not_lt.mpr hle)
      have hlast := hdue t ht hle
      obtain ⟨hdvd, hmin⟩ := haligned t ht
      have hlong : minLong ≤ t := by
        unfold bufferRetentionMs at hmin
        omega
      obtain ⟨hnext, -⟩ := nextTimer_spec hlong hdvd hle hlast
      have hkept : ∀ s ∈ (p.fn.onTimer t w).1.rollingBuffer ++ (p.fn.onTimer t w).1.peerBuffer,
          s ∈ p.buffered ∧ t - bufferRetentionMs ≤ s.ts :=
        fun s hs => mem_buffered_onTimer hmin (hle.trans_lt hlast) hs
      refine ⟨⟨rfl, fun u hu => ?_, ?_, fun u hu hule => ?_, fun s hs => h.subset (hkept s hs).1⟩,
        fun _ => .inr ?_⟩
      · rcases Timers.mem_register.mp hu with rfl | hu
        · exact .inr hnext
        · exact h.later u (by rw [htimes]; exact List.mem_cons_of_mem _ hu)
      · intro hsettled
        exact absurd (hdraining.symm.trans hsettled) (by simp)
      · rcases h.evicted u hu hule with hu | hu
        · rw [htimes] at hu
          rcases List.mem_cons.mp hu with rfl | hu
          · exact .inr fun s hs => (hkept s hs).2
          · exact .inl (Timers.mem_register.mpr (.inr hu))
        · exact .inr fun s hs => hu s (hkept s hs).1
      · exact Timers.work_registerNext_lt hpop (some ⟨_, hle.trans_lt hnext⟩)
  · rename_i hsettled
    exact ⟨h, fun hdraining => absurd hdraining hsettled⟩

theorem Drainable.drains
    (haligned : ∀ t ∈ o.timers.times, timerIntervalMs ∣ t ∧ minLong + bufferRetentionMs ≤ t)
    (hidle : o.draining = false) (hw : o.watermark ≤ w) (h : Drainable o w) : Drains o w := by
  have hdraining : ∀ n, Draining o w (o.drained w n) := by
    intro n
    induction n with
    | zero =>
      rw [drained_zero hidle hw]
      exact ⟨rfl, fun _ ht => .inl ht, fun hset => absurd hset (by simp), fun _ ht _ => .inl ht,
        List.Subset.refl _⟩
    | succ n ih =>
      rw [drained_succ]
      exact (ih.fire haligned h.due).1
  refine ⟨?_, fun n => (hdraining n).later, fun n hsettled s hs => ?_⟩
  · -- The work that is left goes down until the timers are settled.
    have hfrom : ∀ k n, (o.drained w n).timers.work w = k →
        ∃ m, (o.drained w m).draining = false := by
      intro k
      induction k using Nat.strong_induction_on with
      | _ k ih =>
        intro n hk
        cases hn : (o.drained w n).draining with
        | false => exact ⟨n, hn⟩
        | true =>
          rcases ((hdraining n).fire haligned h.due).2 hn with hsettled | hless
          · exact ⟨n + 1, by rw [drained_succ]; exact hsettled⟩
          · rw [← drained_succ, hk] at hless
            exact ih _ hless (n + 1) rfl
    exact hfrom _ 0 rfl
  · by_contra hold
    obtain ⟨t, ht, hle, hlt⟩ := h.old s ((hdraining n).subset hs) (not_le.mp hold)
    rcases (hdraining n).evicted t ht hle with hleft | hevicted
    · exact absurd hle (not_le.mpr (Timers.lt_of_pop_none ((hdraining n).settled hsettled) t hleft))
    · exact absurd hlt (not_lt.mpr (hevicted s hs))

end LongOperator

/-! ## Both operators -/

/-- The watermark is taken in by the short windows: finitely many timers fire, and no time of a timer
leaves the range of a `long`. -/
structure ShortDrains {π : Type} (o : BufferOperator π) (w : ℤ) : Prop where
  finite : ∃ n, ((fireDue ShortFeatureBufferFn.onTimer w)^[n] (o.timers, o.fn)).1.pop w = none
  inRange : ∀ n, ∀ t ∈ ((fireDue ShortFeatureBufferFn.onTimer w)^[n] (o.timers, o.fn)).1.times,
    minLong ≤ t ∧ t ≤ maxLong

def shortAfter {π : Type} (fingerprint : π → String) (maxSamplesPerLoop : ℤ)
    (events : List (ShortWindow.Event π)) : BufferOperator π :=
  Machine.stateAfter (BufferOperator.step fingerprint maxSamplesPerLoop) BufferOperator.new events

/-- The times of the samples stay two hours and 22 minutes away from the ends of a `long`: what the
short windows compute of them is in range. -/
def FarFromEnds {π : Type} (events : List (ShortWindow.Event π)) : Prop :=
  ∀ x, .sample x ∈ events → minLong + 2 * ShortWindow.timerSpanMs ≤ x.ts ∧
    x.ts ≤ maxLong - 2 * ShortWindow.timerSpanMs

theorem shortDrains_of_samples {π : Type} (fingerprint : π → String) (maxSamplesPerLoop : ℤ)
    {events : List (ShortWindow.Event π)} (h : FarFromEnds events) (w : ℤ) :
    ShortDrains (shortAfter fingerprint maxSamplesPerLoop events) w := by
  have hlow : minLong ≤ minLong + 2 * ShortWindow.timerSpanMs := by decide
  have hwithin := @BufferOperator.within_of_samples _ _ _ fingerprint maxSamplesPerLoop hlow _ h
  constructor
  · obtain ⟨n, hn, hnone⟩ := exists_fireDue ShortFeatureBufferFn.onTimer w
      (shortAfter fingerprint maxSamplesPerLoop events).timers
      (shortAfter fingerprint maxSamplesPerLoop events).fn
    exact ⟨n, by rw [hn]; exact hnone⟩
  · intro n t ht
    have hfired := fireDue_invariant ShortFeatureBufferFn.onTimer (w := w)
      (P := ShortFeatureBufferFn.TimersWithin (minLong + 2 * ShortWindow.timerSpanMs)
        (maxLong - 2 * ShortWindow.timerSpanMs))
      (fun ts f t rest hts hpop => hts.fired hlow hpop) hwithin n
    have hrange := hfired.timers t ht
    unfold ShortWindow.timerSpanMs at hrange
    omega

/-- After any run in range, the long windows take in every watermark that is drainable, and the short
windows every watermark. -/
theorem drains_of_drainable {π : Type} (fingerprint : π → String) (maxSamplesPerLoop : ℤ)
    (inputs : List LongInput) (events : List (ShortWindow.Event π)) (w : ℤ)
    (hinputs : LongOperator.InRange inputs) (hidle : (LongOperator.after inputs).draining = false)
    (hw : (LongOperator.after inputs).watermark ≤ w)
    (hdrainable : (LongOperator.after inputs).Drainable w)
    (hevents : FarFromEnds events) :
    (LongOperator.after inputs).Drains w ∧
      ∀ v, ShortDrains (shortAfter fingerprint maxSamplesPerLoop events) v :=
  ⟨hdrainable.drains (LongOperator.onSchedule_of_inRange hinputs).aligned hidle hw,
    shortDrains_of_samples fingerprint maxSamplesPerLoop hevents⟩

/-- A sample of each kind of windows, and the watermark that passes it. -/
theorem drains_of_drainable_sample :
    (LongOperator.after [.element (LongOperator.sampleAt 840000)]).Drains 900000 ∧
      ∀ v, ShortDrains (@shortAfter String id 0 [.sample ⟨840000, {}, none⟩]) v := by
  refine drains_of_drainable id 0 _ _ 900000 ⟨fun s hs _ => ?_, fun pre hpre => ?_⟩ rfl (by decide)
    ⟨fun t _ _ => by decide, fun s hs hold => ?_⟩ fun x hx => ?_
  · obtain rfl : s = LongOperator.sampleAt 840000 := by simpa using hs
    decide
  · have hmem : LongInput.fire ∈ pre ++ [.fire] := List.mem_concat_self
    exact absurd (hpre.subset hmem) (by simp)
  · obtain rfl := List.mem_singleton.mp (show s ∈ [LongOperator.sampleAt 840000] from hs)
    exact absurd hold (by decide)
  · obtain rfl : x = ⟨840000, {}, none⟩ := by simpa using hx
    decide

namespace LongOperator

/-- What the boundary after `Long.MAX_VALUE` overflows to. -/
def overflowed : ℤ := -9223372036854651616

/-- The only timer is due at `Long.MAX_VALUE`, and registers the overflowed one. -/
structure Stuck (p : LongOperator) : Prop where
  draining : p.draining = true
  watermark : p.watermark = maxLong
  timer : ∃ t ≤ maxLong, p.timers.times = [t] ∧
    LongDiagnosticsProcessFunction.nextTimer t maxLong = overflowed

theorem Stuck.fire {p : LongOperator} (h : Stuck p) : Stuck (p.step .fire).1 := by
  obtain ⟨t, hle, htimes, hnext⟩ := h.timer
  rw [step, if_pos h.draining, h.watermark]
  split
  · rename_i hnone
    have hlt := Timers.lt_of_pop_none hnone t (htimes ▸ List.mem_cons_self)
    exact absurd hle (not_le.mpr hlt)
  · rename_i u rest hpop
    obtain ⟨-, -, hrest⟩ := Timers.pop_some hpop
    obtain ⟨rfl, hnil⟩ := List.cons.inj (htimes.symm.trans hrest)
    refine ⟨h.draining, rfl, overflowed, by decide, ?_, by decide⟩
    change Timers.insertTime (LongDiagnosticsProcessFunction.nextTimer t maxLong) rest.times = _
    rw [hnext, ← hnil]
    rfl

/-- At `Long.MAX_VALUE`, where a bounded stream ends, the timer of a loop registers itself again and
again. -/
theorem drained_forever : ¬ ∀ (inputs : List LongInput) (w : ℤ),
    (after inputs).draining = false → (after inputs).watermark ≤ w → w ≤ maxLong →
      (after inputs).Drains w := by
  intro h
  have hstuck : ∀ n, Stuck ((after [.element (sampleAt 0)]).drained maxLong n) := by
    intro n
    induction n with
    | zero =>
      rw [drained_zero rfl (by decide)]
      exact ⟨rfl, rfl, 900000, by decide, rfl, by decide⟩
    | succ n ih =>
      rw [drained_succ]
      exact ih.fire
  obtain ⟨n, hn⟩ := (h [.element (sampleAt 0)] maxLong rfl (by decide) le_rfl).finite
  exact absurd ((hstuck n).draining.symm.trans hn) (by simp)

end LongOperator

end OpenBridge.LongWindow
