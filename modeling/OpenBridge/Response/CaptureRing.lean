import OpenBridge.Response.ResponseCapture

/-!
# Response: the ring of a capture

What the ring holds after any run: samples since the last gap, in the order of their times and close
together.
-/

namespace OpenBridge.Response

open OpenBridge.Foundation

/-- The times of the samples since the last source gap, told from what was fed alone. -/
structure SourceSupport where
  lastTs : Option ℚ := none
  lastVpMapped : Option Bool := none
  times : List ℚ := []

namespace SourceSupport

/-- A sample that is not later than the last one is no support, and a gap starts it anew. -/
def feed (maxGapS : ℚ) (f : SourceSupport) : CaptureInput → SourceSupport
  | .health _ _ => f
  | .sample s vpUsable =>
      let tS : ℚ := s.eventTsMs / 1000
      let mapped := ResponseCapture.vpMapped s vpUsable
      if f.lastTs.any (fun last => decide (tS ≤ last)) then f
      else if f.lastTs.any (fun last => decide (maxGapS < tS - last)) ||
          f.lastVpMapped.any (· != mapped) then ⟨some tS, some mapped, [tS]⟩
      else ⟨some tS, some mapped, f.times ++ [tS]⟩

def after (maxGapS : ℚ) (inputs : List CaptureInput) : SourceSupport :=
  inputs.foldl (feed maxGapS) {}

@[simp] theorem after_concat (maxGapS : ℚ) (inputs : List CaptureInput) (i : CaptureInput) :
    after maxGapS (inputs ++ [i]) = feed maxGapS (after maxGapS inputs) i :=
  List.foldl_concat ..

end SourceSupport

namespace ResponseCapture

variable {c c' : ResponseCapture}

/-! ## What leaves the ring alone -/

/-- Two states of a capture with the same ring, settings and memory of the feed. -/
structure SameFeed (c c' : ResponseCapture) : Prop where
  cfg : c'.cfg = c.cfg
  ring : c'.ring = c.ring
  lastTs : c'.lastTs = c.lastTs
  lastVpUsable : c'.lastVpUsable = c.lastVpUsable

theorem SameFeed.refl (c : ResponseCapture) : SameFeed c c := ⟨rfl, rfl, rfl, rfl⟩

theorem SameFeed.trans {c₁ c₂ c₃ : ResponseCapture} (h : SameFeed c₁ c₂) (h' : SameFeed c₂ c₃) :
    SameFeed c₁ c₃ :=
  ⟨h'.cfg.trans h.cfg, h'.ring.trans h.ring, h'.lastTs.trans h.lastTs,
    h'.lastVpUsable.trans h.lastVpUsable⟩

theorem sameFeed_close (c : ResponseCapture) (e : ResponseEvent) : SameFeed c (c.close e).1 := by
  unfold close
  split
  · exact .refl c
  · split
    · exact .refl c
    · dsimp only
      split <;> exact ⟨rfl, rfl, rfl, rfl⟩

theorem sameFeed_closeLast (c : ResponseCapture) : SameFeed c c.closeLast.1 := by
  unfold closeLast
  split
  · exact .refl c
  · exact sameFeed_close c _

theorem sameFeed_closeSuperseded (c : ResponseCapture) : SameFeed c c.closeSuperseded.1 := by
  unfold closeSuperseded
  split
  · exact .refl c
  · exact sameFeed_close c _

theorem sameFeed_machine (c : ResponseCapture) (m : CaptureStateMachine) :
    SameFeed c { c with machine := m } := ⟨rfl, rfl, rfl, rfl⟩

theorem sameFeed_segment (c : ResponseCapture) (gap auto : Bool) (tS : ℚ) :
    SameFeed c (c.segment gap auto tS).1 := by
  unfold segment
  split
  · exact .refl c
  · split
    · exact (sameFeed_machine c _).trans (sameFeed_closeLast _)
    · split
      · exact (sameFeed_machine c _).trans (sameFeed_closeLast _)
      · exact .refl c

theorem sameFeed_detect (c : ResponseCapture) (vpMapped : Bool) (nowS : ℚ) :
    SameFeed c (c.detect vpMapped nowS) := by
  unfold detect
  split
  · exact .refl c
  · exact ⟨rfl, rfl, rfl, rfl⟩

theorem sameFeed_supersedeOnChange (c : ResponseCapture) (sp uApplied nowS : ℚ) (vpMapped : Bool) :
    SameFeed c (c.supersedeOnChange sp uApplied nowS vpMapped).1 := by
  unfold supersedeOnChange
  split
  · exact .refl c
  · dsimp only
    split
    · exact .refl c
    · split
      · exact ⟨rfl, rfl, rfl, rfl⟩
      · split
        · exact ⟨rfl, rfl, rfl, rfl⟩
        · split
          · exact ⟨rfl, rfl, rfl, rfl⟩
          · split
            · exact .refl c
            · exact ⟨rfl, rfl, rfl, rfl⟩

theorem sameFeed_finish (c : ResponseCapture) (nowS : ℚ) : SameFeed c (c.finish nowS).1 := by
  unfold finish
  dsimp only
  split
  · exact (sameFeed_machine c _).trans (sameFeed_closeLast _)
  · split
    · split
      · exact (sameFeed_machine c _).trans (sameFeed_closeLast _)
      · exact (sameFeed_machine c _).trans (sameFeed_closeLast _)
    · exact sameFeed_machine c _

theorem sameFeed_changed (c : ResponseCapture) (vpMapped : Bool) (row : Row) :
    SameFeed c (c.changed vpMapped row).1 := by
  unfold changed
  split
  · exact sameFeed_supersedeOnChange c _ _ _ _
  · exact .refl c

theorem sameFeed_observe (c : ResponseCapture) (vpMapped : Bool) (row : Row) :
    SameFeed c (c.observe vpMapped row).1 := by
  unfold observe
  dsimp only
  refine .trans ?_ (sameFeed_finish _ row.tS)
  split
  · exact (sameFeed_changed c vpMapped row).trans (sameFeed_closeSuperseded _)
  · exact sameFeed_changed c vpMapped row

theorem sameFeed_examine (c : ResponseCapture) (vpMapped : Bool) (row : Row) :
    SameFeed c (c.examine vpMapped row).1 := by
  unfold examine
  split
  · exact .refl c
  · split
    · dsimp only
      split
      · exact sameFeed_detect c vpMapped row.tS
      · exact .refl c
    · exact sameFeed_observe c vpMapped row

theorem sameFeed_onHealth (c : ResponseCapture) (ineligible : Bool) (atS : ℚ) :
    SameFeed c (c.onHealth ineligible atS).1 := by
  unfold onHealth
  dsimp only
  split
  · have hcensored : SameFeed c { c with
        healthIneligible := ineligible, machine := c.machine.onHealthIneligible atS } :=
      ⟨rfl, rfl, rfl, rfl⟩
    exact hcensored.trans (sameFeed_closeLast _)
  · exact ⟨rfl, rfl, rfl, rfl⟩

theorem sameFeed_dropped (c : ResponseCapture) (tS : ℚ) : SameFeed c (c.dropped tS) := by
  unfold dropped
  split <;> exact ⟨rfl, rfl, rfl, rfl⟩

/-! ## The ring and the support -/

structure RingSound (cfg : ResponseJobConfig) (c : ResponseCapture) (f : SourceSupport) : Prop where
  cfg_eq : c.cfg = cfg
  lastTs : f.lastTs = c.lastTs
  lastVpMapped : f.lastVpMapped = c.lastVpUsable
  spaced : Spaced Row.tS cfg.maxGapS c.ring
  newest : ∀ row ∈ c.ring.getLast?, c.lastTs = some row.tS
  kept : ∀ row ∈ c.ring, row.tS ∈ f.times
  upto : ∀ t ∈ f.times, ∃ last ∈ c.lastTs, t ≤ last
  whole : ∀ t ∈ f.times, ∃ n : ℤ, t * 1000 = n

variable {cfg : ResponseJobConfig} {f : SourceSupport}

theorem ringSound_create (cfg : ResponseJobConfig) : RingSound cfg (create cfg) {} where
  cfg_eq := rfl
  lastTs := rfl
  lastVpMapped := rfl
  spaced := List.isChain_nil
  newest := by simp [create]
  kept := by simp [create]
  upto := by simp
  whole := by simp

theorem RingSound.of_sameFeed (h : RingSound cfg c f) (hs : SameFeed c c') : RingSound cfg c' f where
  cfg_eq := hs.cfg.trans h.cfg_eq
  lastTs := h.lastTs.trans hs.lastTs.symm
  lastVpMapped := h.lastVpMapped.trans hs.lastVpUsable.symm
  spaced := hs.ring ▸ h.spaced
  newest := by rw [hs.ring, hs.lastTs]; exact h.newest
  kept := by rw [hs.ring]; exact h.kept
  upto := by rw [hs.lastTs]; exact h.upto
  whole := h.whole

theorem evict_suffix (c : ResponseCapture) (nowS : ℚ) (ring : List Row) :
    c.evict nowS ring <:+ ring := List.dropWhile_suffix _

theorem eq_of_mem_getLast?_suffix {rows older : List Row} {row last : Row}
    (h : rows <:+ older ++ [row]) (hlast : last ∈ rows.getLast?) : last = row := by
  obtain ⟨init, rfl⟩ := List.getLast?_eq_some_iff.mp hlast
  obtain ⟨before, heq⟩ := h
  rw [← List.append_assoc] at heq
  exact List.singleton_inj.mp (List.append_inj' heq rfl).2

theorem RingSound.joined (h : RingSound cfg c f) {row : Row} (mapped : Bool)
    (hwhole : ∃ n : ℤ, row.tS * 1000 = n) (hlater : ∀ last ∈ c.lastTs, last < row.tS) :
    RingSound cfg (c.joined (c.gapBefore row.tS mapped) mapped row)
      ⟨some row.tS, some mapped,
        (if c.gapBefore row.tS mapped then [] else f.times) ++ [row.tS]⟩ := by
  have hring : Spaced Row.tS cfg.maxGapS
      ((if c.gapBefore row.tS mapped then [] else c.ring) ++ [row]) := by
    split
    · exact List.isChain_singleton _
    · rename_i hgap
      refine h.spaced.concat fun last hlast => ?_
      have hts := h.newest last hlast
      rw [gapBefore, Bool.or_eq_true, not_or, hts, h.cfg_eq] at hgap
      exact ⟨hlater _ hts, by simpa using hgap.1⟩
  have hsuffix := evict_suffix c row.tS
    ((if c.gapBefore row.tS mapped then [] else c.ring) ++ [row])
  refine ⟨h.cfg_eq, rfl, rfl, hring.suffix hsuffix, ?_, ?_, ?_, ?_⟩
  · intro last hlast
    rw [eq_of_mem_getLast?_suffix hsuffix hlast]
    rfl
  · intro r hr
    have hr := hsuffix.subset hr
    rcases List.mem_append.mp hr with hr | hr
    · refine List.mem_append_left _ ?_
      split
      · rename_i hgap
        rw [if_pos hgap] at hr
        cases hr
      · rename_i hgap
        rw [if_neg hgap] at hr
        exact h.kept r hr
    · rw [List.mem_singleton.mp hr]
      exact List.mem_append_right _ (List.mem_singleton_self _)
  · intro t ht
    refine ⟨row.tS, rfl, ?_⟩
    rcases List.mem_append.mp ht with ht | ht
    · split at ht
      · cases ht
      · obtain ⟨last, hlast, hle⟩ := h.upto t ht
        exact hle.trans (hlater last hlast).le
    · exact (List.mem_singleton.mp ht).le
  · intro t ht
    rcases List.mem_append.mp ht with ht | ht
    · split at ht
      · cases ht
      · exact h.whole t ht
    · rw [List.mem_singleton.mp ht]
      exact hwhole

/-! ## One sample -/

def taken (c : ResponseCapture) (s : ResponseSample) (vpUsable : Bool) : Bool :=
  !c.lastTs.any fun last => decide ((row s vpUsable).tS ≤ last)

def gap (c : ResponseCapture) (s : ResponseSample) (vpUsable : Bool) : Bool :=
  c.gapBefore (row s vpUsable).tS (vpMapped s vpUsable)

def segmented (c : ResponseCapture) (s : ResponseSample) (vpUsable : Bool) :
    ResponseCapture × List Closed :=
  c.segment (c.gap s vpUsable) s.isAutoMode (row s vpUsable).tS

def admitted (c : ResponseCapture) (s : ResponseSample) (vpUsable : Bool) : ResponseCapture :=
  (c.segmented s vpUsable).1.joined (c.gap s vpUsable) (vpMapped s vpUsable) (row s vpUsable)

theorem onSample_of_not_taken {s : ResponseSample} {vpUsable : Bool}
    (h : c.taken s vpUsable = false) :
    c.onSample s vpUsable = (c.dropped (row s vpUsable).tS, []) := by
  rw [taken, Bool.not_eq_false'] at h
  rw [onSample]
  dsimp only
  rw [if_pos h]

theorem onSample_of_taken {s : ResponseSample} {vpUsable : Bool} (h : c.taken s vpUsable = true) :
    c.onSample s vpUsable =
      (((c.admitted s vpUsable).examine (vpMapped s vpUsable) (row s vpUsable)).1,
        (c.segmented s vpUsable).2 ++
          ((c.admitted s vpUsable).examine (vpMapped s vpUsable) (row s vpUsable)).2) := by
  rw [taken, Bool.not_eq_true', ← Bool.not_eq_true] at h
  rw [onSample]
  dsimp only
  rw [if_neg h]
  rfl

theorem lt_of_taken {s : ResponseSample} {vpUsable : Bool} (h : c.taken s vpUsable = true) :
    ∀ last ∈ c.lastTs, last < (row s vpUsable).tS := by
  intro last hlast
  rw [taken, Option.mem_def.mp hlast] at h
  simpa using h

theorem gapBefore_of_sameFeed (hs : SameFeed c c') (tS : ℚ) (mapped : Bool) :
    c'.gapBefore tS mapped = c.gapBefore tS mapped := by
  rw [gapBefore, gapBefore, hs.lastTs, hs.lastVpUsable, hs.cfg]

theorem row_tS (s : ResponseSample) (vpUsable : Bool) :
    (row s vpUsable).tS = (s.eventTsMs : ℚ) / 1000 := rfl

theorem row_whole (s : ResponseSample) (vpUsable : Bool) :
    ∃ n : ℤ, (row s vpUsable).tS * 1000 = n :=
  ⟨s.eventTsMs, div_mul_cancel₀ _ (by norm_num)⟩

theorem RingSound.feed_of_taken (h : RingSound cfg c f) {s : ResponseSample} {vpUsable : Bool}
    (htaken : c.taken s vpUsable = true) :
    f.feed cfg.maxGapS (.sample s vpUsable) =
      ⟨some (row s vpUsable).tS, some (vpMapped s vpUsable),
        (if c.gap s vpUsable then [] else f.times) ++ [(row s vpUsable).tS]⟩ := by
  rw [taken, Bool.not_eq_true', ← Bool.not_eq_true] at htaken
  rw [row_tS] at htaken
  unfold gap gapBefore
  unfold SourceSupport.feed
  dsimp only
  rw [h.lastTs, h.lastVpMapped, h.cfg_eq, if_neg htaken, row_tS]
  split <;> rfl

theorem RingSound.feed_of_not_taken (h : RingSound cfg c f) {s : ResponseSample} {vpUsable : Bool}
    (htaken : c.taken s vpUsable = false) : f.feed cfg.maxGapS (.sample s vpUsable) = f := by
  rw [taken, Bool.not_eq_false'] at htaken
  unfold SourceSupport.feed
  dsimp only
  rw [h.lastTs]
  exact if_pos htaken

theorem RingSound.admitted (h : RingSound cfg c f) {s : ResponseSample} {vpUsable : Bool}
    (htaken : c.taken s vpUsable = true) :
    RingSound cfg (c.admitted s vpUsable) (f.feed cfg.maxGapS (.sample s vpUsable)) := by
  have hs : SameFeed c (c.segmented s vpUsable).1 := sameFeed_segment c _ _ _
  have hgap := gapBefore_of_sameFeed hs (row s vpUsable).tS (vpMapped s vpUsable)
  have hadmit := (h.of_sameFeed hs).joined (vpMapped s vpUsable) (row_whole s vpUsable)
    (by rw [hs.lastTs]; exact lt_of_taken htaken)
  rw [hgap] at hadmit
  rw [h.feed_of_taken htaken]
  exact hadmit

theorem RingSound.step (h : RingSound cfg c f) (i : CaptureInput) :
    RingSound cfg (c.step i).1 (f.feed cfg.maxGapS i) := by
  cases i with
  | health ineligible atS => exact h.of_sameFeed (sameFeed_onHealth c ineligible atS)
  | sample s vpUsable =>
    rw [ResponseCapture.step]
    cases htaken : c.taken s vpUsable with
    | false =>
      rw [onSample_of_not_taken htaken, h.feed_of_not_taken htaken]
      exact h.of_sameFeed (sameFeed_dropped c _)
    | true =>
      rw [onSample_of_taken htaken]
      exact (h.admitted htaken).of_sameFeed (sameFeed_examine _ _ _)

def after (cfg : ResponseJobConfig) (inputs : List CaptureInput) : ResponseCapture :=
  Machine.stateAfter ResponseCapture.step (create cfg) inputs

def handedOut (cfg : ResponseJobConfig) (inputs : List CaptureInput) : List Closed :=
  Machine.outputs ResponseCapture.step (create cfg) inputs

theorem after_concat (cfg : ResponseJobConfig) (inputs : List CaptureInput) (i : CaptureInput) :
    after cfg (inputs ++ [i]) = ((after cfg inputs).step i).1 := Machine.stateAfter_concat ..

theorem handedOut_concat (cfg : ResponseJobConfig) (inputs : List CaptureInput) (i : CaptureInput) :
    handedOut cfg (inputs ++ [i]) = handedOut cfg inputs ++ ((after cfg inputs).step i).2 :=
  Machine.outputs_concat ..

theorem ringSound_after (cfg : ResponseJobConfig) (inputs : List CaptureInput) :
    RingSound cfg (after cfg inputs) (SourceSupport.after cfg.maxGapS inputs) := by
  refine Machine.history_invariant
    (fun pre c => RingSound cfg c (SourceSupport.after cfg.maxGapS pre)) (ringSound_create cfg)
    (fun pre i h => ?_) inputs
  rw [SourceSupport.after_concat]
  exact h.step i

/-! ## The rows of a bundle -/

theorem RingSound.bundleRows_eq (h : RingSound cfg c f) (start stop : ℚ) :
    bundleRows c.ring start stop =
      c.ring.filter fun row => decide (start ≤ row.tS ∧ row.tS ≤ stop) :=
  advancing_eq_self (h.spaced.pairwise.filter _) (by simp)

theorem RingSound.spaced_bundle (h : RingSound cfg c f) (e : ResponseEvent) (tEnd : ℚ) :
    Spaced DataPoint.t cfg.maxGapS (c.bundle e tEnd).data.points := by
  unfold bundle
  dsimp only
  rw [h.bundleRows_eq]
  unfold Spaced
  rw [List.isChain_map]
  exact h.spaced.window _ _

theorem mem_of_mem_advancing {start : Option ℚ} {rows : List Row} {row : Row}
    (h : row ∈ advancing start rows) : row ∈ rows := by
  induction rows generalizing start with
  | nil => exact h
  | cons r rest ih =>
    rw [advancing] at h
    split at h
    · rcases List.mem_cons.mp h with rfl | h
      · exact List.mem_cons_self
      · exact List.mem_cons_of_mem _ (ih h)
    · exact List.mem_cons_of_mem _ (ih h)

theorem mem_bundle_points {e : ResponseEvent} {tEnd : ℚ} {p : DataPoint}
    (h : p ∈ (c.bundle e tEnd).data.points) :
    ∃ row ∈ c.ring, row.point = p ∧ e.t0 - c.cfg.preSupportS ≤ p.t ∧ p.t ≤ tEnd := by
  obtain ⟨row, hrow, rfl⟩ := List.mem_map.mp h
  obtain ⟨hmem, hin⟩ := List.mem_filter.mp (mem_of_mem_advancing hrow)
  exact ⟨row, hmem, rfl, of_decide_eq_true hin⟩

end ResponseCapture

end OpenBridge.Response
