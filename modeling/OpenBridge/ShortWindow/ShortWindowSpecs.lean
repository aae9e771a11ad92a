import Mathlib.Data.Int.ModEq
import OpenBridge.Foundation.Double

/-!
# Short windows: the six kinds

`ShortWindowSpecs`: size, slide and allowed lateness of the six window kinds, and the event-time
arithmetic of the platform for them.  Times are `long`s far from the ends of their range.
-/

namespace OpenBridge.ShortWindow

open OpenBridge.Foundation

/-- `MINUTE_MS`. -/
def minuteMs : ℤ := 60000

/-- One window kind, in milliseconds.  Windows start and end on the slide, and the slide is of whole
minutes. -/
structure Spec where
  kind : String
  sizeMs : ℤ
  slideMs : ℤ
  latenessMs : ℤ
  slide_pos : 0 < slideMs := by decide
  slide_dvd_size : slideMs ∣ sizeMs := by decide
  minute_dvd_slide : minuteMs ∣ slideMs := by decide
  size_pos : 0 < sizeMs := by decide
  lateness_pos : 0 < latenessMs := by decide
  deriving DecidableEq

namespace Spec

variable (spec : Spec) {ts e : ℤ}

/-- `TimeWindow.getWindowStartWithOffset(ts, 0, slide)`. -/
def lastStart (ts : ℤ) : ℤ := ts - Int.tmod (ts + spec.slideMs) spec.slideMs

/-- Whether a window that ends at `e` exists for this kind. -/
def endsAt (e : ℤ) : Bool := Int.fmod (e - spec.sizeMs) spec.slideMs = 0

/-- The time at which the window that ends at `e` is cleared. -/
def cleanupTime (e : ℤ) : ℤ := e - 1 + spec.latenessMs

/-- The loop over the windows of a sample: the ends of those that start at `start` or before. -/
def endsFrom (ts start : ℤ) : List ℤ :=
  if ts - spec.sizeMs < start then
    (start + spec.sizeMs) :: endsFrom ts (start - spec.slideMs)
  else []
termination_by (start - (ts - spec.sizeMs)).toNat
decreasing_by
  have := spec.slide_pos
  omega

def windowEnds (ts : ℤ) : List ℤ := spec.endsFrom ts (spec.lastStart ts)

/-- The window that ends at `e` covers the time. -/
def Covers (e ts : ℤ) : Prop := e - spec.sizeMs ≤ ts ∧ ts < e

instance : Decidable (spec.Covers e ts) := inferInstanceAs (Decidable (_ ∧ _))

theorem endsAt_iff : spec.endsAt e = true ↔ spec.slideMs ∣ e := by
  rw [endsAt, decide_eq_true_eq, ← Int.dvd_iff_fmod_eq_zero]
  exact dvd_sub_left spec.slide_dvd_size

theorem lastStart_eq (hts : 0 ≤ ts) : spec.lastStart ts = ts - ts % spec.slideMs := by
  have hslide := spec.slide_pos
  rw [lastStart, Int.tmod_eq_emod_of_nonneg (by omega), Int.add_emod_right]

theorem lastStart_le (hts : 0 ≤ ts) : spec.lastStart ts ≤ ts := by
  have hmod := Int.emod_nonneg ts (ne_of_gt spec.slide_pos)
  rw [spec.lastStart_eq hts]
  omega

theorem lt_lastStart_add (hts : 0 ≤ ts) : ts < spec.lastStart ts + spec.slideMs := by
  have hmod := Int.emod_lt_of_pos ts spec.slide_pos
  rw [spec.lastStart_eq hts]
  omega

theorem slide_dvd_lastStart (hts : 0 ≤ ts) : spec.slideMs ∣ spec.lastStart ts := by
  rw [spec.lastStart_eq hts]
  exact Int.dvd_self_sub_emod

theorem le_lastStart {start : ℤ} (hts : 0 ≤ ts) (hdvd : spec.slideMs ∣ start) (hle : start ≤ ts) :
    start ≤ spec.lastStart ts := by
  obtain ⟨a, rfl⟩ := hdvd
  obtain ⟨b, hb⟩ := spec.slide_dvd_lastStart hts
  have hlt := spec.lt_lastStart_add hts
  rw [hb] at hlt ⊢
  have hab : a < b + 1 := by
    by_contra hge
    have hmul := mul_le_mul_of_nonneg_left (not_lt.mp hge) (le_of_lt spec.slide_pos)
    rw [mul_add, mul_one] at hmul
    omega
  exact mul_le_mul_of_nonneg_left (Int.lt_add_one_iff.mp hab) (le_of_lt spec.slide_pos)

theorem mem_endsFrom {start : ℤ} (hstart : spec.slideMs ∣ start) :
    e ∈ spec.endsFrom ts start ↔
      spec.slideMs ∣ e ∧ ts < e ∧ e - spec.sizeMs ≤ start := by
  have hslide := spec.slide_pos
  have hprev : spec.slideMs ∣ start - spec.slideMs := dvd_sub_self_right.mpr hstart
  rw [endsFrom]
  split
  · rename_i hlt
    rw [List.mem_cons, mem_endsFrom hprev]
    constructor
    · rintro (rfl | ⟨hdvd, hts, hle⟩)
      · exact ⟨dvd_add hstart spec.slide_dvd_size, by omega, by omega⟩
      · exact ⟨hdvd, hts, by omega⟩
    · rintro ⟨hdvd, hts, hle⟩
      rcases eq_or_lt_of_le hle with heq | hlt'
      · exact Or.inl (by omega)
      · refine Or.inr ⟨hdvd, hts, ?_⟩
        have hgap : spec.slideMs ∣ start - (e - spec.sizeMs) :=
          dvd_sub hstart (dvd_sub hdvd spec.slide_dvd_size)
        have := Int.le_of_dvd (by omega) hgap
        omega
  · rename_i hge
    constructor
    · intro h
      exact absurd h List.not_mem_nil
    · rintro ⟨-, hts, hle⟩
      omega
termination_by (start - (ts - spec.sizeMs)).toNat

theorem mem_windowEnds (hts : 0 ≤ ts) :
    e ∈ spec.windowEnds ts ↔ spec.endsAt e = true ∧ spec.Covers e ts := by
  rw [windowEnds, mem_endsFrom spec (spec.slide_dvd_lastStart hts), endsAt_iff]
  constructor
  · rintro ⟨hdvd, hlt, hle⟩
    exact ⟨hdvd, le_trans hle (spec.lastStart_le hts), hlt⟩
  · rintro ⟨hdvd, hle, hlt⟩
    exact ⟨hdvd, hlt, spec.le_lastStart hts (dvd_sub hdvd spec.slide_dvd_size) hle⟩

theorem pairwise_endsFrom (ts start : ℤ) : (spec.endsFrom ts start).Pairwise (· > ·) ∧
    ∀ x ∈ spec.endsFrom ts start, x ≤ start + spec.sizeMs := by
  have hslide := spec.slide_pos
  rw [endsFrom]
  split
  · obtain ⟨hpairwise, hle⟩ := pairwise_endsFrom ts (start - spec.slideMs)
    refine ⟨List.pairwise_cons.mpr ⟨fun x hx => ?_, hpairwise⟩, fun x hx => ?_⟩
    · have := hle x hx
      omega
    · rcases List.mem_cons.mp hx with rfl | hx
      · exact le_refl _
      · have := hle x hx
        omega
  · exact ⟨List.Pairwise.nil, fun x hx => absurd hx List.not_mem_nil⟩
termination_by (start - (ts - spec.sizeMs)).toNat

end Spec

namespace ShortWindowSpecs

def oneMinute : Spec where
  kind := "1m"
  sizeMs := minuteMs
  slideMs := minuteMs
  latenessMs := 30000

def fiveMinutes : Spec where
  kind := "5m"
  sizeMs := 5 * minuteMs
  slideMs := minuteMs
  latenessMs := 60000

def tenMinutes : Spec where
  kind := "10m"
  sizeMs := 10 * minuteMs
  slideMs := 2 * minuteMs
  latenessMs := 90000

def fifteenMinutes : Spec where
  kind := "15m"
  sizeMs := 15 * minuteMs
  slideMs := 5 * minuteMs
  latenessMs := 2 * minuteMs

def thirtyMinutes : Spec where
  kind := "30m"
  sizeMs := 30 * minuteMs
  slideMs := 5 * minuteMs
  latenessMs := 2 * minuteMs

def sixtyMinutes : Spec where
  kind := "60m"
  sizeMs := 60 * minuteMs
  slideMs := 5 * minuteMs
  latenessMs := 3 * minuteMs

def all : List Spec :=
  [oneMinute, fiveMinutes, tenMinutes, fifteenMinutes, thirtyMinutes, sixtyMinutes]

/-- The last moment at which a window of a sample at `ts` is alive. -/
def retainUntil (ts : ℤ) : ℤ :=
  all.foldl (fun latest spec => max latest (spec.cleanupTime (spec.lastStart ts + spec.sizeMs))) minLong

theorem le_foldl_max {α : Type} (f : α → ℤ) (xs : List α) (init : ℤ) :
    init ≤ xs.foldl (fun latest x => max latest (f x)) init ∧
      ∀ x ∈ xs, f x ≤ xs.foldl (fun latest x => max latest (f x)) init := by
  induction xs generalizing init with
  | nil => simp
  | cons y rest ih =>
    obtain ⟨hinit, hrest⟩ := ih (max init (f y))
    refine ⟨le_trans (le_max_left _ _) hinit, fun x hx => ?_⟩
    rcases List.mem_cons.mp hx with rfl | hx
    · exact le_trans (le_max_right _ _) hinit
    · exact hrest x hx

end ShortWindowSpecs

/-- `minuteOf`: the start of the minute of a time. -/
def minuteOf (ts : ℤ) : ℤ := Int.fdiv ts minuteMs * minuteMs

theorem minuteOf_eq (ts : ℤ) : minuteOf ts = ts - ts % minuteMs := by
  have h := Int.mul_ediv_add_emod ts minuteMs
  rw [minuteOf, Int.fdiv_eq_ediv_of_nonneg ts (by decide), mul_comm]
  omega

theorem minuteOf_le (ts : ℤ) : minuteOf ts ≤ ts := by
  have h := Int.emod_nonneg ts (show minuteMs ≠ 0 by decide)
  rw [minuteOf_eq]
  omega

theorem lt_minuteOf_add (ts : ℤ) : ts < minuteOf ts + minuteMs := by
  have h := Int.emod_lt_of_pos ts (show 0 < minuteMs by decide)
  rw [minuteOf_eq]
  omega

theorem cleanupTime_le_retainUntil {spec : Spec} {e ts : ℤ} (hspec : spec ∈ ShortWindowSpecs.all)
    (hts : 0 ≤ ts) (hends : spec.endsAt e = true) (hcovers : spec.Covers e ts) :
    spec.cleanupTime e ≤ ShortWindowSpecs.retainUntil (minuteOf ts + minuteMs - 1) := by
  have hminute : ts ≤ minuteOf ts + minuteMs - 1 := Int.le_sub_one_of_lt (lt_minuteOf_add ts)
  have hstart : e - spec.sizeMs ≤ spec.lastStart (minuteOf ts + minuteMs - 1) :=
    spec.le_lastStart (le_trans hts hminute)
      (dvd_sub (spec.endsAt_iff.mp hends) spec.slide_dvd_size) (le_trans hcovers.1 hminute)
  refine le_trans ?_ ((ShortWindowSpecs.le_foldl_max _ ShortWindowSpecs.all _).2 spec hspec)
  simp only [Spec.cleanupTime]
  omega

/-!
# Short windows: the retention of a minute, in words of the machine

The arithmetic of `ShortWindowSpecs` on `long`s, each operation wrapping around.
-/

namespace Spec

variable (spec : Spec) {ts x e : ℤ}

/-- `lastStart`. -/
def lastStartLong (ts : ℤ) : ℤ := wrap64 (ts - Int.tmod (wrap64 (ts + spec.slideMs)) spec.slideMs)

/-- `endsAt`. -/
def endsAtLong (e : ℤ) : Bool := Int.fmod (wrap64 (e - spec.sizeMs)) spec.slideMs = 0

/-- `cleanupTime`. -/
def cleanupTimeLong (e : ℤ) : ℤ := wrap64 (wrap64 (e - 1) + spec.latenessMs)

/-- The ends of the windows of a sample, at a time from zero on: of the loop over the starts, only the
ends can leave the range. -/
def windowEndsLong (ts : ℤ) : List ℤ := (spec.endsFrom ts (spec.lastStartLong ts)).map wrap64

/-- Nothing that is computed for the windows of a time leaves the range of a `long`. -/
structure Fits (ts : ℤ) : Prop where
  nonneg : 0 ≤ ts
  slide : ts + spec.slideMs ≤ maxLong
  cleanup : spec.cleanupTime (spec.lastStart ts + spec.sizeMs) ≤ maxLong

variable {spec}

namespace Fits

theorem of_le (h : spec.Fits ts) (hx : 0 ≤ x) (hle : x ≤ ts) : spec.Fits x where
  nonneg := hx
  slide := le_trans (by omega) h.slide
  cleanup := by
    have hstart : spec.lastStart x ≤ spec.lastStart ts :=
      spec.le_lastStart h.nonneg (spec.slide_dvd_lastStart hx) (le_trans (spec.lastStart_le hx) hle)
    refine le_trans ?_ h.cleanup
    unfold cleanupTime
    omega

theorem lastStartLong_eq (h : spec.Fits ts) : spec.lastStartLong ts = spec.lastStart ts := by
  have hnonneg := h.nonneg
  have hslide := h.slide
  have hpos := spec.slide_pos
  have hmax : maxLong = 2 ^ 63 - 1 := rfl
  have hle := spec.lastStart_le hnonneg
  have hlt := spec.lt_lastStart_add hnonneg
  have hsum : wrap64 (ts + spec.slideMs) = ts + spec.slideMs :=
    wrap64_of_range (by omega) (by omega)
  unfold lastStartLong
  rw [hsum]
  exact wrap64_of_range (n := spec.lastStart ts) (by omega) (by omega)

theorem le_of_mem_windowEnds (h : spec.Fits ts) (he : e ∈ spec.windowEnds ts) :
    0 < e ∧ spec.cleanupTime e ≤ maxLong := by
  obtain ⟨hends, hcovers⟩ := (spec.mem_windowEnds h.nonneg).mp he
  have hnonneg := h.nonneg
  have hle : e - spec.sizeMs ≤ spec.lastStart ts :=
    spec.le_lastStart hnonneg (dvd_sub (spec.endsAt_iff.mp hends) spec.slide_dvd_size) hcovers.1
  refine ⟨lt_of_le_of_lt hnonneg hcovers.2, le_trans ?_ h.cleanup⟩
  unfold cleanupTime
  omega

theorem windowEndsLong_eq (h : spec.Fits ts) : spec.windowEndsLong ts = spec.windowEnds ts := by
  have hpos := spec.lateness_pos
  have hmax : maxLong = 2 ^ 63 - 1 := rfl
  unfold windowEndsLong
  rw [h.lastStartLong_eq]
  refine (List.map_congr_left fun e he => ?_).trans (List.map_id _)
  obtain ⟨hlow, hhigh⟩ := h.le_of_mem_windowEnds he
  unfold cleanupTime at hhigh
  exact wrap64_of_range (by omega) (by omega)

theorem cleanupTimeLong_eq (hlow : 0 < e) (hhigh : spec.cleanupTime e ≤ maxLong) :
    spec.cleanupTimeLong e = spec.cleanupTime e := by
  have hpos := spec.lateness_pos
  have hmax : maxLong = 2 ^ 63 - 1 := rfl
  unfold cleanupTime at hhigh ⊢
  unfold cleanupTimeLong
  have hlast : wrap64 (e - 1) = e - 1 := wrap64_of_range (by omega) (by omega)
  rw [hlast]
  exact wrap64_of_range (by omega) (by omega)

theorem endsAtLong_eq (h : spec.Fits ts) (hcovers : spec.Covers e ts) :
    spec.endsAtLong e = spec.endsAt e := by
  have hnonneg := h.nonneg
  have hslide := h.slide
  have hpos := spec.slide_pos
  have hlateness := spec.lateness_pos
  have hstart : 0 ≤ spec.lastStart ts := spec.le_lastStart hnonneg (dvd_zero _) hnonneg
  have hcleanup := h.cleanup
  have hmax : maxLong = 2 ^ 63 - 1 := rfl
  obtain ⟨hle, hlt⟩ := hcovers
  unfold cleanupTime at hcleanup
  have hdiff : wrap64 (e - spec.sizeMs) = e - spec.sizeMs :=
    wrap64_of_range (by omega) (by omega)
  unfold endsAtLong endsAt
  rw [hdiff]

end Fits

end Spec

namespace ShortWindowSpecs

/-- `retainUntil`. -/
def retainUntilLong (ts : ℤ) : ℤ :=
  all.foldl (fun latest spec =>
    max latest (spec.cleanupTimeLong (wrap64 (spec.lastStartLong ts + spec.sizeMs)))) minLong

variable {ts x e : ℤ}

theorem fits_of_mem {spec : Spec} (hspec : spec ∈ all) (hts : 0 ≤ ts)
    (h : sixtyMinutes.cleanupTime (sixtyMinutes.lastStart ts + sixtyMinutes.sizeMs) ≤ maxLong) :
    spec.Fits ts := by
  have hsixty := sixtyMinutes.lt_lastStart_add hts
  have hlast := h
  have hmax : maxLong = 9223372036854775807 := rfl
  have hle := spec.lastStart_le hts
  have hmin : minuteMs = 60000 := rfl
  unfold Spec.cleanupTime at h
  simp only [sixtyMinutes] at h hsixty
  have hspan : spec = sixtyMinutes ∨ spec.slideMs ≤ 300000 ∧ spec.sizeMs ≤ 1800000 ∧
      spec.latenessMs ≤ 120000 := by
    simp only [all, List.mem_cons, List.not_mem_nil, or_false] at hspec
    rcases hspec with rfl | rfl | rfl | rfl | rfl | rfl
    · exact .inr (by decide)
    · exact .inr (by decide)
    · exact .inr (by decide)
    · exact .inr (by decide)
    · exact .inr (by decide)
    · exact .inl rfl
  rcases hspan with rfl | ⟨hslide, hsize, hlateness⟩
  · refine ⟨hts, ?_, hlast⟩
    simp only [sixtyMinutes]
    omega
  · refine ⟨hts, by omega, ?_⟩
    unfold Spec.cleanupTime
    omega

theorem retainUntilLong_eq (h : ∀ spec ∈ all, spec.Fits ts) :
    retainUntilLong ts = retainUntil ts := by
  unfold retainUntilLong retainUntil
  refine List.foldl_ext _ _ _ fun latest spec hspec => ?_
  have hfits := h spec hspec
  have hstart : 0 ≤ spec.lastStart ts := spec.le_lastStart hfits.nonneg (dvd_zero _) hfits.nonneg
  have hsize := spec.size_pos
  have hlateness := spec.lateness_pos
  have hcleanup := hfits.cleanup
  have hmax : maxLong = 2 ^ 63 - 1 := rfl
  unfold Spec.cleanupTime at hcleanup
  have hend : wrap64 (spec.lastStart ts + spec.sizeMs) = spec.lastStart ts + spec.sizeMs :=
    wrap64_of_range (by omega) (by omega)
  rw [hfits.lastStartLong_eq, hend, Spec.Fits.cleanupTimeLong_eq (by omega) hfits.cleanup]

/-- What the eviction of a minute relies on: once the retention of the minute is over, every window
that holds a time of the minute is cleaned up. -/
def RetainsMinute (ts : ℤ) : Prop :=
  ∀ t, retainUntilLong (wrap64 (minuteOf ts + minuteMs - 1)) ≤ t →
    ∀ spec ∈ all, ∀ x, minuteOf x = minuteOf ts → ∀ e ∈ spec.windowEndsLong x,
      spec.cleanupTimeLong e ≤ t

/-- What the timers rely on: a window is one of those assigned to a time when it exists and covers
it. -/
def AssignsWindows (ts : ℤ) : Prop :=
  ∀ spec ∈ all, ∀ e, e ∈ spec.windowEndsLong ts ↔ spec.endsAtLong e = true ∧ spec.Covers e ts

/-- Up to the minute whose last window of sixty minutes is cleaned up at the end of the range, the
eviction removes no minute that a window can still fire with. -/
theorem retention_of_fits (hts : 0 ≤ ts)
    (h : sixtyMinutes.cleanupTime
      (sixtyMinutes.lastStart (minuteOf ts + minuteMs - 1) + sixtyMinutes.sizeMs) ≤ maxLong) :
    RetainsMinute ts ∧ AssignsWindows ts := by
  have hlast : ts ≤ minuteOf ts + minuteMs - 1 := Int.le_sub_one_of_lt (lt_minuteOf_add ts)
  have hfits : ∀ spec ∈ all, spec.Fits (minuteOf ts + minuteMs - 1) := fun spec hspec =>
    fits_of_mem hspec (le_trans hts hlast) h
  constructor
  · have hsixty := (hfits sixtyMinutes (by decide)).slide
    have hmax : maxLong = 2 ^ 63 - 1 := rfl
    have hslide : sixtyMinutes.slideMs = 300000 := rfl
    have hwrap : wrap64 (minuteOf ts + minuteMs - 1) = minuteOf ts + minuteMs - 1 :=
      wrap64_of_range (by omega) (by omega)
    intro t ht spec hspec x hx e he
    rw [hwrap, retainUntilLong_eq hfits] at ht
    have hstart : 0 ≤ minuteOf ts := by
      have hminute : minuteMs = 60000 := rfl
      rw [minuteOf_eq, hminute]
      omega
    have hx0 : 0 ≤ x := le_trans (hx ▸ hstart) (minuteOf_le x)
    have hfit : spec.Fits x := (hfits spec hspec).of_le hx0 (by
      have := lt_minuteOf_add x
      omega)
    rw [hfit.windowEndsLong_eq] at he
    obtain ⟨hlow, hhigh⟩ := hfit.le_of_mem_windowEnds he
    obtain ⟨hends, hcovers⟩ := (spec.mem_windowEnds hx0).mp he
    rw [Spec.Fits.cleanupTimeLong_eq hlow hhigh]
    refine le_trans (cleanupTime_le_retainUntil hspec hx0 hends hcovers) ?_
    rwa [hx]
  · intro spec hspec e
    have hfit := (hfits spec hspec).of_le hts hlast
    rw [hfit.windowEndsLong_eq, spec.mem_windowEnds hts]
    constructor
    · rintro ⟨hends, hcovers⟩
      exact ⟨(hfit.endsAtLong_eq hcovers).trans hends, hcovers⟩
    · rintro ⟨hends, hcovers⟩
      exact ⟨(hfit.endsAtLong_eq hcovers).symm.trans hends, hcovers⟩

theorem retention_of_fits_sample :
    RetainsMinute 1700000000000 ∧ AssignsWindows 1700000000000 :=
  retention_of_fits (by decide) (by decide)

/-- In the last hour the retention forgets the windows of sixty minutes that wrap: of this minute they
are read for 26 minutes more than its retention. -/
theorem retention_wraps :
    ¬ ∀ ts, 0 ≤ ts → ts ≤ maxLong → RetainsMinute ts ∧ AssignsWindows ts := by
  intro h
  obtain ⟨hretains, -⟩ := h 9223372036851000000 (by decide) (by decide)
  have hmem : 9223372036854300000 ∈ sixtyMinutes.windowEndsLong 9223372036851000000 := by
    have hstart : sixtyMinutes.lastStartLong 9223372036851000000 = 9223372036851000000 := by decide
    unfold Spec.windowEndsLong
    rw [hstart]
    refine List.mem_map.mpr ⟨9223372036854300000, ?_, by decide⟩
    exact (sixtyMinutes.mem_endsFrom (by decide)).mpr (by decide)
  have hlate := hretains 9223372036852919999 (by decide) sixtyMinutes (by decide) _ rfl _ hmem
  exact absurd hlate (by decide)

end ShortWindowSpecs

end OpenBridge.ShortWindow
