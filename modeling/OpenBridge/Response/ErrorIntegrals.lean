import Mathlib.Algebra.QuadraticDiscriminant
import OpenBridge.Response.ResponseCapture

/-!
# Response metrics: error integrals

`ErrorIntegrals` over the dataset of an event, in exact arithmetic.
-/

namespace OpenBridge.Response

namespace ErrorIntegrals

/-- A round of the loop of `over`, for one of its sums: what `f` gives on the interval `[a, b)` the sample
is held over, clipped to the event, with its error. -/
def held (t0 tEnd : ℚ) (f : ℚ → ℚ → ℚ → ℚ) (p : DataPoint) (next : ℚ) : ℚ :=
  let a := max p.t t0
  let b := min next tEnd
  if b ≤ a ∨ p.valid = false then 0 else f a b (p.r - p.y)

def integral (t0 tEnd : ℚ) (f : ℚ → ℚ → ℚ → ℚ) : List DataPoint → ℚ
  | [] => 0
  | p :: rest =>
      held t0 tEnd f p ((rest.head?.map DataPoint.t).getD tEnd) + integral t0 tEnd f rest

/-- `ErrorIntegrals.Result`. -/
structure Result where
  iae : ℚ
  ise : ℚ
  itae : ℚ
  validDuration : ℚ
  excludedDuration : ℚ
  coverage : ℚ

def absolute (a b e : ℚ) : ℚ := |e| * (b - a)

def squared (a b e : ℚ) : ℚ := e * e * (b - a)

def timed (t0 a b e : ℚ) : ℚ :=
  1 / 2 * |e| * ((b - t0) * (b - t0) - (a - t0) * (a - t0))

def duration (a b _e : ℚ) : ℚ := b - a

/-- `over`, a word Mathlib reserves. -/
def overEvent (d : EventDataset) : Result :=
  let dur := integral d.t0 d.tEnd duration d.points
  let elapsed := max 0 (d.tEnd - d.t0)
  { iae := integral d.t0 d.tEnd absolute d.points
    ise := integral d.t0 d.tEnd squared d.points
    itae := integral d.t0 d.tEnd (timed d.t0) d.points
    validDuration := dur
    excludedDuration := max 0 (elapsed - dur)
    coverage := if 0 < elapsed then dur / elapsed else 0 }

/-! ## Sums over held intervals -/

variable {t0 tEnd m c next : ℚ} {f g : ℚ → ℚ → ℚ → ℚ} {p : DataPoint} {points : List DataPoint}

theorem integral_mono (h : ∀ a b e, t0 ≤ a → a < b → b ≤ tEnd → f a b e ≤ g a b e) :
    integral t0 tEnd f points ≤ integral t0 tEnd g points := by
  induction points with
  | nil => exact le_rfl
  | cons p rest ih =>
    refine add_le_add ?_ ih
    unfold held
    dsimp only
    split
    · exact le_rfl
    · rename_i hheld
      exact h _ _ _ (le_max_right _ _) (not_le.mp fun hle => hheld (.inl hle)) (min_le_right _ _)

theorem integral_congr (h : ∀ a b e, t0 ≤ a → a < b → b ≤ tEnd → f a b e = g a b e) :
    integral t0 tEnd f points = integral t0 tEnd g points :=
  le_antisymm (integral_mono fun a b e ha hab hb => (h a b e ha hab hb).le)
    (integral_mono fun a b e ha hab hb => (h a b e ha hab hb).ge)

theorem integral_add : integral t0 tEnd (fun a b e => f a b e + g a b e) points =
    integral t0 tEnd f points + integral t0 tEnd g points := by
  induction points with
  | nil => exact (add_zero 0).symm
  | cons p rest ih =>
    simp only [integral, ih, held]
    split <;> ring

theorem integral_mul : integral t0 tEnd (fun a b e => c * f a b e) points =
    c * integral t0 tEnd f points := by
  induction points with
  | nil => exact (mul_zero c).symm
  | cons p rest ih =>
    simp only [integral, ih, held]
    split <;> ring

theorem integral_nonneg (h : ∀ a b e, t0 ≤ a → a < b → b ≤ tEnd → 0 ≤ f a b e) :
    0 ≤ integral t0 tEnd f points := by
  have hzero : integral t0 tEnd (fun a b e => 0 * f a b e) points = 0 :=
    integral_mul.trans (zero_mul _)
  exact hzero ▸ integral_mono fun a b e ha hab hb => (zero_mul _).trans_le (h a b e ha hab hb)

theorem held_duration_le : held t0 tEnd duration p next ≤ max 0 (min next tEnd - max p.t t0) := by
  unfold held
  dsimp only
  split
  · exact le_max_left _ _
  · exact le_max_right _ _

/-- The held intervals of an event do not overlap. -/
theorem integral_duration_le (h : (p :: points).Pairwise fun a b => a.t < b.t) :
    integral t0 tEnd duration (p :: points) ≤ max 0 (tEnd - max p.t t0) := by
  induction points generalizing p with
  | nil =>
    refine (add_zero _).trans_le (held_duration_le.trans_eq ?_)
    exact congrArg (fun b => max 0 (b - max p.t t0)) (min_self tEnd)
  | cons q rest ih =>
    obtain ⟨hpq, h⟩ := List.pairwise_cons.mp h
    have hpq := hpq q List.mem_cons_self
    calc integral t0 tEnd duration (p :: q :: rest)
        ≤ max 0 (min q.t tEnd - max p.t t0) + max 0 (tEnd - max q.t t0) :=
          add_le_add held_duration_le (ih h)
      _ ≤ max 0 (tEnd - max p.t t0) := by
          grind

theorem held_split (h0 : t0 ≤ m) (hEnd : m ≤ tEnd)
    (hf : ∀ a b e, a < m → m < b → f a m e + f m b e = f a b e) :
    held t0 m f p next + held m tEnd f p next = held t0 tEnd f p next := by
  unfold held
  have hstart : max p.t m = max (max p.t t0) m := by rw [max_assoc, max_eq_right h0]
  have hend : min next m = min (min next tEnd) m := by rw [min_assoc, min_eq_right hEnd]
  rw [hstart, hend]
  generalize max p.t t0 = a
  generalize min next tEnd = b
  dsimp only
  cases p.valid with
  | false => simp only [or_true, if_true, add_zero]
  | true =>
    simp only [Bool.true_eq_false, or_false]
    rcases le_or_gt b m with hbm | hmb
    · -- the sample is not held past the cut
      rw [min_eq_left hbm, if_pos (hbm.trans (le_max_right a m)), add_zero]
    · rw [min_eq_right hmb.le]
      rcases le_or_gt m a with hma | ham
      · -- nor from before it
        rw [if_pos hma, zero_add, max_eq_left hma]
      · rw [max_eq_right ham.le, if_neg (not_le.mpr ham), if_neg (not_le.mpr hmb),
          if_neg (not_le.mpr (ham.trans hmb)), hf a b _ ham hmb]

/-- A sum that adds up where an interval is cut is that of the event before the cut and of the event
after it. -/
theorem integral_split (h0 : t0 ≤ m) (hEnd : m ≤ tEnd)
    (hf : ∀ a b e, a < m → m < b → f a m e + f m b e = f a b e) :
    integral t0 m f points + integral m tEnd f points = integral t0 tEnd f points := by
  induction points with
  | nil => exact add_zero 0
  | cons p rest ih =>
    have hlast : held t0 m f p ((rest.head?.map DataPoint.t).getD m) =
        held t0 m f p ((rest.head?.map DataPoint.t).getD tEnd) := by
      cases rest with
      | nil =>
        unfold held
        rw [List.head?_nil, Option.map_none, Option.getD_none, Option.getD_none, min_self,
          min_eq_right hEnd]
      | cons q rest => rfl
    rw [integral, integral, integral, hlast, ← ih, ← held_split h0 hEnd hf]
    ring

/-- The durations, the absolute errors and their squares make up a quadratic without two roots. -/
theorem absolute_sq_le :
    integral t0 tEnd absolute points * integral t0 tEnd absolute points ≤
      integral t0 tEnd duration points * integral t0 tEnd squared points := by
  have hquadratic : ∀ c, 0 ≤ integral t0 tEnd duration points * (c * c) +
      -2 * integral t0 tEnd absolute points * c + integral t0 tEnd squared points := by
    intro c
    have hsum : integral t0 tEnd (fun a b e => (c * c * duration a b e + -2 * c * absolute a b e) +
        squared a b e) points = c * c * integral t0 tEnd duration points +
          -2 * c * integral t0 tEnd absolute points + integral t0 tEnd squared points := by
      rw [integral_add, integral_add, integral_mul, integral_mul]
    have hnonneg : 0 ≤ integral t0 tEnd (fun a b e =>
        (c * c * duration a b e + -2 * c * absolute a b e) + squared a b e) points := by
      refine integral_nonneg fun a b e _ hab _ => ?_
      have hsquare : c * c * duration a b e + -2 * c * absolute a b e + squared a b e =
          (c - |e|) ^ 2 * (b - a) := by
        rw [duration, absolute, squared, ← abs_mul_abs_self e]
        ring
      exact hsquare ▸ mul_nonneg (sq_nonneg _) (sub_nonneg.mpr hab.le)
    rw [hsum] at hnonneg
    linarith
  have hdiscrim := discrim_le_zero hquadratic
  rw [discrim] at hdiscrim
  linarith

variable (d : EventDataset)

theorem validDuration_le : (overEvent d).validDuration ≤ max 0 (d.tEnd - d.t0) := by
  have hincreasing := d.increasing
  change integral d.t0 d.tEnd duration d.points ≤ _
  cases hpoints : d.points with
  | nil => exact le_max_left _ _
  | cons p rest =>
    rw [hpoints] at hincreasing
    refine (integral_duration_le hincreasing).trans (max_le_max_left 0 ?_)
    linarith [le_max_right p.t d.t0]

theorem validDuration_nonneg : 0 ≤ (overEvent d).validDuration :=
  integral_nonneg fun _ _ _ _ hab _ => sub_nonneg.mpr hab.le

theorem timed_eq (t0 a b e : ℚ) : timed t0 a b e = (a + b - 2 * t0) / 2 * absolute a b e := by
  rw [timed, absolute]
  ring

theorem absolute_nonneg {a b e : ℚ} (hab : a < b) : 0 ≤ absolute a b e :=
  mul_nonneg (abs_nonneg e) (sub_nonneg.mpr hab.le)

theorem itae_nonneg : 0 ≤ (overEvent d).itae :=
  integral_nonneg fun a b e ha hab _ =>
    timed_eq d.t0 a b e ▸ mul_nonneg (by linarith) (absolute_nonneg hab)

theorem itae_le : (overEvent d).itae ≤ (d.tEnd - d.t0) * (overEvent d).iae :=
  calc (overEvent d).itae
      ≤ integral d.t0 d.tEnd (fun a b e => (d.tEnd - d.t0) * absolute a b e) d.points :=
        integral_mono fun a b e _ hab hb =>
          timed_eq d.t0 a b e ▸ mul_le_mul_of_nonneg_right (by linarith) (absolute_nonneg hab)
    _ = (d.tEnd - d.t0) * (overEvent d).iae := integral_mul

theorem coverage_mem : 0 ≤ (overEvent d).coverage ∧ (overEvent d).coverage ≤ 1 := by
  have hcoverage : (overEvent d).coverage = if 0 < max 0 (d.tEnd - d.t0) then
    (overEvent d).validDuration / max 0 (d.tEnd - d.t0) else 0 := rfl
  rw [hcoverage]
  split
  · rename_i helapsed
    exact ⟨div_nonneg (validDuration_nonneg d) helapsed.le,
      (div_le_one helapsed).mpr (validDuration_le d)⟩
  · exact ⟨le_rfl, zero_le_one⟩

/-- A response sampled every second that takes two seconds. -/
private def ramp : EventDataset where
  points := [⟨-1, 0, 1, 0, true⟩, ⟨0, 0, 1, 0, true⟩, ⟨1, 1 / 2, 1, 0, true⟩, ⟨2, 1, 1, 0, true⟩,
    ⟨3, 1, 1, 0, true⟩]
  t0 := 0
  tEnd := 3
  increasing := by decide +kernel

end ErrorIntegrals

end OpenBridge.Response
