import Mathlib.Data.Int.Log
import Mathlib.Data.Rat.Floor
import Mathlib.Tactic.Positivity

/-!
# Foundation: binary64 numbers over the rationals

A finite `double` is the rational number it denotes; rounding a rational to the nearest double, ties
to even, is `ofRat`.  The two zeros are one value, and there is no NaN: JSON carries none, and no
expression of the modelled code makes one.
-/

namespace OpenBridge.Foundation

inductive Double where
  | finite (value : ℚ)
  | infinite (negative : Bool)
  deriving DecidableEq

def rint (q : ℚ) : ℤ :=
  let f := ⌊q⌋
  let r := q - f
  if r < 1 / 2 then f
  else if 1 / 2 < r then f + 1
  else if f % 2 = 0 then f else f + 1

@[simp] theorem rint_intCast (n : ℤ) : rint (n : ℚ) = n := by
  simp [rint]

theorem floor_le_rint (q : ℚ) : ⌊q⌋ ≤ rint q := by
  simp only [rint]
  split
  · exact le_refl _
  · split
    · omega
    · split <;> omega

theorem rint_le_floor_succ (q : ℚ) : rint q ≤ ⌊q⌋ + 1 := by
  simp only [rint]
  split
  · omega
  · split
    · exact le_refl _
    · split <;> omega

theorem le_rint {n : ℤ} {q : ℚ} (h : (n : ℚ) ≤ q) : n ≤ rint q :=
  le_trans (Int.le_floor.mpr h) (floor_le_rint q)

theorem rint_le {n : ℤ} {q : ℚ} (h : q ≤ n) : rint q ≤ n := by
  rcases h.eq_or_lt with rfl | hlt
  · exact (rint_intCast n).le
  · exact (rint_le_floor_succ q).trans (Int.floor_lt.mpr hlt)

theorem rint_mono {p q : ℚ} (h : p ≤ q) : rint p ≤ rint q := by
  rcases lt_or_ge ⌊p⌋ ⌊q⌋ with hlt | hge
  · exact (rint_le_floor_succ p).trans (le_trans hlt (floor_le_rint q))
  · have heq : ⌊p⌋ = ⌊q⌋ := le_antisymm (Int.floor_mono h) hge
    have hrest : p - ⌊q⌋ ≤ q - ⌊q⌋ := sub_le_sub_right h _
    simp only [rint, heq]
    generalize p - (⌊q⌋ : ℚ) = r at hrest ⊢
    generalize q - (⌊q⌋ : ℚ) = r' at hrest ⊢
    split
    · split
      · exact le_refl _
      · split
        · omega
        · split <;> omega
    · rename_i hp
      rw [if_neg fun hq => hp (hrest.trans_lt hq)]
      split
      · rename_i hp'
        rw [if_pos (hp'.trans_le hrest)]
      · split
        · split <;> omega
        · split <;> omega

namespace Double

/-- The exponent of the last binary place of a number of this magnitude (53 significant bits,
never below the subnormal spacing). -/
def ulpExponent (q : ℚ) : ℤ := max (Int.log 2 |q| - 52) (-1074)

def ofRat (q : ℚ) : Double :=
  let s : ℚ := (2 : ℚ) ^ ulpExponent q
  let v : ℚ := rint (q / s) * s
  if (2 : ℚ) ^ (1024 : ℤ) ≤ |v| then infinite (q < 0) else finite v

def ofInt (n : ℤ) : Double := ofRat n

def isFinite : Double → Bool
  | finite _ => true
  | infinite _ => false

/-- `a < b`. -/
def lt : Double → Double → Bool
  | finite a, finite b => a < b
  | finite _, infinite negative => !negative
  | infinite negative, finite _ => negative
  | infinite a, infinite b => a && !b

theorem lt_self (a : Double) : a.lt a = false := by
  cases a with
  | finite a => simp [lt]
  | infinite s => cases s <;> rfl

theorem lt_asymm {a b : Double} (h : a.lt b = true) : b.lt a = false := by
  cases a with
  | finite a =>
    cases b with
    | finite b =>
      simp only [lt, decide_eq_true_eq, decide_eq_false_iff_not, not_lt] at h ⊢
      exact h.le
    | infinite s => cases s <;> simp_all [lt]
  | infinite s =>
    cases b with
    | finite b => cases s <;> simp_all [lt]
    | infinite t => cases s <;> cases t <;> simp_all [lt]

def mul : Double → Double → Double
  | finite a, finite b => ofRat (a * b)
  | finite a, infinite negative => infinite (decide (a < 0) != negative)
  | infinite negative, finite b => infinite (negative != decide (b < 0))
  | infinite a, infinite b => infinite (a != b)

/-- The quotient of two numbers, rounded; the modelled code divides by nonzero constants. -/
def div : Double → ℚ → Double
  | finite a, b => ofRat (a / b)
  | infinite negative, b => infinite (negative != decide (b < 0))

def sub : Double → ℚ → Double
  | finite a, b => ofRat (a - b)
  | infinite negative, _ => infinite negative

def abs : Double → Double
  | finite a => finite |a|
  | infinite _ => infinite false

/-- The larger of two numbers (`Math.max`). -/
def max (a b : Double) : Double := if a.lt b then b else a

/-- Whether the number equals its integer rounding (`d == Math.rint(d)`). -/
def isInteger : Double → Bool
  | finite q => q = rint q
  | infinite _ => true

@[simp] theorem ofRat_zero : ofRat 0 = finite 0 := by
  have hr : rint 0 = 0 := by simpa using rint_intCast 0
  simp [ofRat, hr]

theorem ofInt_of_abs_lt {n : ℤ} (h : |n| < 2 ^ 53) : ofInt n = finite n := by
  rcases eq_or_ne n 0 with rfl | hn
  · simp [ofInt]
  have hq : (0 : ℚ) < |(n : ℚ)| := abs_pos.mpr (by exact_mod_cast hn)
  have hlt : |(n : ℚ)| < (2 : ℚ) ^ (53 : ℤ) := by
    have : ((|n| : ℤ) : ℚ) < ((2 ^ 53 : ℤ) : ℚ) := by exact_mod_cast h
    rw [Int.cast_abs] at this
    norm_num at this ⊢
    exact this
  have hlog : Int.log 2 |(n : ℚ)| < 53 := (Int.lt_zpow_iff_log_lt (by norm_num) hq).mp hlt
  -- the last place is at most the units place, so the quotient is an integer
  obtain ⟨k, hk⟩ : ∃ k : ℕ, ulpExponent (n : ℚ) = -(k : ℤ) := by
    refine ⟨(-(ulpExponent (n : ℚ))).toNat, ?_⟩
    have : ulpExponent (n : ℚ) ≤ 0 := by
      simp only [ulpExponent]
      omega
    omega
  have hquot : (n : ℚ) / (2 : ℚ) ^ (-(k : ℤ)) = ((n * 2 ^ k : ℤ) : ℚ) := by
    rw [zpow_neg, zpow_natCast, div_inv_eq_mul]
    push_cast
    ring
  have hval : ((n * 2 ^ k : ℤ) : ℚ) * (2 : ℚ) ^ (-(k : ℤ)) = n := by
    rw [zpow_neg, zpow_natCast]
    push_cast
    field_simp
  have hbig : ¬ (2 : ℚ) ^ (1024 : ℤ) ≤ |(n : ℚ)| := by
    refine not_le.mpr (lt_trans hlt ?_)
    exact zpow_lt_zpow_right₀ (by norm_num) (by norm_num)
  simp only [ofInt, ofRat, hk, hquot, rint_intCast, hval, hbig, if_false]

theorem rint_nonneg {q : ℚ} (h : 0 ≤ q) : 0 ≤ rint q :=
  le_rint (by exact_mod_cast h)

theorem ulp_le {q : ℚ} (h : 0 ≤ q) : (2 : ℚ) ^ ulpExponent q ≤ q + 1 := by
  unfold ulpExponent
  rcases le_total (Int.log 2 |q| - 52) (-1074) with hle | hle
  · rw [max_eq_right hle]
    have hone : (2 : ℚ) ^ (-1074 : ℤ) ≤ 1 := zpow_le_one_of_nonpos₀ (by norm_num) (by norm_num)
    linarith
  · rw [max_eq_left hle]
    rcases h.eq_or_lt with rfl | hpos
    · norm_num
    · have hlog : (2 : ℚ) ^ Int.log 2 |q| ≤ |q| := Int.zpow_log_le_self (by norm_num) (abs_pos.mpr hpos.ne')
      have hmono : (2 : ℚ) ^ (Int.log 2 |q| - 52) ≤ (2 : ℚ) ^ Int.log 2 |q| :=
        zpow_le_zpow_right₀ (by norm_num) (by omega)
      rw [abs_of_pos hpos] at hlog hmono ⊢
      linarith

theorem ofRat_of_nonneg {q : ℚ} (h : 0 ≤ q) (hle : q ≤ 2 ^ 100) :
    ∃ v, ofRat q = finite v ∧ 0 ≤ v ∧ v ≤ 2 * q + 1 := by
  have hs : (0 : ℚ) < (2 : ℚ) ^ ulpExponent q := zpow_pos (by norm_num) _
  have hquot : 0 ≤ q / (2 : ℚ) ^ ulpExponent q := div_nonneg h hs.le
  have hrint : (rint (q / (2 : ℚ) ^ ulpExponent q) : ℚ) ≤ q / (2 : ℚ) ^ ulpExponent q + 1 := by
    have := rint_le_floor_succ (q / (2 : ℚ) ^ ulpExponent q)
    have hfloor := Int.floor_le (q / (2 : ℚ) ^ ulpExponent q)
    have : (rint (q / (2 : ℚ) ^ ulpExponent q) : ℚ) ≤ ⌊q / (2 : ℚ) ^ ulpExponent q⌋ + 1 := by
      exact_mod_cast this
    linarith
  have hnonneg : 0 ≤ (rint (q / (2 : ℚ) ^ ulpExponent q) : ℚ) * (2 : ℚ) ^ ulpExponent q :=
    mul_nonneg (by exact_mod_cast rint_nonneg hquot) hs.le
  have hupper : (rint (q / (2 : ℚ) ^ ulpExponent q) : ℚ) * (2 : ℚ) ^ ulpExponent q ≤ 2 * q + 1 := by
    calc (rint (q / (2 : ℚ) ^ ulpExponent q) : ℚ) * (2 : ℚ) ^ ulpExponent q
        ≤ (q / (2 : ℚ) ^ ulpExponent q + 1) * (2 : ℚ) ^ ulpExponent q :=
          mul_le_mul_of_nonneg_right hrint hs.le
      _ = q + (2 : ℚ) ^ ulpExponent q := by field_simp
      _ ≤ 2 * q + 1 := by linarith [ulp_le h]
  refine ⟨_, ?_, hnonneg, hupper⟩
  unfold ofRat
  dsimp only
  rw [if_neg]
  rw [abs_of_nonneg hnonneg, not_le]
  have hpow : (2 : ℚ) ^ (200 : ℤ) ≤ (2 : ℚ) ^ (1024 : ℤ) :=
    zpow_le_zpow_right₀ (by norm_num) (by norm_num)
  have hsmall : (2 : ℚ) * 2 ^ 100 + 1 < (2 : ℚ) ^ (200 : ℤ) := by norm_num
  have hvalue : 2 * q + 1 ≤ 2 * 2 ^ 100 + 1 := by linarith
  exact (hupper.trans hvalue).trans_lt (hsmall.trans_le hpow)

/-! ## Rounding keeps the order -/

def rounded (q : ℚ) : ℚ := rint (q / (2 : ℚ) ^ ulpExponent q) * (2 : ℚ) ^ ulpExponent q

theorem zpow_eq_mul {e k : ℤ} (h : e ≤ k) : ∃ n : ℤ, (2 : ℚ) ^ k = n * (2 : ℚ) ^ e := by
  obtain ⟨n, hn⟩ := Int.eq_ofNat_of_zero_le (sub_nonneg.mpr h)
  have hsplit : k = n + e := by omega
  refine ⟨2 ^ n, ?_⟩
  rw [hsplit, zpow_add₀ (by norm_num)]
  norm_cast

theorem rounded_le_zpow {q : ℚ} {k : ℤ} (h : q ≤ (2 : ℚ) ^ k) (hk : ulpExponent q ≤ k) :
    rounded q ≤ (2 : ℚ) ^ k := by
  have hs : (0 : ℚ) < (2 : ℚ) ^ ulpExponent q := zpow_pos (by norm_num) _
  obtain ⟨n, hn⟩ := zpow_eq_mul hk
  rw [hn] at h ⊢
  have hrint := rint_le ((div_le_iff₀ hs).mpr h)
  exact mul_le_mul_of_nonneg_right (by exact_mod_cast hrint) hs.le

theorem zpow_le_rounded {q : ℚ} {k : ℤ} (h : (2 : ℚ) ^ k ≤ q) (hk : ulpExponent q ≤ k) :
    (2 : ℚ) ^ k ≤ rounded q := by
  have hs : (0 : ℚ) < (2 : ℚ) ^ ulpExponent q := zpow_pos (by norm_num) _
  obtain ⟨n, hn⟩ := zpow_eq_mul hk
  rw [hn] at h ⊢
  have hrint := le_rint ((le_div_iff₀ hs).mpr h)
  exact mul_le_mul_of_nonneg_right (by exact_mod_cast hrint) hs.le

theorem rounded_mono {p q : ℚ} (hp : 0 ≤ p) (h : p ≤ q) : rounded p ≤ rounded q := by
  have hs : ∀ r : ℚ, (0 : ℚ) < (2 : ℚ) ^ ulpExponent r := fun r => zpow_pos (by norm_num) _
  rcases hp.eq_or_lt with rfl | hpos
  · have hzero : rounded 0 = 0 := by simp [rounded, rint]
    have hquot : 0 ≤ q / (2 : ℚ) ^ ulpExponent q := div_nonneg h (hs q).le
    rw [hzero]
    exact mul_nonneg (by exact_mod_cast rint_nonneg hquot) (hs q).le
  · have hlog : Int.log 2 |p| ≤ Int.log 2 |q| := by
      rw [abs_of_pos hpos, abs_of_pos (hpos.trans_le h)]
      exact Int.log_mono_right hpos h
    have hp' : ulpExponent p = Max.max (Int.log 2 |p| - 52) (-1074) := rfl
    have hq' : ulpExponent q = Max.max (Int.log 2 |q| - 52) (-1074) := rfl
    rcases (show ulpExponent p ≤ ulpExponent q by omega).eq_or_lt with heq | hlt
    · unfold rounded
      rw [heq]
      have hrint := rint_mono (div_le_div_of_nonneg_right h (hs q).le)
      exact mul_le_mul_of_nonneg_right (by exact_mod_cast hrint) (hs q).le
    · -- a power of two lies between the two numbers
      have hbelow : p ≤ (2 : ℚ) ^ Int.log 2 |q| := by
        have habs : Int.log 2 |p| = Int.log 2 p := by rw [abs_of_pos hpos]
        have hlt' : p < (2 : ℚ) ^ (Int.log 2 p + 1) := Int.lt_zpow_succ_log_self (by norm_num) p
        exact hlt'.le.trans (zpow_le_zpow_right₀ (by norm_num) (by omega))
      have habove : (2 : ℚ) ^ Int.log 2 |q| ≤ q := by
        rw [abs_of_pos (hpos.trans_le h)]
        exact Int.zpow_log_le_self (by norm_num) (hpos.trans_le h)
      exact (rounded_le_zpow hbelow (by omega)).trans (zpow_le_rounded habove (by omega))

theorem rounded_nonneg {q : ℚ} (h : 0 ≤ q) : 0 ≤ rounded q := by
  simpa [rounded, rint] using rounded_mono (le_refl 0) h

theorem ofRat_eq_rounded {q : ℚ} (h : 0 ≤ q) : ofRat q =
    if (2 : ℚ) ^ (1024 : ℤ) ≤ rounded q then infinite false else finite (rounded q) := by
  have heq : ofRat q =
      if (2 : ℚ) ^ (1024 : ℤ) ≤ |rounded q| then infinite (q < 0) else finite (rounded q) := rfl
  rw [heq, abs_of_nonneg (rounded_nonneg h), decide_eq_false (not_lt.mpr h)]

theorem ofRat_mono {p q : ℚ} (hp : 0 ≤ p) (h : p ≤ q) :
    (ofRat q).lt (ofRat p) = false := by
  have hle := rounded_mono hp h
  rw [ofRat_eq_rounded hp, ofRat_eq_rounded (hp.trans h)]
  split
  · split <;> rfl
  · rename_i hq
    rw [if_neg fun hp' => hq (hp'.trans hle)]
    simp [Double.lt, hle]

end Double

/-!
# Foundation: machine words

The signed words of the platforms: arithmetic on them wraps around, and a double is cut to one by
truncation that saturates.
-/

/-- The value of a 32-bit `int` after arithmetic. -/
def wrap32 (n : ℤ) : ℤ := Int.bmod n (2 ^ 32)

/-- The value of a 64-bit `long` after arithmetic. -/
def wrap64 (n : ℤ) : ℤ := Int.bmod n (2 ^ 64)

/-- `Long.MIN_VALUE`. -/
def minLong : ℤ := -2 ^ 63

/-- `Long.MAX_VALUE`. -/
def maxLong : ℤ := 2 ^ 63 - 1

theorem wrap32_wrap32_add (a b : ℤ) : wrap32 (wrap32 a + b) = wrap32 (a + b) :=
  Int.bmod_add_bmod

theorem wrap32_one : wrap32 1 = 1 := by decide

theorem wrap64_of_range {n : ℤ} (h : -2 ^ 63 ≤ n) (h' : n < 2 ^ 63) : wrap64 n = n := by
  simp only [wrap64, Int.bmod]
  omega

theorem eq_of_wrap32_eq {a b : ℤ} (h : wrap32 a = wrap32 b) (hlt : a - b < 2 ^ 32)
    (hgt : b - a < 2 ^ 32) : a = b := by
  simp only [wrap32, Int.bmod] at h
  omega

/-- An integer cut to the range of a `long`. -/
def saturateLong (n : ℤ) : ℤ := max minLong (min maxLong n)

/-- The cast of a double to a `long`. -/
def Double.toLong : Double → ℤ
  | .finite v => saturateLong (if v < 0 then -⌊-v⌋ else ⌊v⌋)
  | .infinite negative => if negative then minLong else maxLong

/-- The cast of a double to a `long` on .NET 8: toward zero, and `long.MinValue` out of range. -/
def Double.castLong : Double → ℤ
  | .finite v =>
      let n := if v < 0 then -⌊-v⌋ else ⌊v⌋
      if minLong ≤ n ∧ n ≤ maxLong then n else minLong
  | .infinite _ => minLong

end OpenBridge.Foundation
