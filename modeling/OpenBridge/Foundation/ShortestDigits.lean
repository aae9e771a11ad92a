import OpenBridge.Foundation.Decimal
import Mathlib.Data.List.TakeWhile
import Mathlib.Tactic.IntervalCases

/-!
# Foundation: digits that tell a double apart

Seventeen significant digits read back as the double they were rounded from, so the shortest digits
exist.
-/

namespace OpenBridge.Foundation

theorem rint_near {n : ℤ} {q : ℚ} (h : |q - n| < 1 / 2) : rint q = n := by
  obtain ⟨hlow, hhigh⟩ := abs_lt.mp h
  rcases le_or_gt (n : ℚ) q with hle | hlt
  · have hfloor : ⌊q⌋ = n := Int.floor_eq_iff.mpr ⟨hle, by linarith⟩
    unfold rint
    dsimp only
    rw [hfloor, if_pos hhigh]
  · have hfloor : ⌊q⌋ = n - 1 :=
      Int.floor_eq_iff.mpr ⟨by push_cast; linarith, by push_cast; linarith⟩
    unfold rint
    dsimp only
    rw [hfloor]
    push_cast
    rw [if_neg (by linarith), if_pos (by linarith)]
    omega

namespace Double

/-- A number that is a whole number of its last places, below the overflow. -/
def IsExact (q : ℚ) : Prop :=
  (∃ n : ℤ, q = n * (2 : ℚ) ^ ulpExponent q) ∧ |q| < (2 : ℚ) ^ (1024 : ℤ)

theorem zpow_pos_two (k : ℤ) : (0 : ℚ) < (2 : ℚ) ^ k := zpow_pos (by norm_num) k

theorem abs_lt_zpow_log {q : ℚ} : |q| < (2 : ℚ) ^ (Int.log 2 |q| + 1) :=
  Int.lt_zpow_succ_log_self (by norm_num) _

theorem log_abs_lt {q : ℚ} {k : ℤ} (hq : q ≠ 0) (h : |q| < (2 : ℚ) ^ k) : Int.log 2 |q| < k :=
  (Int.lt_zpow_iff_log_lt (by norm_num) (abs_pos.mpr hq)).mp h

theorem abs_rint_le (q : ℚ) : |rint (q / (2 : ℚ) ^ ulpExponent q)| ≤ 2 ^ 53 := by
  have hs := zpow_pos_two (ulpExponent q)
  have hulp : Int.log 2 |q| - 52 ≤ ulpExponent q := le_max_left _ _
  have hbound : |q| ≤ (2 : ℚ) ^ (53 : ℕ) * (2 : ℚ) ^ ulpExponent q := by
    rw [← zpow_natCast, ← zpow_add₀ (by norm_num)]
    exact abs_lt_zpow_log.le.trans (zpow_le_zpow_right₀ (by norm_num) (by push_cast; omega))
  have hquot : |q / (2 : ℚ) ^ ulpExponent q| ≤ (2 : ℚ) ^ (53 : ℕ) := by
    rw [abs_div, abs_of_pos hs, div_le_iff₀ hs]
    exact hbound
  obtain ⟨hlow, hhigh⟩ := abs_le.mp hquot
  refine abs_le.mpr ⟨le_rint ?_, rint_le ?_⟩
  · push_cast
    exact hlow
  · push_cast
    exact hhigh

theorem isExact_of_ofRat {r q : ℚ} (h : ofRat r = finite q) : IsExact q := by
  have heq : ofRat r =
      if (2 : ℚ) ^ (1024 : ℤ) ≤ |rounded r| then infinite (r < 0) else finite (rounded r) := rfl
  rw [heq] at h
  split at h
  · cases h
  · rename_i hbelow
    obtain rfl : rounded r = q := by injection h
    refine ⟨?_, not_le.mp hbelow⟩
    have hcoefficient := abs_rint_le r
    have hvalue : rounded r =
        rint (r / (2 : ℚ) ^ ulpExponent r) * (2 : ℚ) ^ ulpExponent r := rfl
    generalize rint (r / (2 : ℚ) ^ ulpExponent r) = m at hcoefficient hvalue
    have hleast : -1074 ≤ ulpExponent r := le_max_right _ _
    generalize ulpExponent r = e at hvalue hleast
    generalize rounded r = q at hvalue
    subst hvalue
    rcases eq_or_ne m 0 with rfl | hm
    · exact ⟨0, by simp⟩
    · have hne : (m : ℚ) * (2 : ℚ) ^ e ≠ 0 :=
        mul_ne_zero (by exact_mod_cast hm) (zpow_pos_two e).ne'
      rcases hcoefficient.lt_or_eq with hlt | htop
      · have hsmall : |(m : ℚ) * (2 : ℚ) ^ e| < (2 : ℚ) ^ (53 + e) := by
          rw [abs_mul, abs_of_pos (zpow_pos_two e), zpow_add₀ (by norm_num)]
          refine mul_lt_mul_of_pos_right ?_ (zpow_pos_two e)
          exact_mod_cast hlt
        have hlog := log_abs_lt hne hsmall
        obtain ⟨n, hn⟩ := zpow_eq_mul (e := ulpExponent (m * (2 : ℚ) ^ e)) (k := e) (by
          unfold ulpExponent
          omega)
        refine ⟨m * n, ?_⟩
        push_cast
        rw [mul_assoc, ← hn]
      · have habs : |(m : ℚ) * (2 : ℚ) ^ e| = (2 : ℚ) ^ (53 + e) := by
          rw [abs_mul, abs_of_pos (zpow_pos_two e), zpow_add₀ (by norm_num)]
          congr 1
          exact_mod_cast htop
        have hlog : Int.log 2 |(m : ℚ) * (2 : ℚ) ^ e| = 53 + e := by
          rw [habs]
          exact Int.log_zpow (by norm_num) _
        have hulp : ulpExponent (m * (2 : ℚ) ^ e) ≤ 53 + e := by
          unfold ulpExponent
          omega
        obtain ⟨n, hn⟩ := zpow_eq_mul hulp
        rcases abs_choice ((m : ℚ) * (2 : ℚ) ^ e) with hsign | hsign
        · exact ⟨n, by rw [← hn, ← habs, hsign]⟩
        · refine ⟨-n, ?_⟩
          push_cast
          rw [neg_mul, ← hn, ← habs, hsign, neg_neg]

theorem add_zpow_le {e : ℤ} {m n : ℤ} (h : m * (2 : ℚ) ^ e < n * (2 : ℚ) ^ e) :
    m * (2 : ℚ) ^ e + (2 : ℚ) ^ e ≤ n * (2 : ℚ) ^ e := by
  have hlt : m < n := by exact_mod_cast lt_of_mul_lt_mul_right h (zpow_pos_two e).le
  have hle : (m : ℚ) + 1 ≤ n := by exact_mod_cast hlt
  calc m * (2 : ℚ) ^ e + (2 : ℚ) ^ e = (m + 1) * (2 : ℚ) ^ e := by ring
    _ ≤ n * (2 : ℚ) ^ e := mul_le_mul_of_nonneg_right hle (zpow_pos_two e).le

theorem ulpExponent_bounds {q : ℚ} (hq : 0 < q) (hexact : IsExact q) :
    Int.log 2 q - 52 ≤ ulpExponent q ∧ ulpExponent q ≤ Int.log 2 q := by
  obtain ⟨⟨n, hn⟩, -⟩ := hexact
  have habs : Int.log 2 |q| = Int.log 2 q := by rw [abs_of_pos hq]
  have hulp : ulpExponent q = Max.max (Int.log 2 |q| - 52) (-1074) := rfl
  refine ⟨by omega, (Int.zpow_le_iff_le_log (by norm_num) hq).mp ?_⟩
  have hpos : (0 : ℚ) * (2 : ℚ) ^ ulpExponent q < n * (2 : ℚ) ^ ulpExponent q := by
    rw [← hn, zero_mul]
    exact hq
  have hstep : (0 : ℚ) * (2 : ℚ) ^ ulpExponent q + (2 : ℚ) ^ ulpExponent q ≤
      n * (2 : ℚ) ^ ulpExponent q := by
    exact_mod_cast add_zpow_le (m := 0) (by exact_mod_cast hpos)
  rw [← hn, zero_mul, zero_add] at hstep
  exact_mod_cast hstep

theorem zpow_apart {q : ℚ} {k : ℤ} (hexact : IsExact q) (hk : ulpExponent q ≤ k) :
    (q < (2 : ℚ) ^ k → q + (2 : ℚ) ^ ulpExponent q ≤ (2 : ℚ) ^ k) ∧
      ((2 : ℚ) ^ k < q → (2 : ℚ) ^ k + (2 : ℚ) ^ ulpExponent q ≤ q) := by
  obtain ⟨⟨n, hn⟩, -⟩ := hexact
  obtain ⟨m, hm⟩ := zpow_eq_mul hk
  generalize ulpExponent q = e at hn hm
  subst hn
  rw [hm]
  exact ⟨add_zpow_le, add_zpow_le⟩

theorem ofRat_near {q x : ℚ} (hq : 0 < q) (hexact : IsExact q)
    (h : |x - q| < q * (2 : ℚ) ^ (-54 : ℤ)) : ofRat x = finite q := by
  obtain ⟨hulp, hulp'⟩ := ulpExponent_bounds hq hexact
  have hlow : (2 : ℚ) ^ Int.log 2 q ≤ q := Int.zpow_log_le_self (by norm_num) hq
  have hhigh : q < (2 : ℚ) ^ (Int.log 2 q + 1) := Int.lt_zpow_succ_log_self (by norm_num) q
  -- the distance is less than half of a last place
  have hplace : q * (2 : ℚ) ^ (-54 : ℤ) < (2 : ℚ) ^ ulpExponent q := by
    calc q * (2 : ℚ) ^ (-54 : ℤ) < (2 : ℚ) ^ (Int.log 2 q + 1) * (2 : ℚ) ^ (-54 : ℤ) :=
          mul_lt_mul_of_pos_right hhigh (zpow_pos_two _)
      _ = (2 : ℚ) ^ (Int.log 2 q + 1 + -54) := (zpow_add₀ (by norm_num) _ _).symm
      _ ≤ (2 : ℚ) ^ ulpExponent q := zpow_le_zpow_right₀ (by norm_num) (by omega)
  have hhalf : q * (2 : ℚ) ^ (-54 : ℤ) ≤ q / 2 := by
    have hsmall : (2 : ℚ) ^ (-54 : ℤ) ≤ 1 / 2 := by norm_num
    nlinarith
  have hdouble : q * (2 : ℚ) ^ (-53 : ℤ) = 2 * (q * (2 : ℚ) ^ (-54 : ℤ)) := by
    have hpow : (2 : ℚ) ^ (-53 : ℤ) = 2 * (2 : ℚ) ^ (-54 : ℤ) := by norm_num
    rw [hpow]
    ring
  generalize q * (2 : ℚ) ^ (-54 : ℤ) = δ at h hplace hhalf hdouble
  obtain ⟨hbelow, habove⟩ := abs_lt.mp h
  have hx : 0 < x := by linarith
  have hxlog : ulpExponent x = Max.max (Int.log 2 x - 52) (-1074) := by
    unfold ulpExponent
    rw [abs_of_pos hx]
  have hqlog : ulpExponent q = Max.max (Int.log 2 q - 52) (-1074) := by
    unfold ulpExponent
    rw [abs_of_pos hq]
  have hupper : Int.log 2 x ≤ Int.log 2 q := by
    by_contra hlog
    have hlog' : Int.log 2 q + 1 ≤ Int.log 2 x := by omega
    have hxhigh : (2 : ℚ) ^ (Int.log 2 q + 1) ≤ x :=
      (Int.zpow_le_iff_le_log (by norm_num) hx).mpr hlog'
    have hapart := (zpow_apart hexact (by omega)).1 hhigh
    linarith
  have hle : ulpExponent x ≤ ulpExponent q := by omega
  have hwide : q * (2 : ℚ) ^ (-53 : ℤ) ≤ (2 : ℚ) ^ ulpExponent x := by
    rcases le_or_gt (Int.log 2 q) (Int.log 2 x) with hlog | hlog
    · calc q * (2 : ℚ) ^ (-53 : ℤ) ≤ (2 : ℚ) ^ (Int.log 2 q + 1) * (2 : ℚ) ^ (-53 : ℤ) :=
            mul_le_mul_of_nonneg_right hhigh.le (zpow_pos_two _).le
        _ = (2 : ℚ) ^ (Int.log 2 q + 1 + -53) := (zpow_add₀ (by norm_num) _ _).symm
        _ ≤ (2 : ℚ) ^ ulpExponent x := zpow_le_zpow_right₀ (by norm_num) (by omega)
    · -- only a power of two has such a near number of a lower order
      have hxlow : x < (2 : ℚ) ^ Int.log 2 q := (Int.lt_zpow_iff_log_lt (by norm_num) hx).mpr hlog
      have hpow : q = (2 : ℚ) ^ Int.log 2 q := by
        by_contra hne
        have hapart := (zpow_apart hexact hulp').2 (lt_of_le_of_ne hlow (Ne.symm hne))
        linarith
      have hxhalf : (2 : ℚ) ^ (Int.log 2 q - 1) ≤ x := by
        rw [zpow_sub_one₀ (by norm_num), ← hpow]
        linarith
      have hlog' : Int.log 2 q - 1 ≤ Int.log 2 x :=
        (Int.zpow_le_iff_le_log (by norm_num) hx).mp hxhalf
      calc q * (2 : ℚ) ^ (-53 : ℤ) = (2 : ℚ) ^ Int.log 2 q * (2 : ℚ) ^ (-53 : ℤ) := by rw [← hpow]
        _ = (2 : ℚ) ^ (Int.log 2 q + -53) := (zpow_add₀ (by norm_num) _ _).symm
        _ ≤ (2 : ℚ) ^ ulpExponent x := zpow_le_zpow_right₀ (by norm_num) (by omega)
  have hrounded : rounded x = q := by
    obtain ⟨⟨n, hn⟩, -⟩ := hexact
    obtain ⟨m, hm⟩ := zpow_eq_mul hle
    have hs := zpow_pos_two (ulpExponent x)
    have hvalue : q = ((n * m : ℤ) : ℚ) * (2 : ℚ) ^ ulpExponent x := by
      push_cast
      rw [mul_assoc, ← hm]
      exact hn
    have hrint : rint (x / (2 : ℚ) ^ ulpExponent x) = n * m := by
      refine rint_near ?_
      have hquot : x / (2 : ℚ) ^ ulpExponent x - ((n * m : ℤ) : ℚ) =
          (x - q) / (2 : ℚ) ^ ulpExponent x := by
        rw [sub_div, eq_div_of_mul_eq hs.ne' hvalue.symm]
      rw [hquot, abs_div, abs_of_pos hs, div_lt_iff₀ hs]
      linarith
    unfold rounded
    rw [hrint]
    exact hvalue.symm
  rw [ofRat_eq_rounded hx.le, hrounded, if_neg]
  rw [not_le, ← abs_of_pos hq]
  exact hexact.2

end Double

namespace DecimalDigits

structure WellFormed (d : DecimalDigits) : Prop where
  digits : ∀ c ∈ d.digits, c.isDigit = true
  nonempty : d.digits ≠ []
  first : ∀ c ∈ d.digits.head?, c ≠ '0'
  last : ∀ c ∈ d.digits.getLast?, c ≠ '0'

def value (d : DecimalDigits) : ℚ :=
  (Nat.ofDigitChars 10 d.digits 0 : ℕ) * (10 : ℚ) ^ (d.point - d.digits.length)

/-! ## Zeros at the ends -/

theorem dropWhile_replicate_append {ds : List Char} (n : ℕ) (h : ∀ c ∈ ds.head?, c ≠ '0') :
    (List.replicate n '0' ++ ds).dropWhile (· = '0') = ds := by
  induction n with
  | zero =>
    cases ds with
    | nil => rfl
    | cons c rest => simp [h c rfl]
  | succ n ih => simpa [List.replicate_succ] using ih

theorem stripTrailing_append_replicate {ds : List Char} (n : ℕ)
    (h : ∀ c ∈ ds.getLast?, c ≠ '0') : stripTrailing (ds ++ List.replicate n '0') = ds := by
  unfold stripTrailing
  rw [List.reverse_append, List.reverse_replicate,
    dropWhile_replicate_append n (by simpa [List.head?_reverse] using h), List.reverse_reverse]

theorem stripTrailing_spec (ds : List Char) :
    (∃ n, ds = stripTrailing ds ++ List.replicate n '0') ∧
      ∀ c ∈ (stripTrailing ds).getLast?, c ≠ '0' := by
  unfold stripTrailing
  refine ⟨⟨(ds.reverse.takeWhile (· = '0')).length, ?_⟩, fun c hc => ?_⟩
  · have hzeros : ds.reverse.takeWhile (· = '0') =
        List.replicate (ds.reverse.takeWhile (· = '0')).length '0' :=
      List.eq_replicate_of_mem fun c hc => by simpa using List.mem_takeWhile_imp hc
    have hsplit := congrArg List.reverse
      (List.takeWhile_append_dropWhile (p := fun c => decide (c = '0')) (l := ds.reverse))
    rw [List.reverse_append, List.reverse_reverse] at hsplit
    rw [← List.reverse_replicate, ← hzeros]
    exact hsplit.symm
  · rw [List.getLast?_reverse] at hc
    have hhead := List.head?_dropWhile_not (fun c => decide (c = '0')) ds.reverse
    rw [Option.mem_def.mp hc] at hhead
    simpa using hhead

theorem head_toDigits {n : ℕ} (h : 0 < n) : ∀ c ∈ (Nat.toDigits 10 n).head?, c ≠ '0' := by
  induction n using Nat.strongRecOn with
  | ind n ih =>
    intro c hc
    rcases lt_or_ge n 10 with hlt | hge
    · rw [Nat.toDigits_of_lt_base hlt] at hc
      rw [← Option.some.inj hc]
      interval_cases n <;> decide
    · rw [Nat.toDigits_of_base_le (by norm_num) hge,
        List.head?_append_of_ne_nil _ Nat.toDigits_ne_nil] at hc
      exact ih (n / 10) (by omega) (by omega) c hc

theorem ofScaled_spec {coefficient : ℕ} (h : 0 < coefficient) (exponent : ℤ) :
    (ofScaled coefficient exponent).WellFormed ∧
      (ofScaled coefficient exponent).value = coefficient * (10 : ℚ) ^ exponent := by
  obtain ⟨⟨n, hn⟩, hlast⟩ := stripTrailing_spec (Nat.toDigits 10 coefficient)
  have hfirst := head_toDigits h
  have hdigit : ∀ c ∈ Nat.toDigits 10 coefficient, c.isDigit = true := fun c hc =>
    Nat.isDigit_of_mem_toDigits (by norm_num) (by norm_num) hc
  have hvalue : Nat.ofDigitChars 10 (Nat.toDigits 10 coefficient) 0 = coefficient :=
    Nat.ofDigitChars_ten_toDigits
  have hne : stripTrailing (Nat.toDigits 10 coefficient) ≠ [] := by
    intro hnil
    rw [hnil, List.nil_append] at hn
    rw [hn, Nat.ofDigitChars_replicate_zero] at hvalue
    omega
  unfold ofScaled
  generalize Nat.toDigits 10 coefficient = ds at hn hlast hfirst hdigit hvalue hne ⊢
  refine ⟨⟨fun c hc => hdigit c ?_, hne, fun c hc => hfirst c ?_, hlast⟩, ?_⟩
  · rw [hn]
    exact List.mem_append_left _ hc
  · rw [hn, List.head?_append_of_ne_nil _ hne]
    exact hc
  · have hlength := congrArg List.length hn
    rw [List.length_append, List.length_replicate] at hlength
    rw [hn, Nat.ofDigitChars_append, Nat.ofDigitChars_replicate_zero] at hvalue
    unfold value
    dsimp only
    rw [← hvalue, hlength]
    push_cast
    have hpoint : ((stripTrailing ds).length : ℤ) + n + exponent - (stripTrailing ds).length =
        n + exponent := by ring
    rw [hpoint, zpow_add₀ (by norm_num), zpow_natCast]
    ring

/-! ## The shortest digits -/

theorem rint_near_half (q : ℚ) : |rint q - q| ≤ 1 / 2 := by
  have hfloor := Int.floor_le q
  have hfloor' := Int.lt_floor_add_one q
  unfold rint
  dsimp only
  rw [abs_le]
  split
  · constructor <;> linarith
  · split
    · push_cast
      constructor <;> linarith
    · split
      · constructor <;> linarith
      · push_cast
        constructor <;> linarith

theorem pos_of_ofRat {x q : ℚ} (hq : 0 < q) (h : Double.ofRat x = .finite q) : 0 < x := by
  by_contra hx
  have heq : Double.ofRat x = if (2 : ℚ) ^ (1024 : ℤ) ≤ |Double.rounded x| then
      .infinite (x < 0) else .finite (Double.rounded x) := rfl
  rw [heq] at h
  split at h
  · cases h
  · obtain rfl : Double.rounded x = q := by injection h
    have hs := Double.zpow_pos_two (Double.ulpExponent x)
    have hquot : x / (2 : ℚ) ^ Double.ulpExponent x ≤ ((0 : ℤ) : ℚ) := by
      rw [Int.cast_zero]
      exact div_nonpos_of_nonpos_of_nonneg (not_lt.mp hx) hs.le
    have hrint : (rint (x / (2 : ℚ) ^ Double.ulpExponent x) : ℚ) ≤ 0 := by
      exact_mod_cast rint_le hquot
    have hneg := mul_nonpos_of_nonpos_of_nonneg hrint hs.le
    unfold Double.rounded at hq
    linarith

theorem ofScaled_of_readsBack {q : ℚ} (hq : 0 < q) {coefficient exponent : ℤ}
    (h : readsBack q coefficient exponent = true) :
    (ofScaled coefficient.toNat exponent).WellFormed ∧
      Double.ofRat (ofScaled coefficient.toNat exponent).value = .finite q := by
  unfold readsBack at h
  rw [decide_eq_true_eq] at h
  have hpos := pos_of_ofRat hq h
  have hcoefficient : 0 < coefficient := by
    exact_mod_cast (pos_iff_pos_of_mul_pos hpos).mpr (zpow_pos (by norm_num) exponent)
  have hpositive : 0 < coefficient.toNat := by omega
  obtain ⟨hwf, hvalue⟩ := ofScaled_spec hpositive exponent
  have hcast : ((coefficient.toNat : ℕ) : ℚ) = coefficient := by
    exact_mod_cast Int.toNat_of_nonneg hcoefficient.le
  rw [hvalue, hcast]
  exact ⟨hwf, h⟩

theorem withDigits_spec {q : ℚ} (hq : 0 < q) {k : ℕ} {d : DecimalDigits}
    (h : withDigits q k = some d) : d.WellFormed ∧ Double.ofRat d.value = .finite q := by
  unfold withDigits at h
  extract_lets exponent scaled near far at h
  generalize far = far at h
  split at h
  · rename_i hnear
    rw [← Option.some.inj h]
    exact ofScaled_of_readsBack hq hnear
  · split at h
    · rename_i hfar
      rw [← Option.some.inj h]
      exact ofScaled_of_readsBack hq hfar
    · cases h

theorem withDigits_seventeen {q : ℚ} (hq : 0 < q) (hexact : Double.IsExact q) :
    (withDigits q 17).isSome := by
  have hreads : readsBack q (rint (q / (10 : ℚ) ^ (Int.log 10 q + 1 - (17 : ℕ))))
      (Int.log 10 q + 1 - (17 : ℕ)) = true := by
    have hlog : (10 : ℚ) ^ Int.log 10 q ≤ q := Int.zpow_log_le_self (by norm_num) hq
    have hstep : (10 : ℚ) ^ (Int.log 10 q + 1 - (17 : ℕ)) ≤ q / 10 ^ 16 := by
      have hexponent : Int.log 10 q + 1 - (17 : ℕ) = Int.log 10 q - 16 := by push_cast; ring
      rw [hexponent, zpow_sub₀ (by norm_num)]
      exact div_le_div_of_nonneg_right hlog (by norm_num)
    have hs : (0 : ℚ) < (10 : ℚ) ^ (Int.log 10 q + 1 - (17 : ℕ)) := zpow_pos (by norm_num) _
    generalize Int.log 10 q + 1 - (17 : ℕ) = e at hstep hs
    have hnear := rint_near_half (q / (10 : ℚ) ^ e)
    unfold readsBack
    rw [decide_eq_true_eq]
    refine Double.ofRat_near hq hexact ?_
    have hdistance : |rint (q / (10 : ℚ) ^ e) * (10 : ℚ) ^ e - q| =
        |rint (q / (10 : ℚ) ^ e) - q / (10 : ℚ) ^ e| * (10 : ℚ) ^ e := by
      rw [← abs_of_pos hs, ← abs_mul, abs_of_pos hs, sub_mul, div_mul_cancel₀ _ hs.ne']
    calc |rint (q / (10 : ℚ) ^ e) * (10 : ℚ) ^ e - q|
        = |rint (q / (10 : ℚ) ^ e) - q / (10 : ℚ) ^ e| * (10 : ℚ) ^ e := hdistance
      _ ≤ 1 / 2 * (q / 10 ^ 16) := mul_le_mul hnear hstep hs.le (by norm_num)
      _ = q * (1 / (2 * 10 ^ 16)) := by ring
      _ < q * (2 : ℚ) ^ (-54 : ℤ) := mul_lt_mul_of_pos_left (by norm_num) hq
  unfold withDigits
  dsimp only
  rw [if_pos hreads]
  rfl

theorem shortest_spec {q : ℚ} (hq : 0 < q) (hexact : Double.IsExact q) :
    (shortest q).WellFormed ∧ Double.ofRat (shortest q).value = .finite q := by
  have hsome : ((List.range' 1 17).findSome? (withDigits q)).isSome :=
    List.findSome?_isSome_iff.mpr ⟨17, by simp, withDigits_seventeen hq hexact⟩
  obtain ⟨d, hd⟩ := Option.isSome_iff_exists.mp hsome
  obtain ⟨k, -, hk⟩ := List.exists_of_findSome?_eq_some hd
  unfold shortest
  rw [hd]
  exact withDigits_spec hq hk

end DecimalDigits

end OpenBridge.Foundation
