import OpenBridge.Foundation.Double

/-!
# Foundation: binary64 arithmetic with NaN

A `double` as the JVM computes with it: a number or NaN.  The two zeros are one value, so a quotient
by zero has the sign of its dividend.
-/

namespace OpenBridge.Foundation

/-- A `double`; `none` is NaN. -/
abbrev F64 := Option Double

namespace F64

def ofRat (q : ℚ) : F64 := some (Double.ofRat q)

def ofInt (n : ℤ) : F64 := some (Double.ofInt n)

/-- `a + b`. -/
def add : F64 → F64 → F64
  | some (.finite a), some (.finite b) => ofRat (a + b)
  | some (.finite _), some (.infinite s) => some (.infinite s)
  | some (.infinite s), some (.finite _) => some (.infinite s)
  | some (.infinite s), some (.infinite t) => if s = t then some (.infinite s) else none
  | _, _ => none

/-- `-a`. -/
def neg : F64 → F64
  | some (.finite a) => some (.finite (-a))
  | some (.infinite s) => some (.infinite !s)
  | none => none

/-- `a - b`. -/
def sub (a b : F64) : F64 := add a (neg b)

/-- `a * b`. -/
def mul : F64 → F64 → F64
  | some (.finite a), some (.finite b) => ofRat (a * b)
  | some (.finite a), some (.infinite s) =>
      if a = 0 then none else some (.infinite (decide (a < 0) != s))
  | some (.infinite s), some (.finite b) =>
      if b = 0 then none else some (.infinite (decide (b < 0) != s))
  | some (.infinite s), some (.infinite t) => some (.infinite (s != t))
  | _, _ => none

/-- `a / b`. -/
def div : F64 → F64 → F64
  | some (.finite a), some (.finite b) =>
      if b = 0 then if a = 0 then none else some (.infinite (a < 0)) else ofRat (a / b)
  | some (.finite _), some (.infinite _) => some (.finite 0)
  | some (.infinite s), some (.finite b) => some (.infinite (decide (b < 0) != s))
  | _, _ => none

def abs (a : F64) : F64 := a.map Double.abs

/-- `a < b`. -/
def lt (a b : F64) : Bool :=
  match a, b with
  | some a, some b => a.lt b
  | _, _ => false

/-- `a <= b`. -/
def le (a b : F64) : Bool := lt a b ∨ (a = b ∧ a ≠ none)

def max (a b : F64) : F64 := if a = none ∨ b = none then none else if lt a b then b else a

def min (a b : F64) : F64 := if a = none ∨ b = none then none else if lt b a then b else a

/-- `Math.Round`: to the nearest integer, ties to even. -/
def round : F64 → F64
  | some (.finite a) => some (.finite (rint a))
  | a => a

/-- The cast of a double to a `long` on .NET 8. -/
def castLong (a : F64) : ℤ := (a.map Double.castLong).getD minLong

/-- `Double.isNaN(a) || Double.isInfinite(a)`. -/
def notFinite : F64 → Bool
  | some (.finite _) => false
  | _ => true

/-! ## Comparisons -/

variable {a b c : F64}

theorem lt_double_of_not_lt {x y z : Double} (h : x.lt y = false) (hz : x.lt z = true) :
    y.lt z = true := by
  cases x with
  | finite x =>
    cases y with
    | finite y =>
      cases z with
      | finite z =>
        simp only [Double.lt, decide_eq_false_iff_not, not_lt, decide_eq_true_eq] at h hz ⊢
        exact h.trans_lt hz
      | infinite s => exact hz
    | infinite s =>
      cases s with
      | true => cases z <;> simp_all [Double.lt]
      | false => cases h
  | infinite s =>
    cases s with
    | true =>
      cases y with
      | finite y => cases h
      | infinite t => cases t <;> simp_all [Double.lt]
    | false => cases z <;> simp [Double.lt] at hz

theorem eq_double_of_not_lt {x y : Double} (h : x.lt y = false) (h' : y.lt x = false) : x = y := by
  cases x with
  | finite x =>
    cases y with
    | finite y =>
      simp only [Double.lt, decide_eq_false_iff_not, not_lt] at h h'
      rw [le_antisymm h' h]
    | infinite s => cases s <;> simp_all [Double.lt]
  | infinite s =>
    cases y with
    | finite y => cases s <;> simp_all [Double.lt]
    | infinite t => cases s <;> cases t <;> simp_all [Double.lt]

theorem ne_nan_of_lt (h : lt a b = true) : a ≠ none ∧ b ≠ none := by
  cases a <;> cases b <;> simp_all [lt]

theorem lt_of_not_lt (hb : b ≠ none) (h : lt a b = false) (hc : lt a c = true) : lt b c = true := by
  obtain ⟨ha, hc'⟩ := ne_nan_of_lt hc
  obtain ⟨x, rfl⟩ := Option.ne_none_iff_exists'.mp ha
  obtain ⟨y, rfl⟩ := Option.ne_none_iff_exists'.mp hb
  obtain ⟨z, rfl⟩ := Option.ne_none_iff_exists'.mp hc'
  exact lt_double_of_not_lt h hc

theorem le_of_not_lt (ha : a ≠ none) (hb : b ≠ none) (h : lt a b = false) : le b a = true := by
  obtain ⟨x, rfl⟩ := Option.ne_none_iff_exists'.mp ha
  obtain ⟨y, rfl⟩ := Option.ne_none_iff_exists'.mp hb
  rw [le, decide_eq_true_eq]
  cases hlt : lt (some y) (some x) with
  | true => exact Or.inl rfl
  | false => exact Or.inr ⟨by rw [eq_double_of_not_lt h hlt], hb⟩

theorem min_ne_nan (ha : a ≠ none) (hb : b ≠ none) : min a b ≠ none := by
  rw [min, if_neg (by simp [ha, hb])]
  split <;> assumption

theorem min_lt_of_right (ha : a ≠ none) (h : lt b c = true) : lt (min a b) c = true := by
  have hb := (ne_nan_of_lt h).1
  rw [min, if_neg (by simp [ha, hb])]
  split
  · exact h
  · rename_i hlt
    exact lt_of_not_lt ha (by simpa using hlt) h

theorem ofRat_le {p q : ℚ} (hp : 0 ≤ p) (h : p ≤ q) : le (ofRat p) (ofRat q) = true :=
  le_of_not_lt (by simp [ofRat]) (by simp [ofRat]) (Double.ofRat_mono hp h)

theorem le_infinite (x : Double) : le (some x) (some (.infinite false)) = true := by
  refine le_of_not_lt (by simp) (by simp) ?_
  cases x <;> rfl

theorem div_le_div {p q c : ℚ} (hp : 0 ≤ p) (h : p ≤ q) (hc : 0 < c) :
    le (div (ofRat p) (some (.finite c))) (div (ofRat q) (some (.finite c))) = true := by
  have hle := Double.rounded_mono hp h
  have hfinite : ∀ a : ℚ, div (some (.finite a)) (some (.finite c)) = ofRat (a / c) :=
    fun a => if_neg hc.ne'
  have hinfinite : div (some (.infinite false)) (some (.finite c)) = some (.infinite false) := by
    simp [div, hc.le]
  unfold ofRat at hfinite ⊢
  rw [Double.ofRat_eq_rounded hp, Double.ofRat_eq_rounded (hp.trans h)]
  split
  · rename_i hbig
    rw [if_pos (hbig.trans hle), hinfinite]
    exact le_infinite _
  · split
    · rw [hfinite, hinfinite]
      exact le_infinite _
    · rw [hfinite, hfinite]
      exact ofRat_le (div_nonneg (Double.rounded_nonneg hp) hc.le)
        (div_le_div_of_nonneg_right hle hc.le)

theorem max_eq_right (h : le a b = true) : max a b = b := by
  unfold le at h
  rw [decide_eq_true_eq] at h
  rcases h with h | ⟨rfl, hne⟩
  · obtain ⟨ha, hb⟩ := ne_nan_of_lt h
    rw [max, if_neg (by simp [ha, hb]), if_pos h]
  · rw [max, if_neg (by simp [hne])]
    split <;> rfl

end F64

end OpenBridge.Foundation
