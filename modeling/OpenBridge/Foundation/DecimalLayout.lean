import OpenBridge.Foundation.KeyText
import OpenBridge.Foundation.ShortestDigits

/-!
# Foundation: reading the layout of a decimal number

The layouts of a number differ in where the point stands and in how an exponent is written.
-/

namespace OpenBridge.Foundation

/-- `Integer.parseInt` and `int.Parse`: digits after an optional sign. -/
def parseInt : List Char → Option ℤ
  | '-' :: rest => (parseDigits rest).map fun n : ℕ => -(n : ℤ)
  | '+' :: rest => (parseDigits rest).map fun n : ℕ => (n : ℤ)
  | cs => (parseDigits cs).map fun n : ℕ => (n : ℤ)

namespace DecimalDigits

def significant (mant : List Char) (exp : ℤ) : DecimalDigits :=
  let digitsRaw := mant.filter (· ≠ '.')
  let intLen : ℤ := (if '.' ∈ mant then mant.idxOf '.' else mant.length : ℕ) + exp
  let noLead := digitsRaw.dropWhile (· = '0')
  let leadingZeros : ℤ := digitsRaw.length - noLead.length
  ⟨stripTrailing noLead, intLen - leadingZeros⟩

/-- The mantissa stands before a marker, and the exponent after it; `none` when the exponent is not
an integer. -/
def read (marker : Char) (cs : List Char) : Option DecimalDigits :=
  match cs.dropWhile (· ≠ marker) with
  | [] => some (significant cs 0)
  | _ :: rest => (parseInt rest).map (significant (cs.takeWhile (· ≠ marker)))

variable {d : DecimalDigits} {marker : Char}

/-! ## Mantissas -/

theorem significant_eq {mant : List Char} {exp : ℤ} (before after : ℕ) (h : d.WellFormed)
    (hraw : mant.filter (· ≠ '.') =
      List.replicate before '0' ++ (d.digits ++ List.replicate after '0'))
    (hlength : ((if '.' ∈ mant then mant.idxOf '.' else mant.length : ℕ) : ℤ) + exp =
      before + d.point) : significant mant exp = d := by
  have hfirst : ∀ c ∈ (d.digits ++ List.replicate after '0').head?, c ≠ '0' := by
    rw [List.head?_append_of_ne_nil _ h.nonempty]
    exact h.first
  unfold significant
  dsimp only
  rw [hraw, hlength, dropWhile_replicate_append before hfirst,
    stripTrailing_append_replicate after h.last, List.length_append, List.length_replicate]
  obtain ⟨digits, point⟩ := d
  dsimp only
  congr 1
  push_cast
  ring

theorem WellFormed.point_not_mem (h : d.WellFormed) : '.' ∉ d.digits := fun hmem =>
  absurd (h.digits _ hmem) (by decide)

theorem filter_point {cs : List Char} (h : '.' ∉ cs) : cs.filter (· ≠ '.') = cs :=
  List.filter_eq_self.mpr fun _ hc => decide_eq_true fun heq => h (heq ▸ hc)

theorem point_not_mem_zeros (n : ℤ) : '.' ∉ zeros n := by
  unfold zeros
  simp

theorem idxOf_point {before after : List Char} (h : '.' ∉ before) :
    (before ++ '.' :: after).idxOf '.' = before.length := by
  rw [List.idxOf_append_of_notMem h, List.idxOf_cons_self, Nat.add_zero]

theorem significant_positional (h : d.WellFormed) : significant (positional d) 0 = d := by
  have hdigits := h.point_not_mem
  unfold positional
  dsimp only
  split
  · rename_i hle
    have hnot : '.' ∉ d.digits ++ zeros (d.point - d.digits.length) := by
      simp [hdigits, point_not_mem_zeros]
    refine significant_eq 0 (d.point - d.digits.length).toNat h ?_ ?_
    · rw [filter_point hnot]
      rfl
    · rw [if_neg hnot, List.length_append, zeros, List.length_replicate]
      push_cast
      omega
  · split
    · rename_i hlong hpos
      have htake : '.' ∉ d.digits.take d.point.toNat :=
        fun hmem => hdigits (List.mem_of_mem_take hmem)
      have hdrop : '.' ∉ d.digits.drop d.point.toNat :=
        fun hmem => hdigits (List.mem_of_mem_drop hmem)
      refine significant_eq 0 0 h ?_ ?_
      · rw [List.filter_append, List.filter_cons_of_neg (by simp), filter_point htake,
          filter_point hdrop, List.take_append_drop]
        simp
      · rw [if_pos (by simp), idxOf_point htake, List.length_take]
        omega
    · rename_i hlong hpos
      refine significant_eq (1 + (-d.point).toNat) 0 h ?_ ?_
      · rw [List.cons_append, List.cons_append, List.filter_cons_of_pos (by decide),
          List.filter_cons_of_neg (by simp), List.filter_append, filter_point hdigits,
          filter_point (point_not_mem_zeros _), zeros, Nat.add_comm, List.replicate_succ]
        simp
      · have hzero : '.' ∉ ['0'] := by decide
        have hidx : (['0'] ++ '.' :: (zeros (-d.point) ++ d.digits)).idxOf '.' = 1 :=
          idxOf_point hzero
        rw [if_pos (by simp)]
        simp only [List.cons_append, List.nil_append] at hidx ⊢
        rw [hidx]
        push_cast
        omega

theorem significant_integer (h : d.WellFormed) (hle : (d.digits.length : ℤ) ≤ d.point) :
    significant (positional d ++ ['.', '0']) 0 = d := by
  have hnot : '.' ∉ d.digits ++ zeros (d.point - d.digits.length) := by
    simp [h.point_not_mem, point_not_mem_zeros]
  unfold positional
  dsimp only
  rw [if_pos hle]
  refine significant_eq 0 ((d.point - d.digits.length).toNat + 1) h ?_ ?_
  · rw [List.filter_append, filter_point hnot, zeros, List.replicate_succ']
    simp
  · rw [if_pos (by simp), idxOf_point hnot, List.length_append, zeros, List.length_replicate]
    push_cast
    omega

theorem significant_mantissa (h : d.WellFormed) :
    significant (mantissa d.digits) (d.point - 1) = d := by
  have hdigits := h.point_not_mem
  match hds : d.digits with
  | [] => exact absurd hds h.nonempty
  | [c] =>
    rw [hds] at hdigits
    refine significant_eq 0 0 h ?_ ?_
    · rw [hds, mantissa, filter_point hdigits]
      rfl
    · rw [mantissa, if_neg hdigits]
      simp
  | c :: c' :: rest =>
    rw [hds] at hdigits
    have hc : '.' ∉ [c] := fun hmem =>
      hdigits (List.mem_cons.mpr (Or.inl (List.mem_singleton.mp hmem)))
    have hrest : '.' ∉ c' :: rest := fun hmem => hdigits (List.mem_cons_of_mem _ hmem)
    have hmantissa : mantissa (c :: c' :: rest) = [c] ++ '.' :: (c' :: rest) := rfl
    rw [hmantissa]
    refine significant_eq 0 0 h ?_ ?_
    · rw [hds, List.filter_append, filter_point hc, List.filter_cons_of_neg (by simp),
        filter_point hrest]
      simp
    · rw [if_pos (by simp), idxOf_point hc]
      simp

theorem significant_digit (h : d.WellFormed) (hone : d.digits.length = 1) :
    significant (d.digits ++ ['.', '0']) (d.point - 1) = d := by
  refine significant_eq 0 1 h ?_ ?_
  · rw [List.filter_append, filter_point h.point_not_mem]
    rfl
  · rw [if_pos (by simp), idxOf_point h.point_not_mem, hone]
    push_cast
    ring

/-! ## Exponents -/

theorem parseDigits_eq {cs : List Char} (hne : cs ≠ []) (h : ∀ c ∈ cs, c.isDigit = true) :
    parseDigits cs = some (Nat.ofDigitChars 10 cs 0) := by
  rw [parseDigits, if_neg, Nat.ofDigitChars_eq_foldl]
  rw [not_or]
  exact ⟨hne, not_not.mpr (List.all_eq_true.mpr h)⟩

theorem isDigit_of_mem_toDigits {n : ℕ} : ∀ c ∈ Nat.toDigits 10 n, c.isDigit = true :=
  fun _ hc => Nat.isDigit_of_mem_toDigits (by norm_num) (by norm_num) hc

theorem parseDigits_zeros (k : ℤ) (n : ℕ) :
    parseDigits (zeros k ++ (toString n).toList) = some n := by
  have hlist : (toString n).toList = Nat.toDigits 10 n := Nat.toList_repr
  rw [hlist, parseDigits_eq]
  · rw [zeros, Nat.ofDigitChars_append, Nat.ofDigitChars_replicate_zero, Nat.mul_zero,
      Nat.ofDigitChars_ten_toDigits]
  · simp [Nat.toDigits_ne_nil]
  · refine List.forall_mem_append.mpr ⟨fun c hc => ?_, isDigit_of_mem_toDigits⟩
    rw [List.eq_of_mem_replicate hc]
    decide

theorem parseInt_sign (z k : ℤ) :
    parseInt ((if z < 0 then '-' else '+') :: (zeros k ++ (toString z.natAbs).toList)) = some z := by
  split
  · rw [parseInt, parseDigits_zeros]
    simp only [Option.map_some, Option.some.injEq]
    omega
  · rw [parseInt, parseDigits_zeros]
    simp only [Option.map_some, Option.some.injEq]
    omega

theorem parseInt_toString (z : ℤ) : parseInt (toString z).toList = some z := by
  have hdigits (k : ℕ) : parseDigits (Nat.repr k).toList = some k := by
    have hzeros := parseDigits_zeros 0 k
    rwa [zeros, Int.toNat_zero, List.replicate_zero, List.nil_append] at hzeros
  obtain ⟨k, ⟨rfl, hk⟩ | ⟨rfl, -, hk⟩⟩ := KeyText.toString_cases z
  · rw [hk]
    have hparsed := hdigits k
    have hfirst : ∀ c ∈ (Nat.repr k).toList, c.isDigit = true := fun c hc =>
      KeyText.isDigit_of_mem_natRepr hc
    generalize (Nat.repr k).toList = cs at hparsed hfirst
    unfold parseInt
    split
    · exact absurd (hfirst '-' List.mem_cons_self) (by decide)
    · exact absurd (hfirst '+' List.mem_cons_self) (by decide)
    · rw [hparsed]
      rfl
  · have hlist : ("-" ++ Nat.repr k).toList = '-' :: (Nat.repr k).toList := by
      rw [String.toList_append]
      rfl
    rw [hk, hlist, parseInt, hdigits]
    rfl

/-! ## Whole numbers -/

theorem read_of_not_mem {cs : List Char} (h : marker ∉ cs) :
    read marker cs = some (significant cs 0) := by
  have hdrop : cs.dropWhile (· ≠ marker) = [] :=
    List.dropWhile_eq_nil_iff.mpr fun c hc => decide_eq_true fun heq => h (heq ▸ hc)
  unfold read
  rw [hdrop]

theorem read_marker {mant rest : List Char} (h : marker ∉ mant) :
    read marker (mant ++ marker :: rest) = (parseInt rest).map (significant mant) := by
  have hall : ∀ c ∈ mant, decide (c ≠ marker) = true := fun c hc =>
    decide_eq_true fun heq => h (heq ▸ hc)
  have hdrop : (mant ++ marker :: rest).dropWhile (· ≠ marker) = marker :: rest := by
    rw [List.dropWhile_append_of_pos hall]
    simp
  have htake : (mant ++ marker :: rest).takeWhile (· ≠ marker) = mant := by
    rw [List.takeWhile_append_of_pos hall]
    simp
  unfold read
  rw [hdrop, htake]

theorem mem_positional (h : d.WellFormed) {c : Char} (hc : c ∈ positional d) :
    c.isDigit = true ∨ c = '.' := by
  have hzeros : ∀ n : ℤ, ∀ c ∈ zeros n, c.isDigit = true := by
    intro n c hc
    rw [List.eq_of_mem_replicate hc]
    decide
  unfold positional at hc
  dsimp only at hc
  split at hc
  · rcases List.mem_append.mp hc with hc | hc
    · exact Or.inl (h.digits c hc)
    · exact Or.inl (hzeros _ c hc)
  · split at hc
    · rcases List.mem_append.mp hc with hc | hc
      · exact Or.inl (h.digits c (List.mem_of_mem_take hc))
      · rcases List.mem_cons.mp hc with hc | hc
        · exact Or.inr hc
        · exact Or.inl (h.digits c (List.mem_of_mem_drop hc))
    · rw [List.cons_append, List.cons_append] at hc
      rcases List.mem_cons.mp hc with rfl | hc
      · exact Or.inl (by decide)
      · rcases List.mem_cons.mp hc with hc | hc
        · exact Or.inr hc
        · rcases List.mem_append.mp hc with hc | hc
          · exact Or.inl (hzeros _ c hc)
          · exact Or.inl (h.digits c hc)

theorem mem_mantissa (h : d.WellFormed) {c : Char} (hc : c ∈ mantissa d.digits) :
    c.isDigit = true ∨ c = '.' := by
  have hdigit := h.digits
  generalize d.digits = ds at hc hdigit
  match ds with
  | [] => exact absurd hc List.not_mem_nil
  | [a] => exact Or.inl (hdigit c hc)
  | a :: b :: rest =>
    unfold mantissa at hc
    rcases List.mem_cons.mp hc with rfl | hc
    · exact Or.inl (hdigit _ List.mem_cons_self)
    · rcases List.mem_cons.mp hc with hc | hc
      · exact Or.inr hc
      · exact Or.inl (hdigit c (List.mem_cons_of_mem _ hc))

/-! ## The three layouts -/

def es6Body (d : DecimalDigits) : List Char :=
  if -6 < d.point ∧ d.point ≤ 21 then positional d
  else
    mantissa d.digits ++
      'e' :: (if d.point - 1 < 0 then '-' else '+') :: (toString (d.point - 1).natAbs).toList

def invariantBody (d : DecimalDigits) : List Char :=
  let exponentDigits := (toString (d.point - 1).natAbs).toList
  if -4 < d.point ∧ d.point ≤ max 15 d.digits.length then positional d
  else mantissa d.digits ++ 'E' :: (if d.point - 1 < 0 then '-' else '+') ::
    (zeros (2 - exponentDigits.length) ++ exponentDigits)

def javaBody (d : DecimalDigits) : List Char :=
  if -3 < d.point ∧ d.point ≤ 7 then
    if (d.digits.length : ℤ) ≤ d.point then positional d ++ ['.', '0'] else positional d
  else
    (if d.digits.length = 1 then d.digits ++ ['.', '0'] else mantissa d.digits) ++
      'E' :: (toString (d.point - 1)).toList

theorem not_mem_of_digits {cs : List Char} (h : ∀ c ∈ cs, c.isDigit = true ∨ c = '.')
    (hmarker : marker.isDigit = false ∧ marker ≠ '.') : marker ∉ cs := by
  intro hmem
  rcases h marker hmem with hdigit | hpoint
  · rw [hmarker.1] at hdigit
    cases hdigit
  · exact hmarker.2 hpoint

theorem read_es6Body (h : d.WellFormed) : read 'e' (es6Body d) = some d := by
  unfold es6Body
  split
  · rw [read_of_not_mem (not_mem_of_digits (fun _ => mem_positional h) (by decide)),
      significant_positional h]
  · have hexponent := parseInt_sign (d.point - 1) 0
    rw [zeros, Int.toNat_zero, List.replicate_zero, List.nil_append] at hexponent
    rw [read_marker (not_mem_of_digits (fun _ => mem_mantissa h) (by decide)), hexponent,
      Option.map_some, significant_mantissa h]

theorem read_invariantBody (h : d.WellFormed) : read 'E' (invariantBody d) = some d := by
  unfold invariantBody
  dsimp only
  split
  · rw [read_of_not_mem (not_mem_of_digits (fun _ => mem_positional h) (by decide)),
      significant_positional h]
  · rw [read_marker (not_mem_of_digits (fun _ => mem_mantissa h) (by decide)), parseInt_sign,
      Option.map_some, significant_mantissa h]

theorem read_javaBody (h : d.WellFormed) : read 'E' (javaBody d) = some d := by
  have hzero : ∀ c ∈ ['.', '0'], c.isDigit = true ∨ c = '.' := by simp
  unfold javaBody
  split
  · split
    · rename_i hle
      have hmem : ∀ c ∈ positional d ++ ['.', '0'], c.isDigit = true ∨ c = '.' :=
        List.forall_mem_append.mpr ⟨fun _ => mem_positional h, hzero⟩
      rw [read_of_not_mem (not_mem_of_digits hmem (by decide)), significant_integer h hle]
    · rw [read_of_not_mem (not_mem_of_digits (fun _ => mem_positional h) (by decide)),
        significant_positional h]
  · split
    · rename_i hone
      have hmem : ∀ c ∈ d.digits ++ ['.', '0'], c.isDigit = true ∨ c = '.' :=
        List.forall_mem_append.mpr ⟨fun c hc => Or.inl (h.digits c hc), hzero⟩
      rw [read_marker (not_mem_of_digits hmem (by decide)), parseInt_toString, Option.map_some,
        significant_digit h hone]
    · rw [read_marker (not_mem_of_digits (fun _ => mem_mantissa h) (by decide)),
        parseInt_toString, Option.map_some, significant_mantissa h]

def signed (q : ℚ) (body : List Char) : List Char := if q < 0 then '-' :: body else body

theorem toList_es6Text {q : ℚ} (hq : q ≠ 0) :
    (es6Text (.finite q)).toList = signed q (es6Body (shortest |q|)) := by
  unfold es6Text
  dsimp only
  rw [if_neg hq, String.toList_ofList]
  rfl

theorem toList_invariantText {q : ℚ} (hq : q ≠ 0) :
    (invariantText (.finite q)).toList = signed q (invariantBody (shortest |q|)) := by
  unfold invariantText
  dsimp only
  rw [if_neg hq, String.toList_ofList]
  rfl

theorem toList_javaText {q : ℚ} (hq : q ≠ 0) :
    (javaText (.finite q)).toList = signed q (javaBody (shortest |q|)) := by
  unfold javaText
  dsimp only
  rw [if_neg hq, String.toList_ofList]
  rfl

end DecimalDigits

end OpenBridge.Foundation
