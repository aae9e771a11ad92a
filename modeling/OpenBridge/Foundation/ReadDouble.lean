import OpenBridge.Foundation.DecimalLayout
import OpenBridge.Foundation.RecordJson

/-!
# Foundation: a double is read back from its text

`Double.parseDouble` reads the number that `Double.toString` printed.
-/

namespace OpenBridge.Foundation

namespace DecimalDigits

variable {d : DecimalDigits}

/-! ## Digits -/

def AllDigits (cs : List Char) : Prop := ∀ c ∈ cs, c.isDigit = true

theorem allDigits_append {cs ds : List Char} (h : AllDigits cs) (h' : AllDigits ds) :
    AllDigits (cs ++ ds) :=
  List.forall_mem_append.mpr ⟨h, h'⟩

theorem allDigits_zeros (n : ℤ) : AllDigits (zeros n) := by
  intro c hc
  rw [List.eq_of_mem_replicate hc]
  decide

theorem digitOf_digit {c : Char} (h : c.isDigit = true) :
    digitOf 10 c = some (c.toNat - '0'.toNat) := by
  have hbound : c.toNat ≤ 57 := by
    simp only [Char.isDigit, Bool.and_eq_true, decide_eq_true_eq] at h
    exact h.2
  have hzero : '0'.toNat = 48 := rfl
  unfold digitOf
  dsimp only
  rw [if_pos h, if_pos (by omega)]

theorem takeDigits_append {ds rest : List Char} (h : AllDigits ds)
    (hrest : ∀ c ∈ rest.head?, digitOf 10 c = none) :
    takeDigits 10 (ds ++ rest) = (ds.map fun c => c.toNat - '0'.toNat, rest) := by
  induction ds with
  | nil =>
    cases rest with
    | nil => rfl
    | cons c cs =>
      rw [List.nil_append, takeDigits, hrest c rfl]
      rfl
  | cons c cs ih =>
    have hcs := ih fun c' hc' => h c' (List.mem_cons_of_mem _ hc')
    rw [List.cons_append, takeDigits, digitOf_digit (h c List.mem_cons_self)]
    dsimp only
    rw [hcs]
    rfl

theorem foldl_digits (ds : List Char) :
    (ds.map fun c => c.toNat - '0'.toNat).foldl (fun n v => 10 * n + v) 0 =
      Nat.ofDigitChars 10 ds 0 := by
  rw [Nat.ofDigitChars_eq_foldl, List.foldl_map]

theorem significand_point {ws fs rest : List Char} (hne : ws ≠ []) (hws : AllDigits ws)
    (hfs : AllDigits fs) (hrest : ∀ c ∈ rest.head?, digitOf 10 c = none) :
    significand 10 (ws ++ '.' :: (fs ++ rest)) =
      some (Nat.ofDigitChars 10 (ws ++ fs) 0, fs.length, rest) := by
  have hpoint : ∀ c ∈ ('.' :: (fs ++ rest)).head?, digitOf 10 c = none := by
    intro c hc
    obtain rfl := Option.some.inj hc
    rfl
  unfold significand
  rw [takeDigits_append hws hpoint]
  simp only [takeDigits_append hfs hrest]
  rw [if_neg (by simp [hne]), ← List.map_append, foldl_digits, List.length_map]

/-! ## Exponents -/

theorem foldl_cast (ds : List ℕ) (n : ℕ) :
    List.foldl (fun (n : ℤ) v => 10 * n + v) n (do let v ← ds; pure (v : ℤ)) =
      (ds.foldl (fun n v => 10 * n + v) n : ℕ) := by
  have hmap : (do let v ← ds; pure (v : ℤ)) = ds.map Nat.cast := List.flatMap_pure_eq_map ..
  rw [hmap, List.foldl_map]
  clear hmap
  induction ds generalizing n with
  | nil => rfl
  | cons v rest ih =>
    have hstep : 10 * (n : ℤ) + v = ((10 * n + v : ℕ) : ℤ) := by push_cast; rfl
    rw [List.foldl_cons, List.foldl_cons, hstep, ih]

theorem takeDigits_natRepr (k : ℕ) : takeDigits 10 (Nat.repr k).toList =
    ((Nat.repr k).toList.map fun c => c.toNat - '0'.toNat, []) := by
  have h := @takeDigits_append (Nat.repr k).toList []
    (fun c hc => KeyText.isDigit_of_mem_natRepr hc) (by simp)
  rwa [List.append_nil] at h

theorem value_natRepr (k : ℕ) :
    List.foldl (fun (n : ℤ) v => 10 * n + v) 0
      (do let v ← (Nat.repr k).toList.map fun c => c.toNat - '0'.toNat; pure (v : ℤ)) = k := by
  have h := foldl_cast ((Nat.repr k).toList.map fun c => c.toNat - '0'.toNat) 0
  rw [foldl_digits, Nat.toList_repr, Nat.ofDigitChars_ten_toDigits] at h
  rw [Nat.toList_repr]
  exact h

theorem exponent_toString (e : ℤ) :
    exponent 'e' ('E' :: (toString e).toList) = some (some e, []) := by
  have hne (k : ℕ) : (Nat.repr k).toList.map (fun c => c.toNat - '0'.toNat) ≠ [] := by
    rw [Nat.toList_repr]
    simp [Nat.toDigits_ne_nil]
  obtain ⟨k, ⟨rfl, hk⟩ | ⟨rfl, -, hk⟩⟩ := KeyText.toString_cases e
  · have htake := takeDigits_natRepr k
    have hvalue := value_natRepr k
    have hnil := hne k
    have hfirst : ∀ c ∈ (Nat.repr k).toList, c.isDigit = true := fun c hc =>
      KeyText.isDigit_of_mem_natRepr hc
    rw [hk]
    generalize (Nat.repr k).toList = cs at htake hvalue hnil hfirst
    unfold exponent
    dsimp only
    rw [if_neg (by decide)]
    split
    · exact absurd (hfirst '-' List.mem_cons_self) (by decide)
    · exact absurd (hfirst '+' List.mem_cons_self) (by decide)
    · simp only [htake, hvalue]
      rw [if_neg hnil]
      rfl
  · have hlist : ("-" ++ Nat.repr k).toList = '-' :: (Nat.repr k).toList := by
      rw [String.toList_append]
      rfl
    rw [hk, hlist]
    unfold exponent
    dsimp only
    rw [if_neg (by decide)]
    simp only [takeDigits_natRepr, value_natRepr]
    rw [if_neg (hne k)]
    rfl

theorem shown_of_isDigit {c : Char} (h : c.isDigit = true) : 0x20 < c.toNat := by
  simp only [Char.isDigit, Bool.and_eq_true, decide_eq_true_eq] at h
  have hlow : 48 ≤ c.toNat := h.1
  omega

theorem shown_toString (e : ℤ) : ∀ c ∈ (toString e).toList, 0x20 < c.toNat := by
  obtain ⟨k, ⟨-, hk⟩ | ⟨-, -, hk⟩⟩ := KeyText.toString_cases e
  · rw [hk]
    exact fun c hc => shown_of_isDigit (KeyText.isDigit_of_mem_natRepr hc)
  · rw [hk, String.toList_append]
    refine List.forall_mem_append.mpr ⟨fun c hc => ?_, fun c hc => ?_⟩
    · rw [List.mem_singleton.mp hc]
      decide
    · exact shown_of_isDigit (KeyText.isDigit_of_mem_natRepr hc)

/-! ## The layout of Java -/

/-- A text of digits around a point, with an exponent or without, that stands for a number. -/
structure Parts (whole fraction rest : List Char) (exp : Option ℤ) (body : List Char) (x : ℚ) :
    Prop where
  body_eq : body = whole ++ '.' :: (fraction ++ rest)
  whole_ne : whole ≠ []
  whole_digits : AllDigits whole
  fraction_digits : AllDigits fraction
  rest_stops : ∀ c ∈ rest.head?, digitOf 10 c = none
  rest_shown : ∀ c ∈ rest, 0x20 < c.toNat
  exponent_eq : exponent 'e' rest = some (exp, [])
  value_eq : (Nat.ofDigitChars 10 (whole ++ fraction) 0 : ℕ) *
    (10 : ℚ) ^ (exp.getD 0 - fraction.length) = x

theorem ofDigitChars_zeros (ds : List Char) (n : ℕ) :
    (Nat.ofDigitChars 10 (ds ++ List.replicate n '0') 0 : ℕ) =
      (Nat.ofDigitChars 10 ds 0 : ℕ) * (10 : ℚ) ^ (n : ℤ) := by
  rw [Nat.ofDigitChars_append, Nat.ofDigitChars_replicate_zero, zpow_natCast]
  push_cast
  ring

theorem zpow_ten_mul {a b c : ℤ} (h : a + b = c) (x : ℚ) :
    x * (10 : ℚ) ^ a * (10 : ℚ) ^ b = x * (10 : ℚ) ^ c := by
  rw [mul_assoc, ← zpow_add₀ (by norm_num), h]

theorem parts_positional (h : d.WellFormed) :
    ∃ whole fraction, Parts whole fraction [] none
      (if (d.digits.length : ℤ) ≤ d.point then positional d ++ ['.', '0'] else positional d)
      d.value := by
  have hdigits : AllDigits d.digits := h.digits
  unfold positional
  dsimp only
  split
  · rename_i hle
    refine ⟨d.digits ++ zeros (d.point - d.digits.length), ['0'], rfl, by simp [h.nonempty],
      allDigits_append hdigits (allDigits_zeros _), by simp [AllDigits, Char.isDigit], by simp,
      by simp, rfl, ?_⟩
    have hone : ['0'] = List.replicate 1 '0' := rfl
    rw [hone, ofDigitChars_zeros, zeros, ofDigitChars_zeros, value, List.length_replicate]
    refine (zpow_ten_mul rfl _).trans (zpow_ten_mul ?_ _)
    simp only [Option.getD_none]
    push_cast
    omega
  · rename_i hlong
    split
    · rename_i hpos
      have htake : d.digits.take d.point.toNat ≠ [] := by
        rw [Ne, List.take_eq_nil_iff, not_or]
        exact ⟨by omega, h.nonempty⟩
      refine ⟨d.digits.take d.point.toNat, d.digits.drop d.point.toNat, by rw [List.append_nil],
        htake, fun c hc => hdigits c (List.mem_of_mem_take hc),
        fun c hc => hdigits c (List.mem_of_mem_drop hc), by simp, by simp, rfl, ?_⟩
      rw [List.take_append_drop, List.length_drop, value]
      congr 2
      simp only [Option.getD_none]
      omega
    · rename_i hneg
      refine ⟨['0'], zeros (-d.point) ++ d.digits, by simp, by simp,
        by simp [AllDigits, Char.isDigit], allDigits_append (allDigits_zeros _) hdigits, by simp,
        by simp, rfl, ?_⟩
      have hzeros : ['0'] ++ (zeros (-d.point) ++ d.digits) =
          List.replicate (1 + (-d.point).toNat) '0' ++ d.digits := by
        rw [← List.append_assoc, List.replicate_add]
        rfl
      rw [hzeros, Nat.ofDigitChars_append, Nat.ofDigitChars_replicate_zero, Nat.mul_zero,
        List.length_append, zeros, List.length_replicate, value]
      congr 2
      simp only [Option.getD_none]
      push_cast
      omega

theorem parts_exponent (h : d.WellFormed) :
    ∃ whole fraction, Parts whole fraction ('E' :: (toString (d.point - 1)).toList)
      (some (d.point - 1))
      ((if d.digits.length = 1 then d.digits ++ ['.', '0'] else mantissa d.digits) ++
        'E' :: (toString (d.point - 1)).toList) d.value := by
  have hdigits : AllDigits d.digits := h.digits
  have hstops : ∀ c ∈ ('E' :: (toString (d.point - 1)).toList).head?, digitOf 10 c = none := by
    intro c hc
    obtain rfl := Option.some.inj hc
    rfl
  have hshown : ∀ c ∈ 'E' :: (toString (d.point - 1)).toList, 0x20 < c.toNat := by
    intro c hc
    rcases List.mem_cons.mp hc with rfl | hc
    · decide
    · exact shown_toString _ c hc
  split
  · rename_i hone
    refine ⟨d.digits, ['0'], by simp, h.nonempty, hdigits, by simp [AllDigits, Char.isDigit], hstops,
      hshown, exponent_toString _, ?_⟩
    have hzero : ['0'] = List.replicate 1 '0' := rfl
    rw [hzero, ofDigitChars_zeros, List.length_replicate, value, hone]
    refine zpow_ten_mul ?_ _
    simp only [Option.getD_some]
    push_cast
    ring
  · rename_i hmany
    obtain ⟨digits, point⟩ := d
    match digits with
    | [] => exact absurd rfl h.nonempty
    | [a] => exact absurd rfl hmany
    | a :: b :: rest =>
      refine ⟨[a], b :: rest, by simp [mantissa], by simp,
        fun c hc => hdigits c (by simp_all), fun c hc => hdigits c (List.mem_cons_of_mem _ hc), hstops,
        hshown, exponent_toString _, ?_⟩
      rw [value]
      simp only [Option.getD_some, List.singleton_append, List.length_cons]
      congr 2
      push_cast
      ring

theorem parts_javaBody (h : d.WellFormed) :
    ∃ whole fraction rest exp, Parts whole fraction rest exp (javaBody d) d.value := by
  unfold javaBody
  split
  · obtain ⟨whole, fraction, hparts⟩ := parts_positional h
    exact ⟨whole, fraction, _, _, hparts⟩
  · obtain ⟨whole, fraction, hparts⟩ := parts_exponent h
    exact ⟨whole, fraction, _, _, hparts⟩

theorem toLower_of_isDigit {c : Char} (h : c.isDigit = true) : c.toLower = c := by
  simp only [Char.isDigit, Bool.and_eq_true, decide_eq_true_eq] at h
  have hhigh : c.toNat ≤ 57 := h.2
  refine dif_neg ?_
  rintro ⟨hlow, -⟩
  rw [ge_iff_le, UInt32.le_iff_toNat_le] at hlow
  have hlow' : 65 ≤ c.toNat := hlow
  omega

theorem Parts.not_hex {whole fraction rest : List Char} {exp : Option ℤ} {body : List Char} {x : ℚ}
    (h : Parts whole fraction rest exp body x) :
    (body.take 2).map Char.toLower ≠ ['0', 'x'] := by
  have hne := h.whole_ne
  have hdigits := h.whole_digits
  rw [h.body_eq]
  match whole with
  | [] => exact absurd rfl hne
  | [a] => simp
  | a :: b :: rest' =>
    have hb := hdigits b (by simp)
    simp
    intro _ hx
    rw [toLower_of_isDigit hb] at hx
    rw [hx] at hb
    exact absurd hb (by decide)

theorem Parts.shown {whole fraction rest : List Char} {exp : Option ℤ} {body : List Char} {x : ℚ}
    (h : Parts whole fraction rest exp body x) : ∀ c ∈ body, 0x20 < c.toNat := by
  rw [h.body_eq]
  refine List.forall_mem_append.mpr ⟨fun c hc => shown_of_isDigit (h.whole_digits c hc), ?_⟩
  refine List.forall_mem_cons.mpr ⟨by decide, ?_⟩
  exact List.forall_mem_append.mpr
    ⟨fun c hc => shown_of_isDigit (h.fraction_digits c hc), h.rest_shown⟩

theorem Parts.head {whole fraction rest : List Char} {exp : Option ℤ} {body : List Char} {x : ℚ}
    (h : Parts whole fraction rest exp body x) :
    ∃ c tail, body = c :: tail ∧ c.isDigit = true := by
  have hne := h.whole_ne
  have hdigits := h.whole_digits
  have hbody := h.body_eq
  cases whole with
  | nil => exact absurd rfl hne
  | cons c cs => exact ⟨c, _, hbody, hdigits c List.mem_cons_self⟩

theorem parseDouble_parts {whole fraction rest : List Char} {exp : Option ℤ} {body : List Char}
    {x : ℚ} (h : Parts whole fraction rest exp body x) (negative : Bool) :
    parseDouble (String.ofList (if negative then '-' :: body else body)) =
      some (some (Double.ofRat (if negative then -x else x))) := by
  have htrim : trimWhere (fun c => c.toNat ≤ 0x20)
      (String.ofList (if negative then '-' :: body else body)) =
        String.ofList (if negative then '-' :: body else body) := by
    refine trimWhere_of_all fun c hc => ?_
    rw [String.toList_ofList] at hc
    rw [decide_eq_false_iff_not, not_le]
    cases negative with
    | false => exact h.shown c hc
    | true =>
      rcases List.mem_cons.mp hc with rfl | hc
      · decide
      · exact h.shown c hc
  have hhex := h.not_hex
  obtain ⟨c, tail, hhead, hdigit⟩ := h.head
  have hsignificand : significand 10 body =
      some (Nat.ofDigitChars 10 (whole ++ fraction) 0, fraction.length, rest) := by
    rw [h.body_eq]
    exact significand_point h.whole_ne h.whole_digits h.fraction_digits h.rest_stops
  have hnan : body ≠ "NaN".toList := by
    rw [hhead]
    intro heq
    rw [(List.cons.inj (heq.trans (show "NaN".toList = ['N', 'a', 'N'] from rfl))).1] at hdigit
    exact absurd hdigit (by decide)
  have hinfinity : body ≠ "Infinity".toList := by
    rw [hhead]
    intro heq
    rw [(List.cons.inj (heq.trans
      (show "Infinity".toList = 'I' :: "nfinity".toList from rfl))).1] at hdigit
    exact absurd hdigit (by decide)
  have hsigned : ∀ r, body ≠ '-' :: r ∧ body ≠ '+' :: r := by
    intro r
    rw [hhead]
    constructor
    · intro heq
      rw [(List.cons.inj heq).1] at hdigit
      exact absurd hdigit (by decide)
    · intro heq
      rw [(List.cons.inj heq).1] at hdigit
      exact absurd hdigit (by decide)
  unfold parseDouble
  rw [htrim, String.toList_ofList]
  cases negative with
  | true =>
    simp only [if_true]
    rw [if_neg hnan, if_neg hinfinity, if_neg hhex, hsignificand, Option.bind_eq_bind,
      Option.bind_some]
    dsimp only
    rw [h.exponent_eq, Option.bind_eq_bind, Option.bind_some]
    dsimp only
    rw [if_pos (decide_eq_true (Or.inl rfl)), h.value_eq]
  | false =>
    simp only [Bool.false_eq_true, if_false]
    split
    · exact absurd rfl (hsigned _).1
    · exact absurd rfl (hsigned _).2
    · dsimp only
      rw [if_neg hnan, if_neg hinfinity, if_neg hhex, hsignificand, Option.bind_eq_bind,
        Option.bind_some]
      dsimp only
      rw [h.exponent_eq, Option.bind_eq_bind, Option.bind_some]
      dsimp only
      rw [if_pos (decide_eq_true (Or.inl rfl)), h.value_eq]
      rfl

end DecimalDigits

open DecimalDigits in
theorem parseDouble_javaText {q : ℚ} (h : Double.IsExact q) :
    parseDouble (javaText (.finite q)) = some (some (.finite q)) := by
  by_cases hzero : q = 0
  · subst hzero
    decide +kernel
  · have hparts {p : ℚ} (hp : 0 < p) (hexact : Double.IsExact p) := parts_javaBody
      (shortest_spec hp hexact).1
    have htext : javaText (.finite q) =
        String.ofList (if decide (q < 0) then '-' :: javaBody (shortest |q|)
          else javaBody (shortest |q|)) := by
      rw [← String.toList_inj, toList_javaText hzero, String.toList_ofList]
      unfold signed
      simp only [decide_eq_true_eq]
    have hliteral := Double.ofRat_literal h
    unfold Double.literal at hliteral
    rw [if_neg hzero] at hliteral
    by_cases hneg : q < 0
    · obtain ⟨whole, fraction, rest, exp, hp⟩ := hparts (neg_pos.mpr hneg) h.neg
      rw [if_pos hneg] at hliteral
      rw [htext, abs_of_neg hneg, parseDouble_parts hp, if_pos (decide_eq_true hneg), hliteral]
    · have hpos := lt_of_le_of_ne (not_lt.mp hneg) (Ne.symm hzero)
      obtain ⟨whole, fraction, rest, exp, hp⟩ := hparts hpos h
      rw [if_neg hneg] at hliteral
      rw [htext, abs_of_pos hpos, parseDouble_parts hp, if_neg (by simpa using hneg), hliteral]

end OpenBridge.Foundation
