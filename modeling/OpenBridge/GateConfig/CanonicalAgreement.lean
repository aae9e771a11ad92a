import OpenBridge.Foundation.DecimalLayout
import OpenBridge.GateConfig.CanonicalJson

/-!
# Gate configuration: canonical numbers

Each service prints a number with its platform's layout, takes the digits and the point from it and
lays them out as ES6 does.
-/

namespace OpenBridge.GateConfig

open OpenBridge.Foundation
open OpenBridge.Foundation.DecimalDigits

namespace CanonicalJson

def layout (d : DecimalDigits) : List Char :=
  let n := d.point
  let k : ℤ := d.digits.length
  if k ≤ n ∧ n ≤ 21 then d.digits ++ zeros (n - k)
  else if 0 < n ∧ n ≤ 21 then d.digits.take n.toNat ++ '.' :: d.digits.drop n.toNat
  else if -6 < n ∧ n ≤ 0 then '0' :: '.' :: zeros (-n) ++ d.digits
  else
    let e := n - 1
    let m := if k = 1 then d.digits else d.digits.take 1 ++ '.' :: d.digits.drop 1
    m ++ 'e' :: (if e < 0 then '-' else '+') :: (toString e.natAbs).toList

def relayout (neg : Bool) (r : List Char) : Except String (List Char) :=
  match DecimalDigits.read 'E' r with
  | none => .error "number format"
  | some d =>
      if d.digits = [] then .ok ['0'] else .ok (if neg then '-' :: layout d else layout d)

/-- `Es6Number` of the control plane. -/
def ControlPlane.es6Number (d : Double) : Except String (List Char) :=
  if d = .finite 0 then .ok ['0']
  else if ¬ d.isFinite then .error "non-finite numbers cannot be canonicalised"
  else
    let r := (invariantText d).toList
    let neg := r.head? = some '-'
    relayout neg (if neg then r.drop 1 else r)

/-- `es6Number` of the worker. -/
def Worker.es6Number (d : Double) : Except String (List Char) :=
  if d = .finite 0 then .ok ['0']
  else if ¬ d.isFinite then .error "non-finite numbers cannot be canonicalised"
  else relayout (d.lt (.finite 0)) (javaText d.abs).toList

theorem layout_eq {d : DecimalDigits} (h : d.WellFormed) : layout d = es6Body d := by
  have hlength : 0 < d.digits.length := List.length_pos_of_ne_nil h.nonempty
  have hmantissa : mantissa d.digits =
      if (d.digits.length : ℤ) = 1 then d.digits
      else d.digits.take 1 ++ '.' :: d.digits.drop 1 := by
    generalize d.digits = ds at hlength
    match ds with
    | [] => simp at hlength
    | [c] => rfl
    | c :: c' :: rest =>
      rw [if_neg (by simp only [List.length_cons]; push_cast; omega)]
      rfl
  unfold layout es6Body positional
  dsimp only
  rw [hmantissa]
  by_cases hpositional : -6 < d.point ∧ d.point ≤ 21
  · rw [if_pos hpositional]
    by_cases hinteger : (d.digits.length : ℤ) ≤ d.point
    · rw [if_pos ⟨hinteger, hpositional.2⟩, if_pos hinteger]
    · rw [if_neg fun hle => hinteger hle.1, if_neg hinteger]
      by_cases hpoint : 0 < d.point
      · rw [if_pos ⟨hpoint, hpositional.2⟩, if_pos hpoint]
      · rw [if_neg fun hlt => hpoint hlt.1, if_pos ⟨hpositional.1, by omega⟩, if_neg hpoint]
  · rw [if_neg hpositional, if_neg (by omega), if_neg (by omega), if_neg (by omega)]

theorem relayout_eq {d : DecimalDigits} (h : d.WellFormed) (neg : Bool) {r : List Char}
    (hread : DecimalDigits.read 'E' r = some d) :
    relayout neg r = .ok (if neg then '-' :: es6Body d else es6Body d) := by
  unfold relayout
  rw [hread]
  dsimp only
  rw [if_neg h.nonempty, layout_eq h]

/-! ## The digits of a double -/

theorem isExact_abs {q : ℚ} (h : Double.IsExact q) : Double.IsExact |q| := by
  obtain ⟨⟨n, hn⟩, hbound⟩ := h
  have hulp : Double.ulpExponent |q| = Double.ulpExponent q := by
    unfold Double.ulpExponent
    rw [abs_abs]
  refine ⟨⟨|n|, ?_⟩, by rwa [abs_abs]⟩
  rw [hulp, Int.cast_abs, ← abs_of_pos (Double.zpow_pos_two (Double.ulpExponent q)), ← abs_mul,
    ← hn]

theorem digits_of_double {q : ℚ} (hq : q ≠ 0) (h : Double.IsExact q) :
    (shortest |q|).WellFormed ∧ Double.ofRat (shortest |q|).value = .finite |q| :=
  shortest_spec (abs_pos.mpr hq) (isExact_abs h)

theorem head_ne_sign {cs rest : List Char} (hne : cs ≠ [])
    (h : ∀ c ∈ cs, c.isDigit = true ∨ c = '.') : ∀ c ∈ (cs ++ rest).head?, c ≠ '-' := by
  intro c hc
  rw [List.head?_append_of_ne_nil _ hne] at hc
  rintro rfl
  exact absurd (h '-' (List.mem_of_mem_head? hc)) (by decide)

theorem mantissa_ne_nil {d : DecimalDigits} (h : d.WellFormed) : mantissa d.digits ≠ [] := by
  have hne := h.nonempty
  generalize d.digits = ds at hne
  match ds with
  | [] => exact absurd rfl hne
  | [c] => exact List.cons_ne_nil _ _
  | c :: c' :: rest => exact List.cons_ne_nil _ _

theorem positional_ne_nil {d : DecimalDigits} (h : d.WellFormed) : positional d ≠ [] := by
  have hne := h.nonempty
  unfold positional
  dsimp only
  split
  · simp [hne]
  · split <;> simp

theorem head_invariantBody {d : DecimalDigits} (h : d.WellFormed) :
    ∀ c ∈ (invariantBody d).head?, c ≠ '-' := by
  unfold invariantBody
  dsimp only
  split
  · rw [← List.append_nil (positional d)]
    exact head_ne_sign (positional_ne_nil h) fun _ => mem_positional h
  · exact head_ne_sign (mantissa_ne_nil h) fun _ => mem_mantissa h

theorem head_es6Body {d : DecimalDigits} (h : d.WellFormed) :
    ∀ c ∈ (es6Body d).head?, c ≠ '-' := by
  unfold es6Body
  split
  · rw [← List.append_nil (positional d)]
    exact head_ne_sign (positional_ne_nil h) fun _ => mem_positional h
  · exact head_ne_sign (mantissa_ne_nil h) fun _ => mem_mantissa h

/-! ## Both services -/

theorem isFinite_of_ne {d : Double} {r : ℚ} (hd : d = Double.ofRat r) (hzero : d ≠ .finite 0)
    (hfinite : d.isFinite = true) : ∃ q, d = .finite q ∧ q ≠ 0 ∧ Double.IsExact q := by
  cases d with
  | finite q => exact ⟨q, rfl, fun hq => hzero (by rw [hq]), Double.isExact_of_ofRat hd.symm⟩
  | infinite s => cases hfinite

theorem ControlPlane.es6Number_eq (r : ℚ) :
    ControlPlane.es6Number (Double.ofRat r) = CanonicalJson.es6Number (Double.ofRat r) := by
  unfold ControlPlane.es6Number CanonicalJson.es6Number
  generalize hd : Double.ofRat r = d
  split
  · rename_i hzero
    rw [hzero]
    rfl
  · rename_i hzero
    split
    · rfl
    · rename_i hfinite
      obtain ⟨q, rfl, hq, hexact⟩ := isFinite_of_ne hd.symm hzero (not_not.mp hfinite)
      obtain ⟨hwf, -⟩ := digits_of_double hq hexact
      have hhead := head_invariantBody hwf
      have hread := read_invariantBody hwf
      dsimp only
      rw [if_pos (not_not.mp hfinite), toList_es6Text hq, toList_invariantText hq]
      generalize invariantBody (shortest |q|) = body at hhead hread
      unfold signed
      by_cases hneg : q < 0
      · rw [if_pos hneg, if_pos hneg]
        exact relayout_eq hwf true hread
      · rw [if_neg hneg, if_neg hneg]
        have hsign : ¬ body.head? = some '-' := fun heq => hhead '-' heq rfl
        rw [decide_eq_false hsign, if_neg hsign]
        exact relayout_eq hwf false hread

theorem Worker.es6Number_eq (r : ℚ) :
    Worker.es6Number (Double.ofRat r) = CanonicalJson.es6Number (Double.ofRat r) := by
  unfold Worker.es6Number CanonicalJson.es6Number
  generalize hd : Double.ofRat r = d
  split
  · rename_i hzero
    rw [hzero]
    rfl
  · rename_i hzero
    split
    · rfl
    · rename_i hfinite
      obtain ⟨q, rfl, hq, hexact⟩ := isFinite_of_ne hd.symm hzero (not_not.mp hfinite)
      obtain ⟨hwf, -⟩ := digits_of_double hq hexact
      have habs : (Double.finite q).abs = .finite |q| := rfl
      have hneg : (Double.finite q).lt (.finite 0) = decide (q < 0) := rfl
      rw [if_pos (not_not.mp hfinite), toList_es6Text hq, habs, hneg,
        toList_javaText (abs_ne_zero.mpr hq), abs_abs]
      unfold signed
      rw [if_neg (not_lt.mpr (abs_nonneg q)), relayout_eq hwf _ (read_javaBody hwf)]
      simp only [decide_eq_true_eq]

/-! ## The text tells the number -/

theorem signed_ne_zero {q : ℚ} {d : DecimalDigits} (hwf : d.WellFormed) :
    signed q (es6Body d) ≠ ['0'] := by
  intro heq
  unfold signed at heq
  split at heq
  · exact absurd (List.cons.inj heq).1 (by decide)
  · have hread := read_es6Body hwf
    have hzero : DecimalDigits.read 'e' ['0'] = some ⟨[], 0⟩ := by decide
    rw [heq, hzero] at hread
    exact hwf.nonempty (congrArg DecimalDigits.digits (Option.some.inj hread)).symm

theorem signed_injective {q q' : ℚ} {d d' : DecimalDigits} (hwf : d.WellFormed)
    (hwf' : d'.WellFormed) (heq : signed q (es6Body d) = signed q' (es6Body d')) :
    (q < 0 ↔ q' < 0) ∧ d = d' := by
  have hdigits : es6Body d = es6Body d' → d = d' := by
    intro hbody
    have hread := read_es6Body hwf
    rw [hbody, read_es6Body hwf'] at hread
    exact (Option.some.inj hread).symm
  have hhead := head_es6Body hwf
  have hother := head_es6Body hwf'
  unfold signed at heq
  by_cases hneg : q < 0
  · by_cases hneg' : q' < 0
    · rw [if_pos hneg, if_pos hneg'] at heq
      exact ⟨iff_of_true hneg hneg', hdigits (List.cons.inj heq).2⟩
    · rw [if_pos hneg, if_neg hneg'] at heq
      exact absurd rfl (hother '-' (by rw [← heq]; rfl))
  · by_cases hneg' : q' < 0
    · rw [if_neg hneg, if_pos hneg'] at heq
      exact absurd rfl (hhead '-' (by rw [heq]; rfl))
    · rw [if_neg hneg, if_neg hneg'] at heq
      exact ⟨iff_of_false hneg hneg', hdigits heq⟩

theorem es6Text_injective {q q' : ℚ} (h : Double.IsExact q) (h' : Double.IsExact q')
    (heq : (es6Text (.finite q)).toList = (es6Text (.finite q')).toList) : q = q' := by
  have hzero : (es6Text (.finite 0)).toList = ['0'] := rfl
  rcases eq_or_ne q 0 with rfl | hq
  · rcases eq_or_ne q' 0 with rfl | hq'
    · rfl
    · rw [hzero, toList_es6Text hq'] at heq
      exact absurd heq.symm (signed_ne_zero (digits_of_double hq' h').1)
  · rcases eq_or_ne q' 0 with rfl | hq'
    · rw [hzero, toList_es6Text hq] at heq
      exact absurd heq (signed_ne_zero (digits_of_double hq h).1)
    · obtain ⟨hwf, hvalue⟩ := digits_of_double hq h
      obtain ⟨hwf', hvalue'⟩ := digits_of_double hq' h'
      rw [toList_es6Text hq, toList_es6Text hq'] at heq
      obtain ⟨hsign, hdigits⟩ := signed_injective hwf hwf' heq
      rw [hdigits, hvalue'] at hvalue
      have habs : |q'| = |q| := by injection hvalue
      rcases lt_or_ge q 0 with hneg | hpos
      · rw [abs_of_neg hneg, abs_of_neg (hsign.mp hneg)] at habs
        exact (neg_injective habs).symm
      · have hpos' : 0 ≤ q' := not_lt.mp fun hneg' => absurd (hsign.mpr hneg') (not_lt.mpr hpos)
        rw [abs_of_nonneg hpos, abs_of_nonneg hpos'] at habs
        exact habs.symm

end CanonicalJson

/-!
# Gate configuration: one canonical text for both services

The control plane writes the members of an object as the document lists them, sorted; the worker
sorts the names of the node it has read and looks the values up.
-/

namespace CanonicalJson

/-! ## The order of the keys -/

theorem unitsLe_cons {a b : ℕ} {as bs : List ℕ} :
    unitsLe (a :: as) (b :: bs) = true ↔ a < b ∨ a = b ∧ unitsLe as bs = true := by
  simp [unitsLe]

theorem unitsLe_total (as bs : List ℕ) : unitsLe as bs = true ∨ unitsLe bs as = true := by
  induction as generalizing bs with
  | nil => exact Or.inl rfl
  | cons a as ih =>
    cases bs with
    | nil => exact Or.inr rfl
    | cons b bs =>
      rw [unitsLe_cons, unitsLe_cons]
      rcases Nat.lt_trichotomy a b with hlt | rfl | hgt
      · exact Or.inl (Or.inl hlt)
      · exact (ih bs).imp (fun h => Or.inr ⟨rfl, h⟩) fun h => Or.inr ⟨rfl, h⟩
      · exact Or.inr (Or.inl hgt)

theorem unitsLe_trans {as bs cs : List ℕ} (h : unitsLe as bs = true) (h' : unitsLe bs cs = true) :
    unitsLe as cs = true := by
  induction as generalizing bs cs with
  | nil => rfl
  | cons a as ih =>
    cases bs with
    | nil => cases h
    | cons b bs =>
      cases cs with
      | nil => cases h'
      | cons c cs =>
        rw [unitsLe_cons] at h h' ⊢
        rcases h with hlt | ⟨rfl, h⟩
        · rcases h' with hlt' | ⟨rfl, -⟩
          · exact Or.inl (hlt.trans hlt')
          · exact Or.inl hlt
        · rcases h' with hlt' | ⟨rfl, h'⟩
          · exact Or.inl hlt'
          · exact Or.inr ⟨rfl, ih h h'⟩

theorem unitsLe_antisymm {as bs : List ℕ} (h : unitsLe as bs = true) (h' : unitsLe bs as = true) :
    as = bs := by
  induction as generalizing bs with
  | nil =>
    cases bs with
    | nil => rfl
    | cons b bs => cases h'
  | cons a as ih =>
    cases bs with
    | nil => cases h
    | cons b bs =>
      rw [unitsLe_cons] at h h'
      rcases h with hlt | ⟨rfl, h⟩
      · rcases h' with hlt' | ⟨rfl, -⟩ <;> omega
      · rcases h' with hlt' | ⟨-, h'⟩
        · omega
        · rw [ih h h']

theorem codeUnits_cases (c : Char) :
    (c.toNat < 0x10000 ∧ codeUnits c = [c.toNat]) ∨
    (0x10000 ≤ c.toNat ∧ c.toNat < 0x110000 ∧
      codeUnits c = [0xD800 + (c.toNat - 0x10000) / 0x400, 0xDC00 + (c.toNat - 0x10000) % 0x400]) := by
  unfold codeUnits
  have hvalid : c.toNat < 0x110000 := by
    rcases c.valid with h | h
    · exact h.trans (by norm_num)
    · exact h.2
  split
  · rename_i hlt
    exact Or.inl ⟨hlt, rfl⟩
  · rename_i hge
    exact Or.inr ⟨not_lt.mp hge, hvalid, rfl⟩

theorem toNat_not_surrogate (c : Char) : c.toNat < 0xD800 ∨ 0xDFFF < c.toNat := by
  rcases c.valid with h | h
  · exact Or.inl h
  · exact Or.inr h.1

theorem codeUnits_injective {cs cs' : List Char}
    (h : cs.flatMap codeUnits = cs'.flatMap codeUnits) : cs = cs' := by
  induction cs generalizing cs' with
  | nil =>
    cases cs' with
    | nil => rfl
    | cons c' rest' =>
      rcases codeUnits_cases c' with ⟨-, hc⟩ | ⟨-, -, hc⟩ <;>
        rw [List.flatMap_cons, hc] at h <;> exact absurd h (by simp)
  | cons c rest ih =>
    cases cs' with
    | nil =>
      rcases codeUnits_cases c with ⟨-, hc⟩ | ⟨-, -, hc⟩ <;>
        rw [List.flatMap_cons, hc] at h <;> exact absurd h (by simp)
    | cons c' rest' =>
      rw [List.flatMap_cons, List.flatMap_cons] at h
      have hsur := toNat_not_surrogate c
      have hsur' := toNat_not_surrogate c'
      rcases codeUnits_cases c with ⟨hc, heq⟩ | ⟨hc, hmax, heq⟩ <;>
        rcases codeUnits_cases c' with ⟨hc', heq'⟩ | ⟨hc', hmax', heq'⟩ <;>
        rw [heq, heq'] at h <;>
        simp only [List.cons_append, List.nil_append, List.cons.injEq] at h
      · obtain ⟨hnat, hrest⟩ := h
        rw [Char.toNat_inj.mp hnat, ih hrest]
      · omega
      · omega
      · obtain ⟨hhigh, hlow, hrest⟩ := h
        have hnat : c.toNat = c'.toNat := by omega
        rw [Char.toNat_inj.mp hnat, ih hrest]

theorem keyLe_antisymm {a b : String} (h : keyLe a b = true) (h' : keyLe b a = true) : a = b :=
  String.toList_inj.mp (codeUnits_injective (unitsLe_antisymm h h'))

abbrev memberLe {α : Type} (a b : String × α) : Prop := keyLe a.1 b.1 = true

instance {α : Type} : Std.Total (memberLe (α := α)) := ⟨fun _ _ => unitsLe_total _ _⟩

instance {α : Type} : IsTrans (String × α) memberLe := ⟨fun _ _ _ => unitsLe_trans⟩

theorem eq_of_perm_of_nodup {α : Type} {ms ns : List (String × α)} (hperm : ms.Perm ns)
    (hnodup : (ms.map Prod.fst).Nodup) :
    ms.insertionSort memberLe = ns.insertionSort memberLe := by
  refine List.Perm.eq_of_pairwise (fun a b ha hb hab hba => ?_) (List.pairwise_insertionSort _ _)
    (List.pairwise_insertionSort _ _)
    (((List.perm_insertionSort _ _).trans hperm).trans (List.perm_insertionSort _ _).symm)
  have hb' : b ∈ ms := hperm.symm.subset ((List.mem_insertionSort _).mp hb)
  exact List.inj_on_of_nodup_map hnodup ((List.mem_insertionSort _).mp ha) hb'
    (keyLe_antisymm hab hba)

/-! ## The two services -/

section Write

variable (number : Double → Except String (List Char))
  (arrange : List (String × Except String (List Char)) → List (String × Except String (List Char)))

mutual

def writeWith : Json → Except String (List Char)
  | .null => .ok "null".toList
  | .bool b => .ok (if b then "true" else "false").toList
  | .number n => number n.toDouble
  | .text s => .ok (writeString s)
  | .array items => do
      let body ← commaSeparated (writeItemsWith items)
      .ok ('[' :: (body ++ [']']))
  | .object members => do
      let body ← commaSeparated ((arrange (writeMembersWith members)).map fun m =>
        m.2.map fun t => writeString m.1 ++ ':' :: t)
      .ok ('{' :: (body ++ ['}']))

def writeItemsWith : List Json → List (Except String (List Char))
  | [] => []
  | j :: rest => writeWith j :: writeItemsWith rest

def writeMembersWith : List (String × Json) → List (String × Except String (List Char))
  | [] => []
  | (name, j) :: rest => (name, writeWith j) :: writeMembersWith rest

end

end Write

/-- `Write` of the control plane: the members that the document lists, in the order of their names. -/
def ControlPlane.write : Json → Except String (List Char) :=
  writeWith ControlPlane.es6Number fun ms => ms.insertionSort memberLe

/-- `write` of the worker: the names of the node, in their order, with the value of each. -/
def Worker.write : Json → Except String (List Char) := writeWith Worker.es6Number sortMembers

/-- `Canonicalize` of the control plane. -/
def ControlPlane.canonicalize (j : Json) : Except String String :=
  (ControlPlane.write j).map String.ofList

/-- `canonicalize` of the worker. -/
def Worker.canonicalize (j : Json) : Except String String := (Worker.write j).map String.ofList

mutual

def UniqueKeys : Json → Prop
  | .array items => UniqueKeysItems items
  | .object members => (members.map Prod.fst).Nodup ∧ UniqueKeysMembers members
  | _ => True

def UniqueKeysItems : List Json → Prop
  | [] => True
  | j :: rest => UniqueKeys j ∧ UniqueKeysItems rest

def UniqueKeysMembers : List (String × Json) → Prop
  | [] => True
  | (_, j) :: rest => UniqueKeys j ∧ UniqueKeysMembers rest

end

theorem toDouble_eq_ofRat (n : JsonNumber) : ∃ r : ℚ, n.toDouble = Double.ofRat r := by
  cases n with
  | integral n => exact ⟨n, rfl⟩
  | decimal q => exact ⟨q, rfl⟩

theorem sortMembers_of_nodup {ms : List (String × Except String (List Char))}
    (h : (ms.map Prod.fst).Nodup) : sortMembers ms = ms.insertionSort memberLe := by
  have hentries : (ms.foldl (fun d m => d.set m.1 m.2) Dict.empty).entries = ms := by
    induction ms using List.reverseRecOn with
    | nil => rfl
    | append_singleton ms m ih =>
      rw [List.map_append, List.nodup_append] at h
      have ih := ih h.1
      have hnot : m.1 ∉ (ms.foldl (fun d m => d.set m.1 m.2) Dict.empty).keys := by
        unfold Dict.keys
        rw [ih]
        exact fun hmem => h.2.2 m.1 hmem m.1 (by simp) rfl
      rw [List.foldl_append, List.foldl_cons, List.foldl_nil, Dict.entries_set_of_not_mem hnot, ih]
  unfold sortMembers
  rw [hentries]

section Names

variable {number : Double → Except String (List Char)}
  {arrange : List (String × Except String (List Char)) → List (String × Except String (List Char))}

theorem map_fst_writeMembersWith (members : List (String × Json)) :
    (writeMembersWith number arrange members).map Prod.fst = members.map Prod.fst := by
  induction members with
  | nil => rfl
  | cons m rest ih => rw [writeMembersWith, List.map_cons, List.map_cons, ih]

end Names

mutual

theorem worker_write_eq : ∀ j : Json, Worker.write j = write j
  | .null => rfl
  | .bool _ => rfl
  | .number n => by
    obtain ⟨r, hr⟩ := toDouble_eq_ofRat n
    unfold Worker.write writeWith write
    rw [hr]
    exact Worker.es6Number_eq r
  | .text _ => rfl
  | .array items => by
    unfold Worker.write writeWith write
    rw [worker_writeItems_eq items]
  | .object members => by
    unfold Worker.write writeWith write
    rw [worker_writeMembers_eq members]

theorem worker_writeItems_eq : ∀ items : List Json,
    writeItemsWith Worker.es6Number sortMembers items = writeItems items
  | [] => rfl
  | j :: rest => by
    have hj := worker_write_eq j
    unfold Worker.write at hj
    rw [writeItemsWith, writeItems, hj, worker_writeItems_eq rest]

theorem worker_writeMembers_eq : ∀ members : List (String × Json),
    writeMembersWith Worker.es6Number sortMembers members = writeMembers members
  | [] => rfl
  | (name, j) :: rest => by
    have hj := worker_write_eq j
    unfold Worker.write at hj
    rw [writeMembersWith, writeMembers, hj, worker_writeMembers_eq rest]

end

theorem map_fst_writeMembers (members : List (String × Json)) :
    (writeMembers members).map Prod.fst = members.map Prod.fst := by
  rw [← worker_writeMembers_eq, map_fst_writeMembersWith]

mutual

theorem controlPlane_write_eq : ∀ j : Json, UniqueKeys j → ControlPlane.write j = write j
  | .null, _ => rfl
  | .bool _, _ => rfl
  | .number n, _ => by
    obtain ⟨r, hr⟩ := toDouble_eq_ofRat n
    unfold ControlPlane.write writeWith write
    rw [hr]
    exact ControlPlane.es6Number_eq r
  | .text _, _ => rfl
  | .array items, h => by
    unfold ControlPlane.write writeWith write
    rw [controlPlane_writeItems_eq items h]
  | .object members, h => by
    have hnodup : ((writeMembers members).map Prod.fst).Nodup := by
      rw [map_fst_writeMembers]
      exact h.1
    unfold ControlPlane.write writeWith write
    rw [controlPlane_writeMembers_eq members h.2, sortMembers_of_nodup hnodup]

theorem controlPlane_writeItems_eq : ∀ items : List Json, UniqueKeysItems items →
    writeItemsWith ControlPlane.es6Number (fun ms => ms.insertionSort memberLe) items =
      writeItems items
  | [], _ => rfl
  | j :: rest, h => by
    have hj := controlPlane_write_eq j h.1
    unfold ControlPlane.write at hj
    rw [writeItemsWith, writeItems, hj, controlPlane_writeItems_eq rest h.2]

theorem controlPlane_writeMembers_eq : ∀ members : List (String × Json), UniqueKeysMembers members →
    writeMembersWith ControlPlane.es6Number (fun ms => ms.insertionSort memberLe) members =
      writeMembers members
  | [], _ => rfl
  | (name, j) :: rest, h => by
    have hj := controlPlane_write_eq j h.1
    unfold ControlPlane.write at hj
    rw [writeMembersWith, writeMembers, hj, controlPlane_writeMembers_eq rest h.2]

end

theorem services_agree {j : Json} (h : UniqueKeys j) :
    ControlPlane.canonicalize j = canonicalize j ∧ Worker.canonicalize j = canonicalize j := by
  unfold ControlPlane.canonicalize Worker.canonicalize canonicalize
  rw [controlPlane_write_eq j h, worker_write_eq j]
  exact ⟨rfl, rfl⟩

end CanonicalJson

end OpenBridge.GateConfig
