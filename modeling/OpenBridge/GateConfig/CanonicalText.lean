import OpenBridge.GateConfig.CanonicalAgreement

/-!
# Gate configuration: what a canonical text tells

A value with its numbers as doubles and its members in the order of their names is its normal form.
-/

namespace OpenBridge.GateConfig

open OpenBridge.Foundation
open OpenBridge.Foundation.DecimalDigits

namespace CanonicalJson

/-- A value up to the order of its members, with its numbers as doubles. -/
inductive Normal where
  | null
  | bool (b : Bool)
  | number (d : Double)
  | text (s : String)
  | array (items : List Normal)
  | object (members : List (String × Normal))

mutual

def normal : Json → Normal
  | .null => .null
  | .bool b => .bool b
  | .number n => .number n.toDouble
  | .text s => .text s
  | .array items => .array (normalItems items)
  | .object members => .object ((normalMembers members).insertionSort memberLe)

def normalItems : List Json → List Normal
  | [] => []
  | j :: rest => normal j :: normalItems rest

def normalMembers : List (String × Json) → List (String × Normal)
  | [] => []
  | (name, j) :: rest => (name, normal j) :: normalMembers rest

end

def commas : List (List Char) → List Char
  | [] => []
  | [t] => t
  | t :: rest => t ++ ',' :: commas rest

mutual

def printed : Normal → List Char
  | .null => "null".toList
  | .bool b => (if b then "true" else "false").toList
  | .number d => (es6Text d).toList
  | .text s => writeString s
  | .array items => '[' :: (commas (printedItems items) ++ [']'])
  | .object members => '{' :: (commas (printedMembers members) ++ ['}'])

def printedItems : List Normal → List (List Char)
  | [] => []
  | a :: rest => printed a :: printedItems rest

def printedMembers : List (String × Normal) → List (List Char)
  | [] => []
  | (name, a) :: rest => (writeString name ++ ':' :: printed a) :: printedMembers rest

end

mutual

def FiniteNumbers : Json → Prop
  | .number n => n.toDouble.isFinite = true
  | .array items => FiniteItems items
  | .object members => FiniteMembers members
  | _ => True

def FiniteItems : List Json → Prop
  | [] => True
  | j :: rest => FiniteNumbers j ∧ FiniteItems rest

def FiniteMembers : List (String × Json) → Prop
  | [] => True
  | (_, j) :: rest => FiniteNumbers j ∧ FiniteMembers rest

end

/-! ## The text of the normal form -/

theorem commaSeparated_ok (ts : List (List Char)) :
    commaSeparated (ts.map .ok) = .ok (commas ts) := by
  induction ts with
  | nil => rfl
  | cons t rest ih =>
    cases rest with
    | nil => rfl
    | cons t' rest' =>
      rw [List.map_cons, List.map_cons, commaSeparated, ← List.map_cons, ih]
      · rfl
      · simp

theorem printedItems_eq (items : List Normal) : printedItems items = items.map printed := by
  induction items with
  | nil => rfl
  | cons a rest ih => rw [printedItems, List.map_cons, ih]

def printedMember (m : String × Normal) : List Char := writeString m.1 ++ ':' :: printed m.2

theorem printedMembers_eq (members : List (String × Normal)) :
    printedMembers members = members.map printedMember := by
  induction members with
  | nil => rfl
  | cons m rest ih => rw [printedMembers, List.map_cons, ih, printedMember]

theorem map_fst_normalMembers (members : List (String × Json)) :
    (normalMembers members).map Prod.fst = members.map Prod.fst := by
  induction members with
  | nil => rfl
  | cons m rest ih => rw [normalMembers, List.map_cons, List.map_cons, ih]

def withText (m : String × Normal) : String × Except String (List Char) := (m.1, .ok (printed m.2))

theorem sorted_texts (members : List (String × Normal)) :
    ((members.map withText).insertionSort memberLe).map
        (fun m => m.2.map fun t => writeString m.1 ++ ':' :: t) =
      (printedMembers (members.insertionSort memberLe)).map .ok := by
  have hsort := List.map_insertionSort memberLe memberLe withText members fun a _ b _ => Iff.rfl
  rw [← hsort, List.map_map, printedMembers_eq, List.map_map]
  rfl

mutual

theorem write_eq_printed : ∀ j : Json, UniqueKeys j → FiniteNumbers j →
    write j = .ok (printed (normal j))
  | .null, _, _ => rfl
  | .bool _, _, _ => rfl
  | .number n, _, h => by
    unfold write es6Number
    exact if_pos h
  | .text _, _, _ => rfl
  | .array items, hunique, h => by
    rw [write, writeItems_eq_printed items hunique h, commaSeparated_ok]
    rfl
  | .object members, hunique, h => by
    have hnodup : ((writeMembers members).map Prod.fst).Nodup := by
      rw [map_fst_writeMembers]
      exact hunique.1
    rw [write, sortMembers_of_nodup hnodup, writeMembers_eq_printed members hunique.2 h, sorted_texts,
      commaSeparated_ok]
    rfl

theorem writeItems_eq_printed : ∀ items : List Json, UniqueKeysItems items → FiniteItems items →
    writeItems items = (printedItems (normalItems items)).map .ok
  | [], _, _ => rfl
  | j :: rest, hunique, h => by
    rw [writeItems, write_eq_printed j hunique.1 h.1, writeItems_eq_printed rest hunique.2 h.2]
    rfl

theorem writeMembers_eq_printed : ∀ members : List (String × Json), UniqueKeysMembers members →
    FiniteMembers members →
    writeMembers members = (normalMembers members).map withText
  | [], _, _ => rfl
  | (name, j) :: rest, hunique, h => by
    rw [writeMembers, write_eq_printed j hunique.1 h.1, writeMembers_eq_printed rest hunique.2 h.2]
    rfl

end

/-! ## Where a text ends -/

def closes (c : Char) : Bool := c = ',' ∨ c = ']' ∨ c = '}'

def Ends (r : List Char) : Prop := ∀ c ∈ r.head?, closes c = true

theorem append_injective {x y r r' : List Char} (hx : ∀ c ∈ x, closes c = false)
    (hy : ∀ c ∈ y, closes c = false) (hr : Ends r) (hr' : Ends r') (h : x ++ r = y ++ r') :
    x = y ∧ r = r' := by
  have hno : ∀ {t u v : List Char}, (∀ c ∈ u ++ t, closes c = false) → Ends (t ++ v) → t = [] := by
    intro t u v ht hends
    cases t with
    | nil => rfl
    | cons c rest =>
      have hc := hends c rfl
      rw [ht c (List.mem_append_right _ List.mem_cons_self)] at hc
      cases hc
  rcases List.append_eq_append_iff.mp h with ⟨t, rfl, rfl⟩ | ⟨t, rfl, rfl⟩
  · obtain rfl := hno hy hr
    exact ⟨(List.append_nil _).symm, rfl⟩
  · obtain rfl := hno hx hr'
    exact ⟨List.append_nil _, rfl⟩

/-! ## Strings -/

def hexValue (c : Char) : ℕ := if c.isDigit then c.toNat - '0'.toNat else c.toNat - 'a'.toNat + 10

theorem hexValue_hexDigit : ∀ n < 16, hexValue (Sha256.hexDigit n) = n := by decide

def unescapeTail : List Char → Option (Char × List Char)
  | 'u' :: _ :: _ :: h :: l :: rest => some (Char.ofNat (16 * hexValue h + hexValue l), rest)
  | 'b' :: rest => some (Char.ofNat 8, rest)
  | 'f' :: rest => some (Char.ofNat 12, rest)
  | 'n' :: rest => some (Char.ofNat 10, rest)
  | 'r' :: rest => some (Char.ofNat 13, rest)
  | 't' :: rest => some (Char.ofNat 9, rest)
  | c :: rest => some (c, rest)
  | [] => none

def unescape : List Char → Option (Char × List Char)
  | [] => none
  | c :: rest => if c = '\\' then unescapeTail rest else some (c, rest)

theorem eq_ofNat {c : Char} {n : ℕ} (h : c.toNat = n) : c = Char.ofNat n := by
  rw [← h, Char.ofNat_toNat]

theorem unescape_escape (c : Char) (rest : List Char) :
    unescape (escape c ++ rest) = some (c, rest) := by
  unfold escape
  split_ifs with hquote hslash hback hfeed hline hreturn htab hcontrol
  · rw [hquote]
    rfl
  · rw [hslash]
    rfl
  · rw [eq_ofNat hback]
    rfl
  · rw [eq_ofNat hfeed]
    rfl
  · rw [eq_ofNat hline]
    rfl
  · rw [eq_ofNat hreturn]
    rfl
  · rw [eq_ofNat htab]
    rfl
  · have hvalue : 16 * hexValue (Sha256.hexDigit (c.toNat / 16)) +
        hexValue (Sha256.hexDigit (c.toNat % 16)) = c.toNat := by
      rw [hexValue_hexDigit _ (by omega), hexValue_hexDigit _ (by omega)]
      omega
    simp only [List.cons_append, List.nil_append, unescape, if_true, unescapeTail]
    rw [hvalue, Char.ofNat_toNat]
  · exact if_neg hslash

theorem escape_ne_quote (c : Char) (rest : List Char) : (escape c ++ rest).head? ≠ some '"' := by
  unfold escape
  split_ifs with hquote
  all_goals simp [hquote]

theorem escaped_injective {cs cs' r r' : List Char}
    (h : cs.flatMap escape ++ '"' :: r = cs'.flatMap escape ++ '"' :: r') : cs = cs' ∧ r = r' := by
  induction cs generalizing cs' with
  | nil =>
    cases cs' with
    | nil => exact ⟨rfl, (List.cons.inj h).2⟩
    | cons c' rest' =>
      rw [List.flatMap_cons, List.append_assoc] at h
      exact absurd (congrArg List.head? h.symm) (escape_ne_quote c' _)
  | cons c rest ih =>
    cases cs' with
    | nil =>
      rw [List.flatMap_cons, List.append_assoc] at h
      exact absurd (congrArg List.head? h) (escape_ne_quote c _)
    | cons c' rest' =>
      rw [List.flatMap_cons, List.flatMap_cons, List.append_assoc, List.append_assoc] at h
      have hread := unescape_escape c (rest.flatMap escape ++ '"' :: r)
      rw [h, unescape_escape] at hread
      obtain ⟨rfl, htail⟩ := Prod.mk.inj (Option.some.inj hread)
      obtain ⟨rfl, rfl⟩ := ih htail.symm
      exact ⟨rfl, rfl⟩

theorem writeString_injective {s s' : String} {r r' : List Char}
    (h : writeString s ++ r = writeString s' ++ r') : s = s' ∧ r = r' := by
  unfold writeString at h
  rw [List.cons_append, List.cons_append, List.append_assoc, List.append_assoc] at h
  obtain ⟨hchars, hrest⟩ := escaped_injective (List.cons.inj h).2
  exact ⟨String.toList_inj.mp hchars, hrest⟩

/-! ## Numbers -/

theorem isDigit_of_mem_toString {n : ℕ} {c : Char} (h : c ∈ (toString n).toList) :
    c.isDigit = true :=
  KeyText.isDigit_of_mem_natRepr h

theorem closes_of_mem_es6Text {q : ℚ} (h : Double.IsExact q) {c : Char}
    (hc : c ∈ (es6Text (.finite q)).toList) : closes c = false := by
  have hdigit : ∀ c : Char, c.isDigit = true ∨ c = '.' ∨ c = '-' ∨ c = '+' ∨ c = 'e' →
      closes c = false := by
    rintro c hc
    unfold closes
    rw [decide_eq_false_iff_not]
    rintro (rfl | rfl | rfl) <;> exact absurd hc (by decide)
  refine hdigit c ?_
  rcases eq_or_ne q 0 with rfl | hq
  · have hzero : (es6Text (.finite 0)).toList = ['0'] := rfl
    rw [hzero] at hc
    rw [List.mem_singleton.mp hc]
    decide
  · obtain ⟨hwf, -⟩ := digits_of_double hq h
    have hbody : ∀ c ∈ es6Body (shortest |q|),
        c.isDigit = true ∨ c = '.' ∨ c = '-' ∨ c = '+' ∨ c = 'e' := by
      intro c hc
      unfold es6Body at hc
      split at hc
      · exact (mem_positional hwf hc).imp_right Or.inl
      · rcases List.mem_append.mp hc with hc | hc
        · exact (mem_mantissa hwf hc).imp_right Or.inl
        · rcases List.mem_cons.mp hc with rfl | hc
          · decide
          · rcases List.mem_cons.mp hc with hc | hc
            · split at hc <;> rw [hc] <;> decide
            · exact Or.inl (isDigit_of_mem_toString hc)
    rw [toList_es6Text hq] at hc
    unfold signed at hc
    split at hc
    · rcases List.mem_cons.mp hc with rfl | hc
      · decide
      · exact hbody c hc
    · exact hbody c hc

theorem head_es6Text {q : ℚ} (h : Double.IsExact q) : ∃ c tail,
    (es6Text (.finite q)).toList = c :: tail ∧ (c.isDigit = true ∨ c = '.' ∨ c = '-') := by
  rcases eq_or_ne q 0 with rfl | hq
  · exact ⟨'0', [], rfl, by decide⟩
  · obtain ⟨hwf, -⟩ := digits_of_double hq h
    have hbody : ∃ c tail, es6Body (shortest |q|) = c :: tail ∧ (c.isDigit = true ∨ c = '.') := by
      unfold es6Body
      split
      · obtain ⟨c, tail, htail⟩ := List.exists_cons_of_ne_nil (positional_ne_nil hwf)
        exact ⟨c, tail, htail, mem_positional hwf (htail ▸ List.mem_cons_self)⟩
      · obtain ⟨c, tail, htail⟩ := List.exists_cons_of_ne_nil (mantissa_ne_nil hwf)
        exact ⟨c, _, congrArg (· ++ _) htail, mem_mantissa hwf (htail ▸ List.mem_cons_self)⟩
    rw [toList_es6Text hq]
    unfold signed
    split
    · exact ⟨'-', _, rfl, by decide⟩
    · obtain ⟨c, tail, htail, hc⟩ := hbody
      exact ⟨c, tail, htail, hc.imp_right Or.inl⟩

/-! ## Values -/

mutual

def Normal.Exact : Normal → Prop
  | .number d => ∃ q, d = .finite q ∧ Double.IsExact q
  | .array items => ExactItems items
  | .object members => ExactMembers members
  | _ => True

def ExactItems : List Normal → Prop
  | [] => True
  | a :: rest => a.Exact ∧ ExactItems rest

def ExactMembers : List (String × Normal) → Prop
  | [] => True
  | (_, a) :: rest => a.Exact ∧ ExactMembers rest

end

theorem exactItems_iff {items : List Normal} : ExactItems items ↔ ∀ a ∈ items, a.Exact := by
  induction items with
  | nil => simp [ExactItems]
  | cons a rest ih => rw [ExactItems, ih, List.forall_mem_cons]

theorem exactMembers_iff {members : List (String × Normal)} :
    ExactMembers members ↔ ∀ m ∈ members, m.2.Exact := by
  induction members with
  | nil => simp [ExactMembers]
  | cons m rest ih => rw [ExactMembers, ih, List.forall_mem_cons]

def Normal.kind : Normal → ℕ
  | .null => 0
  | .bool _ => 1
  | .number _ => 2
  | .text _ => 3
  | .array _ => 4
  | .object _ => 5

def kindOf (c : Char) : ℕ :=
  if c = 'n' then 0
  else if c = 't' ∨ c = 'f' then 1
  else if c.isDigit ∨ c = '.' ∨ c = '-' then 2
  else if c = '"' then 3
  else if c = '[' then 4
  else if c = '{' then 5
  else 6

theorem head_printed {a : Normal} (h : a.Exact) :
    ∃ c tail, printed a = c :: tail ∧ kindOf c = a.kind := by
  match a with
  | .null => exact ⟨'n', _, rfl, rfl⟩
  | .bool true => exact ⟨'t', _, rfl, rfl⟩
  | .bool false => exact ⟨'f', _, rfl, rfl⟩
  | .number d =>
    obtain ⟨q, rfl, hexact⟩ := h
    obtain ⟨c, tail, htail, hc⟩ := head_es6Text hexact
    refine ⟨c, tail, htail, ?_⟩
    have hletter : c ≠ 'n' ∧ ¬ (c = 't' ∨ c = 'f') := by
      refine ⟨?_, ?_⟩
      · rintro rfl
        exact absurd hc (by decide)
      · rintro (rfl | rfl) <;> exact absurd hc (by decide)
    unfold kindOf
    rw [if_neg hletter.1, if_neg hletter.2, if_pos hc]
    rfl
  | .text _ => exact ⟨'"', _, rfl, rfl⟩
  | .array _ => exact ⟨'[', _, rfl, rfl⟩
  | .object _ => exact ⟨'{', _, rfl, rfl⟩

def Unambiguous (a : Normal) : Prop :=
  a.Exact → ∀ b : Normal, b.Exact → ∀ r r', Ends r → Ends r' →
    printed a ++ r = printed b ++ r' → a = b ∧ r = r'

def afterFirst (close : Char) (r : List Char) : List (List Char) → List Char
  | [] => close :: r
  | t :: rest => ',' :: (commas (t :: rest) ++ close :: r)

theorem commas_cons (t : List Char) (rest : List (List Char)) (close : Char) (r : List Char) :
    commas (t :: rest) ++ close :: r = t ++ afterFirst close r rest := by
  cases rest with
  | nil => rfl
  | cons t' rest' => rw [commas, afterFirst, List.append_assoc, List.cons_append]; simp

theorem ends_afterFirst {close : Char} (hclose : closes close = true) (r : List Char)
    (rest : List (List Char)) : Ends (afterFirst close r rest) := by
  intro c hc
  cases rest with
  | nil => rwa [← Option.some.inj hc]
  | cons t rest' =>
    rw [← Option.some.inj hc]
    decide

theorem commas_injective {α : Type} {f : α → List Char} {close : Char}
    (hclose : closes close = true) (hcomma : close ≠ ',') {xs ys : List α}
    (hinj : ∀ a ∈ xs, ∀ b ∈ ys, ∀ r r', Ends r → Ends r' → f a ++ r = f b ++ r' → a = b ∧ r = r')
    (hxs : ∀ a ∈ xs, ∃ c tail, f a = c :: tail ∧ c ≠ close)
    (hys : ∀ b ∈ ys, ∃ c tail, f b = c :: tail ∧ c ≠ close) {r r' : List Char}
    (h : commas (xs.map f) ++ close :: r = commas (ys.map f) ++ close :: r') :
    xs = ys ∧ r = r' := by
  induction xs generalizing ys with
  | nil =>
    cases ys with
    | nil => exact ⟨rfl, (List.cons.inj h).2⟩
    | cons b ys =>
      obtain ⟨c, tail, htail, hc⟩ := hys b List.mem_cons_self
      rw [List.map_cons, commas_cons, htail] at h
      exact absurd (List.cons.inj h).1.symm hc
  | cons a xs ih =>
    cases ys with
    | nil =>
      obtain ⟨c, tail, htail, hc⟩ := hxs a List.mem_cons_self
      rw [List.map_cons, commas_cons, htail] at h
      exact absurd (List.cons.inj h).1 hc
    | cons b ys =>
      rw [List.map_cons, List.map_cons, commas_cons, commas_cons] at h
      obtain ⟨rfl, hafter⟩ := hinj a List.mem_cons_self b List.mem_cons_self _ _
        (ends_afterFirst hclose r _) (ends_afterFirst hclose r' _) h
      cases xs with
      | nil =>
        cases ys with
        | nil => exact ⟨rfl, (List.cons.inj hafter).2⟩
        | cons b' ys => exact absurd (List.cons.inj hafter).1 hcomma
      | cons a' xs =>
        cases ys with
        | nil => exact absurd (List.cons.inj hafter).1.symm hcomma
        | cons b' ys =>
          obtain ⟨hrest, hr⟩ := ih
            (fun a ha b hb => hinj a (List.mem_cons_of_mem _ ha) b (List.mem_cons_of_mem _ hb))
            (fun a ha => hxs a (List.mem_cons_of_mem _ ha))
            (fun b hb => hys b (List.mem_cons_of_mem _ hb)) (List.cons.inj hafter).2
          exact ⟨by rw [hrest], hr⟩

theorem kind_eq {a b : Normal} (ha : a.Exact) (hb : b.Exact) {r r' : List Char}
    (h : printed a ++ r = printed b ++ r') : a.kind = b.kind := by
  obtain ⟨c, tail, htail, hc⟩ := head_printed ha
  obtain ⟨c', tail', htail', hc'⟩ := head_printed hb
  rw [htail, htail'] at h
  rw [← hc, ← hc', (List.cons.inj h).1]

theorem unambiguous_items {items : List Normal} (h : ∀ a ∈ items, Unambiguous a) :
    Unambiguous (.array items) := by
  intro ha b hb r r' _ _ heq
  have hkind := kind_eq ha hb heq
  cases b with
  | array items' =>
    have hexact := exactItems_iff.mp ha
    have hexact' := exactItems_iff.mp hb
    have hhead : ∀ a : Normal, a.Exact → ∃ c tail, printed a = c :: tail ∧ c ≠ ']' := by
      intro a ha
      obtain ⟨c, tail, htail, hc⟩ := head_printed ha
      refine ⟨c, tail, htail, ?_⟩
      rintro rfl
      cases a <;> simp [kindOf, Normal.kind] at hc
    unfold printed at heq
    rw [printedItems_eq, printedItems_eq, List.cons_append, List.cons_append, List.append_assoc,
      List.append_assoc] at heq
    obtain ⟨rfl, rfl⟩ := commas_injective (by decide) (by decide)
      (fun a ha b hb => h a ha (hexact a ha) b (hexact' b hb)) (fun a ha => hhead a (hexact a ha))
      (fun b hb => hhead b (hexact' b hb)) (List.cons.inj heq).2
    exact ⟨rfl, rfl⟩
  | _ => simp [Normal.kind] at hkind

theorem unambiguous_members {members : List (String × Normal)}
    (h : ∀ m ∈ members, Unambiguous m.2) : Unambiguous (.object members) := by
  intro ha b hb r r' _ _ heq
  have hkind := kind_eq ha hb heq
  cases b with
  | object members' =>
    have hexact := exactMembers_iff.mp ha
    have hexact' := exactMembers_iff.mp hb
    have hhead : ∀ m : String × Normal, ∃ c tail, printedMember m = c :: tail ∧ c ≠ '}' :=
      fun m => ⟨'"', _, rfl, by decide⟩
    unfold printed at heq
    rw [printedMembers_eq, printedMembers_eq, List.cons_append, List.cons_append,
      List.append_assoc, List.append_assoc] at heq
    obtain ⟨rfl, rfl⟩ := commas_injective (by decide) (by decide)
      (fun m hm m' hm' s s' hs hs' hmem => by
        unfold printedMember at hmem
        rw [List.append_assoc, List.append_assoc] at hmem
        obtain ⟨hname, hvalue⟩ := writeString_injective hmem
        obtain ⟨heq, hrest⟩ := h m hm (hexact m hm) m'.2 (hexact' m' hm') s s' hs hs'
          (List.cons.inj hvalue).2
        exact ⟨Prod.ext hname heq, hrest⟩)
      (fun m _ => hhead m) (fun m _ => hhead m) (List.cons.inj heq).2
    exact ⟨rfl, rfl⟩
  | _ => simp [Normal.kind] at hkind

mutual

theorem unambiguous : ∀ a : Normal, Unambiguous a
  | .null => by
    intro ha b hb r r' _ _ heq
    have hkind := kind_eq ha hb heq
    cases b with
    | null => exact ⟨rfl, List.append_cancel_left heq⟩
    | _ => simp [Normal.kind] at hkind
  | .bool v => by
    intro ha b hb r r' _ _ heq
    have hkind := kind_eq ha hb heq
    cases b with
    | bool v' =>
      cases v <;> cases v'
      · exact ⟨rfl, List.append_cancel_left heq⟩
      · exact absurd (List.cons.inj heq).1 (by decide)
      · exact absurd (List.cons.inj heq).1 (by decide)
      · exact ⟨rfl, List.append_cancel_left heq⟩
    | _ => simp [Normal.kind] at hkind
  | .number d => by
    intro ha b hb r r' hr hr' heq
    have hkind := kind_eq ha hb heq
    cases b with
    | number d' =>
      obtain ⟨q, rfl, hexact⟩ := ha
      obtain ⟨q', rfl, hexact'⟩ := hb
      obtain ⟨htext, hrest⟩ := append_injective (fun _ => closes_of_mem_es6Text hexact)
        (fun _ => closes_of_mem_es6Text hexact') hr hr' heq
      rw [es6Text_injective hexact hexact' htext]
      exact ⟨rfl, hrest⟩
    | _ => simp [Normal.kind] at hkind
  | .text s => by
    intro ha b hb r r' _ _ heq
    have hkind := kind_eq ha hb heq
    cases b with
    | text s' =>
      obtain ⟨rfl, hrest⟩ := writeString_injective heq
      exact ⟨rfl, hrest⟩
    | _ => simp [Normal.kind] at hkind
  | .array items => unambiguous_items (unambiguousItems items)
  | .object members => unambiguous_members (unambiguousMembers members)

theorem unambiguousItems : ∀ items : List Normal, ∀ a ∈ items, Unambiguous a
  | [] => by simp
  | a :: rest => List.forall_mem_cons.mpr ⟨unambiguous a, unambiguousItems rest⟩

theorem unambiguousMembers : ∀ members : List (String × Normal), ∀ m ∈ members, Unambiguous m.2
  | [] => by simp
  | (_, a) :: rest => List.forall_mem_cons.mpr ⟨unambiguous a, unambiguousMembers rest⟩

end

/-! ## Which values are written -/

theorem finiteItems_iff {items : List Json} : FiniteItems items ↔ ∀ j ∈ items, FiniteNumbers j := by
  induction items with
  | nil => simp [FiniteItems]
  | cons j rest ih => rw [FiniteItems, ih, List.forall_mem_cons]

theorem finiteMembers_iff {members : List (String × Json)} :
    FiniteMembers members ↔ ∀ m ∈ members, FiniteNumbers m.2 := by
  induction members with
  | nil => simp [FiniteMembers]
  | cons m rest ih => rw [FiniteMembers, ih, List.forall_mem_cons]

theorem ok_of_commaSeparated {ts : List (Except String (List Char))} {body : List Char}
    (h : commaSeparated ts = .ok body) : ∀ t ∈ ts, ∃ cs, t = .ok cs := by
  induction ts generalizing body with
  | nil => simp
  | cons t rest ih =>
    cases rest with
    | nil =>
      intro t' ht'
      rw [List.mem_singleton.mp ht']
      exact ⟨body, h⟩
    | cons t' rest' =>
      rw [commaSeparated] at h
      · cases t with
        | error e => cases h
        | ok head =>
          cases htail : commaSeparated (t' :: rest') with
          | error e =>
            rw [htail] at h
            cases h
          | ok tail => exact List.forall_mem_cons.mpr ⟨⟨head, rfl⟩, ih htail⟩
      · simp

theorem mem_writeItems {items : List Json} {j : Json} (h : j ∈ items) :
    write j ∈ writeItems items := by
  induction items with
  | nil => cases h
  | cons a rest ih =>
    rw [writeItems]
    rcases List.mem_cons.mp h with rfl | h
    · exact List.mem_cons_self
    · exact List.mem_cons_of_mem _ (ih h)

theorem mem_writeMembers {members : List (String × Json)} {m : String × Json} (h : m ∈ members) :
    (m.1, write m.2) ∈ writeMembers members := by
  induction members with
  | nil => cases h
  | cons a rest ih =>
    rw [writeMembers]
    rcases List.mem_cons.mp h with rfl | h
    · exact List.mem_cons_self
    · exact List.mem_cons_of_mem _ (ih h)

mutual

theorem finite_of_write : ∀ j : Json, UniqueKeys j → ∀ t, write j = .ok t → FiniteNumbers j
  | .null, _, _, _ => trivial
  | .bool _, _, _, _ => trivial
  | .number n, _, t, h => by
    unfold write es6Number at h
    split at h
    · assumption
    · cases h
  | .text _, _, _, _ => trivial
  | .array items, hunique, t, h => by
    rw [write] at h
    cases hbody : commaSeparated (writeItems items) with
    | error e =>
      rw [hbody] at h
      cases h
    | ok body =>
      exact finite_of_writeItems items hunique fun j hj =>
        ok_of_commaSeparated hbody _ (mem_writeItems hj)
  | .object members, hunique, t, h => by
    have hnodup : ((writeMembers members).map Prod.fst).Nodup := by
      rw [map_fst_writeMembers]
      exact hunique.1
    rw [write, sortMembers_of_nodup hnodup] at h
    cases hbody : commaSeparated (((writeMembers members).insertionSort memberLe).map fun m =>
        m.2.map fun t => writeString m.1 ++ ':' :: t) with
    | error e =>
      rw [hbody] at h
      cases h
    | ok body =>
      refine finite_of_writeMembers members hunique.2 fun m hm => ?_
      have hmem := (List.mem_insertionSort memberLe).mpr (mem_writeMembers hm)
      obtain ⟨cs, hcs⟩ := ok_of_commaSeparated hbody _ (List.mem_map_of_mem hmem)
      cases htext : write m.2 with
      | error e =>
        rw [htext] at hcs
        cases hcs
      | ok t => exact ⟨t, rfl⟩

theorem finite_of_writeItems : ∀ items : List Json, UniqueKeysItems items →
    (∀ j ∈ items, ∃ t, write j = .ok t) → FiniteItems items
  | [], _, _ => trivial
  | j :: rest, hunique, h => by
    obtain ⟨⟨t, ht⟩, hrest⟩ := List.forall_mem_cons.mp h
    exact ⟨finite_of_write j hunique.1 t ht, finite_of_writeItems rest hunique.2 hrest⟩

theorem finite_of_writeMembers : ∀ members : List (String × Json), UniqueKeysMembers members →
    (∀ m ∈ members, ∃ t, write m.2 = .ok t) → FiniteMembers members
  | [], _, _ => trivial
  | (_, j) :: rest, hunique, h => by
    obtain ⟨⟨t, ht⟩, hrest⟩ := List.forall_mem_cons.mp h
    exact ⟨finite_of_write j hunique.1 t ht, finite_of_writeMembers rest hunique.2 hrest⟩

end

end CanonicalJson

end OpenBridge.GateConfig
