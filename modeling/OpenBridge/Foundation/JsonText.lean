import Mathlib.Data.List.Basic

/-!
# Foundation: `JSON.parse`

The reader of JSON texts over UTF-16 code units.  A string is the list of its code units, so a lone
surrogate is a string too.  How a number is read from its literal is a parameter.
-/

namespace OpenBridge.Foundation

abbrev CodeUnit := UInt16

def ascii (s : String) : List CodeUnit := s.toList.map fun c => UInt16.ofNat c.toNat

/-- A value that `JSON.parse` gives; an object keeps its members as the text lists them. -/
inductive JsonValue (ν : Type) where
  | null
  | bool (b : Bool)
  | number (n : ν)
  | text (s : List CodeUnit)
  | array (items : List (JsonValue ν))
  | object (members : List (List CodeUnit × JsonValue ν))

namespace JsonValue

variable {ν : Type}

def get (j : JsonValue ν) (name : List CodeUnit) : Option (JsonValue ν) :=
  match j with
  | object members => members.reverse.lookup name
  | _ => none

theorem get_object (members : List (List CodeUnit × JsonValue ν)) (name : List CodeUnit) :
    (object members).get name = members.reverse.lookup name := rfl

end JsonValue

namespace JsonText

def quote : CodeUnit := 34

def backslash : CodeUnit := 92

def comma : CodeUnit := 44

def colon : CodeUnit := 58

def openBrace : CodeUnit := 123

def closeBrace : CodeUnit := 125

def openBracket : CodeUnit := 91

def closeBracket : CodeUnit := 93

def isWs (c : CodeUnit) : Bool := c = 32 ∨ c = 9 ∨ c = 10 ∨ c = 13

def isNumberUnit (c : CodeUnit) : Bool :=
  (48 ≤ c ∧ c ≤ 57) ∨ c = 45 ∨ c = 43 ∨ c = 46 ∨ c = 101 ∨ c = 69

def skipWs (cs : List CodeUnit) : List CodeUnit := cs.dropWhile isWs

def expect (u : CodeUnit) (cs : List CodeUnit) : Option (List CodeUnit) :=
  match skipWs cs with
  | [] => none
  | c :: rest => if c = u then some rest else none

/-! ## Strings -/

def hexValue (c : CodeUnit) : Option CodeUnit :=
  if 48 ≤ c ∧ c ≤ 57 then some (c - 48)
  else if 97 ≤ c ∧ c ≤ 102 then some (c - 87)
  else if 65 ≤ c ∧ c ≤ 70 then some (c - 55)
  else none

def simpleEscape (c : CodeUnit) : Option CodeUnit :=
  if c = quote ∨ c = backslash ∨ c = 47 then some c
  else if c = 98 then some 8
  else if c = 102 then some 12
  else if c = 110 then some 10
  else if c = 114 then some 13
  else if c = 116 then some 9
  else none

def hexUnit (a b c d : CodeUnit) : Option CodeUnit := do
  let a ← hexValue a
  let b ← hexValue b
  let c ← hexValue c
  let d ← hexValue d
  some (((a * 16 + b) * 16 + c) * 16 + d)

def stringBody : List CodeUnit → Option (List CodeUnit × List CodeUnit)
  | [] => none
  | c :: rest =>
      if c = quote then some ([], rest)
      else if c = backslash then
        match rest with
        | [] => none
        | e :: rest =>
            if e = 117 then
              match rest with
              | h₁ :: h₂ :: h₃ :: h₄ :: rest =>
                  (hexUnit h₁ h₂ h₃ h₄).bind fun u =>
                    (stringBody rest).map fun p => (u :: p.1, p.2)
              | _ => none
            else
              (simpleEscape e).bind fun u => (stringBody rest).map fun p => (u :: p.1, p.2)
      else if c < 32 then none
      else (stringBody rest).map fun p => (c :: p.1, p.2)

/-! ## Values -/

section Values

variable {ν : Type}

def literal (word : String) (v : JsonValue ν) (cs : List CodeUnit) :
    Option (JsonValue ν × List CodeUnit) :=
  if ascii word <+: cs then some (v, cs.drop (ascii word).length) else none

def scalar (number : List CodeUnit → Option ν) (cs : List CodeUnit) :
    Option (JsonValue ν × List CodeUnit) :=
  (literal "true" (.bool true) cs).or <|
    (literal "false" (.bool false) cs).or <|
      (literal "null" .null cs).or <|
        (number (cs.takeWhile isNumberUnit)).map fun n => (.number n, cs.dropWhile isNumberUnit)

mutual

def value (number : List CodeUnit → Option ν) :
    ℕ → List CodeUnit → Option (JsonValue ν × List CodeUnit)
  | 0, _ => none
  | fuel + 1, cs =>
      match skipWs cs with
      | [] => none
      | c :: rest =>
          if c = quote then (stringBody rest).map fun p => (.text p.1, p.2)
          else if c = openBrace then
            match expect closeBrace rest with
            | some rest => some (.object [], rest)
            | none => (members number fuel rest).map fun p => (.object p.1, p.2)
          else if c = openBracket then
            match expect closeBracket rest with
            | some rest => some (.array [], rest)
            | none => (elements number fuel rest).map fun p => (.array p.1, p.2)
          else scalar number (c :: rest)

def members (number : List CodeUnit → Option ν) :
    ℕ → List CodeUnit → Option (List (List CodeUnit × JsonValue ν) × List CodeUnit)
  | 0, _ => none
  | fuel + 1, cs =>
      (expect quote cs).bind fun rest =>
        (stringBody rest).bind fun key =>
          (expect colon key.2).bind fun rest =>
            (value number fuel rest).bind fun v =>
              match expect comma v.2 with
              | some rest => (members number fuel rest).map fun p => ((key.1, v.1) :: p.1, p.2)
              | none => (expect closeBrace v.2).map fun rest => ([(key.1, v.1)], rest)

def elements (number : List CodeUnit → Option ν) :
    ℕ → List CodeUnit → Option (List (JsonValue ν) × List CodeUnit)
  | 0, _ => none
  | fuel + 1, cs =>
      (value number fuel cs).bind fun v =>
        match expect comma v.2 with
        | some rest => (elements number fuel rest).map fun p => (v.1 :: p.1, p.2)
        | none => (expect closeBracket v.2).map fun rest => ([v.1], rest)

end

/-- `JSON.parse`: a value with nothing but white space after it.  A value or a member takes at least
one unit of the text, so its length is fuel enough. -/
def parse (number : List CodeUnit → Option ν) (cs : List CodeUnit) : Option (JsonValue ν) :=
  (value number (cs.length + 1) cs).bind fun p => if skipWs p.2 = [] then some p.1 else none

end Values

/-! ## Reading what was written -/

def isPlain (c : CodeUnit) : Bool := c ≠ quote ∧ c ≠ backslash ∧ ¬ c < 32

theorem skipWs_of_not_ws {c : CodeUnit} (h : isWs c = false) (cs : List CodeUnit) :
    skipWs (c :: cs) = c :: cs := by
  unfold skipWs
  rw [List.dropWhile_cons_of_neg (by simp [h])]

theorem expect_self {u : CodeUnit} (h : isWs u = false) (cs : List CodeUnit) :
    expect u (u :: cs) = some cs := by
  unfold expect
  rw [skipWs_of_not_ws h]
  exact if_pos rfl

theorem expect_of_ne {u c : CodeUnit} (h : isWs c = false) (hne : c ≠ u) (cs : List CodeUnit) :
    expect u (c :: cs) = none := by
  unfold expect
  rw [skipWs_of_not_ws h]
  exact if_neg hne

theorem stringBody_quote (cs : List CodeUnit) : stringBody (quote :: cs) = some ([], cs) := by
  unfold stringBody
  exact if_pos rfl

theorem stringBody_plain {c : CodeUnit} (h : isPlain c = true) (cs : List CodeUnit) :
    stringBody (c :: cs) = (stringBody cs).map fun p => (c :: p.1, p.2) := by
  unfold isPlain at h
  rw [decide_eq_true_eq] at h
  conv_lhs => unfold stringBody
  rw [if_neg h.1, if_neg h.2.1, if_neg h.2.2]

theorem stringBody_of_plain {key : List CodeUnit} (h : key.all isPlain = true)
    (cs : List CodeUnit) : stringBody (key ++ quote :: cs) = some (key, cs) := by
  induction key with
  | nil => exact stringBody_quote cs
  | cons c rest ih =>
    rw [List.all_cons, Bool.and_eq_true] at h
    rw [List.cons_append, stringBody_plain h.1, ih h.2]
    rfl

section Values

variable {ν : Type} {number : List CodeUnit → Option ν}

theorem value_quote (fuel : ℕ) (cs : List CodeUnit) :
    value number (fuel + 1) (quote :: cs) =
      (stringBody cs).map fun p => (.text p.1, p.2) := by
  unfold value
  rw [skipWs_of_not_ws (by decide)]
  exact if_pos rfl

theorem value_openBrace (fuel : ℕ) {cs : List CodeUnit} (h : expect closeBrace cs = none) :
    value number (fuel + 1) (openBrace :: cs) =
      (members number fuel cs).map fun p => (.object p.1, p.2) := by
  unfold value
  rw [skipWs_of_not_ws (by decide)]
  dsimp only
  rw [if_neg (by decide), if_pos rfl, h]

theorem value_scalar (fuel : ℕ) {c : CodeUnit} {cs : List CodeUnit} (hws : isWs c = false)
    (hquote : c ≠ quote) (hbrace : c ≠ openBrace) (hbracket : c ≠ openBracket) :
    value number (fuel + 1) (c :: cs) = scalar number (c :: cs) := by
  unfold value
  rw [skipWs_of_not_ws hws]
  dsimp only
  rw [if_neg hquote, if_neg hbrace, if_neg hbracket]

theorem value_number (fuel : ℕ) {n : ν} {cs rest : List CodeUnit} (hne : cs ≠ [])
    (hunits : ∀ c ∈ cs, isNumberUnit c = true) (hrest : ∀ c ∈ rest.head?, isNumberUnit c = false)
    (hnumber : number cs = some n) :
    value number (fuel + 1) (cs ++ rest) = some (.number n, rest) := by
  have htake : (cs ++ rest).takeWhile isNumberUnit = cs := by
    rw [List.takeWhile_append_of_pos hunits]
    cases rest with
    | nil => simp
    | cons c rest => simp [hrest c rfl]
  have hdrop : (cs ++ rest).dropWhile isNumberUnit = rest := by
    rw [List.dropWhile_append_of_pos hunits]
    cases rest with
    | nil => rfl
    | cons c rest => exact List.dropWhile_cons_of_neg (by simp [hrest c rfl])
  have hscalar : scalar number (cs ++ rest) = some (.number n, rest) := by
    have hliteral (word : String) (v : JsonValue ν) (hword : ∃ c r, ascii word = c :: r ∧
        isNumberUnit c = false) : literal word v (cs ++ rest) = none := by
      obtain ⟨c, r, hword, hc⟩ := hword
      refine if_neg ?_
      rw [hword]
      cases cs with
      | nil => exact absurd rfl hne
      | cons d ds =>
        rw [List.cons_append, List.cons_prefix_cons]
        rintro ⟨rfl, -⟩
        rw [hunits c List.mem_cons_self] at hc
        cases hc
    unfold scalar
    rw [hliteral "true" _ ⟨116, _, rfl, by decide⟩, hliteral "false" _ ⟨102, _, rfl, by decide⟩,
      hliteral "null" _ ⟨110, _, rfl, by decide⟩, htake, hdrop, hnumber]
    rfl
  cases cs with
  | nil => exact absurd rfl hne
  | cons c cs =>
    have hc := hunits c List.mem_cons_self
    have hother (u : CodeUnit) (hu : isNumberUnit u = false) : c ≠ u := by
      rintro rfl
      rw [hu] at hc
      cases hc
    have hws : isWs c = false := by
      unfold isWs
      rw [decide_eq_false_iff_not, not_or, not_or, not_or]
      exact ⟨hother 32 (by decide), hother 9 (by decide), hother 10 (by decide),
        hother 13 (by decide)⟩
    rw [← hscalar, List.cons_append]
    exact value_scalar fuel hws (hother quote (by decide)) (hother openBrace (by decide))
      (hother openBracket (by decide))

theorem literal_self (word : String) (v : JsonValue ν) (rest : List CodeUnit) :
    literal word v (ascii word ++ rest) = some (v, rest) := by
  unfold literal
  rw [if_pos (List.prefix_append _ _), List.drop_left]

theorem value_true (fuel : ℕ) (rest : List CodeUnit) :
    value number (fuel + 1) (ascii "true" ++ rest) = some (.bool true, rest) := by
  have hscalar : scalar number (ascii "true" ++ rest) = some (.bool true, rest) := by
    unfold scalar
    rw [literal_self]
    rfl
  have hword : ascii "true" = [116, 114, 117, 101] := by decide
  rw [hword] at hscalar ⊢
  exact (value_scalar fuel (by decide) (by decide) (by decide) (by decide)).trans hscalar

theorem value_false (fuel : ℕ) (rest : List CodeUnit) :
    value number (fuel + 1) (ascii "false" ++ rest) = some (.bool false, rest) := by
  have hword : ascii "false" = [102, 97, 108, 115, 101] := by decide
  have hscalar : scalar number (ascii "false" ++ rest) = some (.bool false, rest) := by
    have htrue : literal "true" (.bool true : JsonValue ν) (ascii "false" ++ rest) = none := by
      refine if_neg ?_
      rw [hword, show ascii "true" = [116, 114, 117, 101] by decide, List.cons_append,
        List.cons_prefix_cons]
      exact fun h => absurd h.1 (by decide)
    unfold scalar
    rw [htrue, literal_self]
    rfl
  rw [hword] at hscalar ⊢
  exact (value_scalar fuel (by decide) (by decide) (by decide) (by decide)).trans hscalar

/-! ## Members one after another -/

def memberTail (number : List CodeUnit → Option ν) (fuel : ℕ) (key : List CodeUnit)
    (v : JsonValue ν) (cs : List CodeUnit) :
    Option (List (List CodeUnit × JsonValue ν) × List CodeUnit) :=
  match expect comma cs with
  | some rest => (members number fuel rest).map fun p => ((key, v) :: p.1, p.2)
  | none => (expect closeBrace cs).map fun rest => ([(key, v)], rest)

theorem members_member {key : List CodeUnit} (h : key.all isPlain = true) (fuel : ℕ)
    (cs : List CodeUnit) :
    members number (fuel + 1) (quote :: (key ++ quote :: colon :: cs)) =
      (value number fuel cs).bind fun v => memberTail number fuel key v.1 v.2 := by
  conv_lhs => unfold members
  rw [expect_self (by decide), Option.bind_some, stringBody_of_plain h, Option.bind_some,
    expect_self (by decide), Option.bind_some]
  rfl

theorem memberTail_comma (fuel : ℕ) (key : List CodeUnit) (v : JsonValue ν) (cs : List CodeUnit) :
    memberTail number fuel key v (comma :: cs) =
      (members number fuel cs).map fun p => ((key, v) :: p.1, p.2) := by
  unfold memberTail
  rw [expect_self (by decide)]

theorem memberTail_closeBrace (fuel : ℕ) (key : List CodeUnit) (v : JsonValue ν)
    (cs : List CodeUnit) :
    memberTail number fuel key v (closeBrace :: cs) = some ([(key, v)], cs) := by
  unfold memberTail
  rw [expect_of_ne (by decide) (by decide), expect_self (by decide)]
  rfl

end Values

end JsonText

end OpenBridge.Foundation
