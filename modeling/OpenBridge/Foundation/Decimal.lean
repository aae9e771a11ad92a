import OpenBridge.Foundation.Double
import OpenBridge.Foundation.Text

/-!
# Foundation: decimal text of binary64 numbers

`Double.toString` and `ToString("R")` both print the fewest decimal digits that read back as the
same double, and of those the closest.  `shortest` finds them; `es6Text`, `invariantText` and
`javaText` are the three ways the services lay them out (ES6 `Number::toString`, .NET's invariant
culture, and `Double.toString`).
-/

namespace OpenBridge.Foundation

/-- The significant digits of a positive number and the position of its decimal point: the number
`0.d₁d₂…dₖ × 10ⁿ`, written `(d₁d₂…dₖ, n)`, with `d₁` and `dₖ` not zero. -/
structure DecimalDigits where
  digits : List Char
  point : ℤ
  deriving DecidableEq

namespace DecimalDigits

def stripTrailing (ds : List Char) : List Char := (ds.reverse.dropWhile (· = '0')).reverse

/-- The digits of `coefficient × 10 ^ exponent`. -/
def ofScaled (coefficient : ℕ) (exponent : ℤ) : DecimalDigits :=
  let ds := Nat.toDigits 10 coefficient
  ⟨stripTrailing ds, ds.length + exponent⟩

/-- Whether `coefficient × 10 ^ exponent` reads back as the double `q`. -/
def readsBack (q : ℚ) (coefficient : ℤ) (exponent : ℤ) : Bool :=
  Double.ofRat (coefficient * (10 : ℚ) ^ exponent) = .finite q

/-- The candidate with `k` significant digits, the closer of the two neighbours first. -/
def withDigits (q : ℚ) (k : ℕ) : Option DecimalDigits :=
  let exponent : ℤ := Int.log 10 q + 1 - k
  let scaled := q / (10 : ℚ) ^ exponent
  let near := rint scaled
  let far := if near = ⌊scaled⌋ then near + 1 else near - 1
  if readsBack q near exponent then some (ofScaled near.toNat exponent)
  else if readsBack q far exponent then some (ofScaled far.toNat exponent)
  else none

/-- The fewest digits that read back as the positive double `q`; seventeen always do. -/
def shortest (q : ℚ) : DecimalDigits :=
  ((List.range' 1 17).findSome? (withDigits q)).getD ⟨['0'], 1⟩

def zeros (n : ℤ) : List Char := List.replicate n.toNat '0'

def mantissa : List Char → List Char
  | [] => []
  | [d] => [d]
  | d :: rest => d :: '.' :: rest

def positional (d : DecimalDigits) : List Char :=
  let k : ℤ := d.digits.length
  if k ≤ d.point then d.digits ++ zeros (d.point - k)
  else if 0 < d.point then
    d.digits.take d.point.toNat ++ '.' :: d.digits.drop d.point.toNat
  else '0' :: '.' :: zeros (-d.point) ++ d.digits

end DecimalDigits

open DecimalDigits

/-- ES6 `Number::toString`: positional for `1e-6 ≤ |x| < 1e21`, else with an exponent.  The two
infinities never reach it (both platforms throw before). -/
def es6Text : Double → String
  | .infinite negative => if negative then "-Infinity" else "Infinity"
  | .finite q =>
      if q = 0 then "0"
      else
        let d := shortest |q|
        let e := d.point - 1
        let body :=
          if -6 < d.point ∧ d.point ≤ 21 then positional d
          else
            mantissa d.digits ++
              'e' :: (if e < 0 then '-' else '+') :: (toString e.natAbs).toList
        String.ofList (if q < 0 then '-' :: body else body)

/-- .NET's `double.ToString(InvariantCulture)`, with `"R"` or without: an exponent of at least two
digits below `1e-5`, and where there are more integer digits than fifteen and than digits. -/
def invariantText : Double → String
  | .infinite negative => if negative then "-Infinity" else "Infinity"
  | .finite q =>
      if q = 0 then "0"
      else
        let d := shortest |q|
        let e := d.point - 1
        let exponentDigits := (toString e.natAbs).toList
        let body :=
          if -4 < d.point ∧ d.point ≤ max 15 d.digits.length then positional d
          else mantissa d.digits ++ 'E' :: (if e < 0 then '-' else '+') ::
            (zeros (2 - exponentDigits.length) ++ exponentDigits)
        String.ofList (if q < 0 then '-' :: body else body)

/-- `Double.toString`: positional from `1e-3` up to `1e7`, with at least one digit after the
point. -/
def javaText : Double → String
  | .infinite negative => if negative then "-Infinity" else "Infinity"
  | .finite q =>
      if q = 0 then "0.0"
      else
        let d := shortest |q|
        let body :=
          if -3 < d.point ∧ d.point ≤ 7 then
            if (d.digits.length : ℤ) ≤ d.point then positional d ++ ['.', '0'] else positional d
          else
            (if d.digits.length = 1 then d.digits ++ ['.', '0'] else mantissa d.digits) ++
              'E' :: (toString (d.point - 1)).toList
        String.ofList (if q < 0 then '-' :: body else body)

/-! ## Reading -/

def digitOf (base : ℕ) (c : Char) : Option ℕ :=
  let v :=
    if c.isDigit then c.toNat - '0'.toNat
    else if 'a' ≤ c.toLower ∧ c.toLower ≤ 'f' then c.toLower.toNat - 'a'.toNat + 10
    else base
  if v < base then some v else none

def takeDigits (base : ℕ) : List Char → List ℕ × List Char
  | [] => ([], [])
  | c :: rest =>
      match digitOf base c with
      | some v => (v :: (takeDigits base rest).1, (takeDigits base rest).2)
      | none => ([], c :: rest)

def significand (base : ℕ) (cs : List Char) : Option (ℕ × ℕ × List Char) :=
  let (whole, afterWhole) := takeDigits base cs
  let (fraction, rest) :=
    match afterWhole with
    | '.' :: r => takeDigits base r
    | r => ([], r)
  if whole ++ fraction = [] then none
  else some ((whole ++ fraction).foldl (fun n v => base * n + v) 0, fraction.length, rest)

/-- An exponent after a marker, if there is one; `none` when the marker has no digits. -/
def exponent (marker : Char) (cs : List Char) : Option (Option ℤ × List Char) :=
  match cs with
  | m :: rest =>
      if m.toLower ≠ marker then some (none, cs)
      else
        let (negative, body) :=
          match rest with
          | '-' :: r => (true, r)
          | '+' :: r => (false, r)
          | r => (false, r)
        let (ds, after) := takeDigits 10 body
        let v : ℤ := ds.foldl (fun n v => 10 * n + v) 0
        if ds = [] then none else some (some (if negative then -v else v), after)
  | [] => some (none, [])

/-- `Double.parseDouble`: `none` is a number format error, `some none` is NaN. -/
def parseDouble (s : String) : Option (Option Double) := do
  let cs := (trimWhere (fun c => c.toNat ≤ 0x20) s).toList
  let (negative, body) :=
    match cs with
    | '-' :: r => (true, r)
    | '+' :: r => (false, r)
    | r => (false, r)
  let signed (q : ℚ) : Double := Double.ofRat (if negative then -q else q)
  let suffix (r : List Char) : Bool := r = [] ∨ r.map Char.toLower = ['f'] ∨ r.map Char.toLower = ['d']
  if body = "NaN".toList then some none
  else if body = "Infinity".toList then some (some (.infinite negative))
  else if (body.take 2).map Char.toLower = ['0', 'x'] then
    let (coefficient, places, rest) ← significand 16 (body.drop 2)
    match ← exponent 'p' rest with
    | (some e, r) =>
        if suffix r then some (some (signed (coefficient * (2 : ℚ) ^ (e - 4 * places)))) else none
    | (none, _) => none
  else
    let (coefficient, places, rest) ← significand 10 body
    let (e, r) ← exponent 'e' rest
    if suffix r then some (some (signed (coefficient * (10 : ℚ) ^ (e.getD 0 - places)))) else none

end OpenBridge.Foundation
