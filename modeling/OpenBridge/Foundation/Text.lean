import Mathlib.Algebra.Ring.Int.Defs
import Mathlib.Algebra.Order.Ring.Nat
import Mathlib.Data.List.Infix

/-!
# Foundation: text helpers of the platforms

The string functions of the .NET and Java libraries that the services call, over lists of
characters.
-/

namespace OpenBridge.Foundation

def isWhiteSpace (c : Char) : Bool :=
  let n := c.toNat
  (9 ≤ n ∧ n ≤ 13) ∨ n = 32 ∨ n = 0x85 ∨ n = 0xA0 ∨ n = 0x1680 ∨ (0x2000 ≤ n ∧ n ≤ 0x200A) ∨
    n = 0x2028 ∨ n = 0x2029 ∨ n = 0x202F ∨ n = 0x205F ∨ n = 0x3000

/-- Drop the characters that satisfy `p` at both ends. -/
def trimWhere (p : Char → Bool) (s : String) : String :=
  String.ofList (((s.toList.dropWhile p).reverse.dropWhile p).reverse)

theorem trimWhere_of_all {p : Char → Bool} {s : String} (h : ∀ c ∈ s.toList, p c = false) :
    trimWhere p s = s := by
  have hdrop : s.toList.dropWhile p = s.toList := by
    cases hs : s.toList with
    | nil => rfl
    | cons c cs => rw [List.dropWhile_cons_of_neg (by simp [h c (by simp [hs])])]
  have hdrop' : s.toList.reverse.dropWhile p = s.toList.reverse := by
    cases hs : s.toList.reverse with
    | nil => rfl
    | cons c cs =>
      have hmem : c ∈ s.toList := List.mem_reverse.mp (by simp [hs])
      rw [List.dropWhile_cons_of_neg (by simp [h c hmem])]
  rw [trimWhere, hdrop, hdrop', List.reverse_reverse, String.ofList_toList]

/-- `string.Trim()`. -/
def trim (s : String) : String := trimWhere isWhiteSpace s

/-- Upper case, as far as ASCII texts are compared with the result: no other character has an
ASCII letter as its invariant upper case. -/
def toUpperInvariant (s : String) : String := String.ofList (s.toList.map Char.toUpper)

def toLowerInvariant (s : String) : String := String.ofList (s.toList.map Char.toLower)

/-- The upper case of a character in the root locale, as far as it has ASCII letters. -/
def upperRoot (c : Char) : List Char :=
  match c with
  | 'ı' => ['I']
  | 'ſ' => ['S']
  | 'ß' => ['S', 'S']
  | 'ﬀ' => ['F', 'F']
  | 'ﬁ' => ['F', 'I']
  | 'ﬂ' => ['F', 'L']
  | 'ﬃ' => ['F', 'F', 'I']
  | 'ﬄ' => ['F', 'F', 'L']
  | 'ﬅ' => ['S', 'T']
  | 'ﬆ' => ['S', 'T']
  | c => [c.toUpper]

/-- `toUpperCase(Locale.ROOT)`, as far as ASCII texts are compared with the result. -/
def toUpperRoot (s : String) : String := String.ofList (s.toList.flatMap upperRoot)

/-- The letter that a character is compared as when case is ignored, as far as it is an ASCII letter. -/
def foldCase (c : Char) : Char :=
  match c with
  | 'ı' => 'I'
  | 'İ' => 'I'
  | 'ſ' => 'S'
  | 'K' => 'K'
  | c => c.toUpper

/-- `equalsIgnoreCase`, as far as ASCII texts are compared. -/
def equalsIgnoreCase (s t : String) : Bool := s.toList.map foldCase = t.toList.map foldCase

/-- `string.Length`: the UTF-16 code units of a text. -/
def utf16Length (s : String) : ℕ := (s.toList.map fun c => if c.toNat < 0x10000 then 1 else 2).sum

/-- `contains` on texts. -/
def containsText (s part : String) : Bool := part.toList <:+: s.toList

def startsWith (s start : String) : Bool := start.toList <+: s.toList

def parseDigits (cs : List Char) : Option ℕ :=
  if cs = [] ∨ ¬ cs.all Char.isDigit then none
  else some (cs.foldl (fun n c => 10 * n + (c.toNat - '0'.toNat)) 0)

/-- `long.TryParse` with only a leading sign allowed: an optional sign, digits, and the value in
64 bits. -/
def tryInteger (token : String) : Option ℤ :=
  let parsed : Option ℤ :=
    match token.toList with
    | '-' :: rest => (parseDigits rest).map fun n => -(n : ℤ)
    | '+' :: rest => (parseDigits rest).map fun n => (n : ℤ)
    | cs => (parseDigits cs).map fun n => (n : ℤ)
  parsed.filter fun n => -2 ^ 63 ≤ n ∧ n < 2 ^ 63

end OpenBridge.Foundation
