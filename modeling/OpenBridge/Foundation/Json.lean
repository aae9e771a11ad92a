import OpenBridge.Foundation.Decimal
import OpenBridge.Foundation.Dict

/-!
# Foundation: JSON trees

A parsed JSON text, and the accessors of the Jackson tree the workers read it through.  An object
keeps its members as the text lists them; the node a reader sees holds one value a name
(`Json.fields`): a repeated name replaces the value where the name first stood.
-/

namespace OpenBridge.Foundation

/-- A number: an integer literal of any size, or the value of a literal with a point or an
exponent, which a reader takes as a double. -/
inductive JsonNumber where
  | integral (n : ℤ)
  | decimal (value : ℚ)
  deriving DecidableEq

namespace JsonNumber

/-- `doubleValue()`. -/
def toDouble : JsonNumber → Double
  | integral n => Double.ofInt n
  | decimal q => Double.ofRat q

/-- `isIntegralNumber()`. -/
def isIntegral : JsonNumber → Bool
  | integral _ => true
  | decimal _ => false

/-- A number cut to a signed integer of `bits + 1` bits: integers wrap around, doubles are
truncated and saturate. -/
def toSigned (bits : ℕ) : JsonNumber → ℤ
  | integral n => Int.bmod n (2 ^ (bits + 1))
  | decimal q =>
      match Double.ofRat q with
      | .finite v => max (-2 ^ bits) (min (2 ^ bits - 1) (if v < 0 then -⌊-v⌋ else ⌊v⌋))
      | .infinite negative => if negative then -2 ^ bits else 2 ^ bits - 1

/-- `asText()`. -/
def text : JsonNumber → String
  | integral n => toString n
  | decimal q => javaText (Double.ofRat q)

/-- `TryGetInt64`: only an integer literal in range is one. -/
def tryGetInt64 : JsonNumber → Option ℤ
  | integral n => if -2 ^ 63 ≤ n ∧ n < 2 ^ 63 then some n else none
  | decimal _ => none

theorem toSigned_of_range {bits : ℕ} {n : ℤ} (h : -2 ^ bits ≤ n) (h' : n < 2 ^ bits) :
    (integral n).toSigned bits = n := by
  have hpow : ((2 ^ (bits + 1) : ℕ) : ℤ) = 2 * 2 ^ bits := by
    push_cast
    rw [pow_succ, mul_comm]
  exact Int.bmod_eq_of_le (by omega) (by omega)

end JsonNumber

inductive Json where
  | null
  | bool (b : Bool)
  | number (n : JsonNumber)
  | text (s : String)
  | array (items : List Json)
  | object (members : List (String × Json))
  deriving Inhabited

/-- A node of the tree, or the missing node (`none`) that `path` gives where there is none. -/
abbrev JsonNode := Option Json

namespace Json

def readFields (members : List (String × Json)) : Dict String Json :=
  members.foldl (fun d m => d.set m.1 m.2) Dict.empty

def fields : Json → Dict String Json
  | object members => readFields members
  | _ => Dict.empty

/-- What a `for` over a node visits: the items of an array, the values of an object. -/
def elements : Json → List Json
  | array items => items
  | object members => (readFields members).values
  | _ => []

/-- `get(name)`: `none` where the node has no such field. -/
def get (j : Json) (name : String) : JsonNode := j.fields.get? name

def isObject : Json → Bool
  | object _ => true
  | _ => false

def isArray : Json → Bool
  | array _ => true
  | _ => false

def isText : Json → Bool
  | text _ => true
  | _ => false

def isNumber : Json → Bool
  | number _ => true
  | _ => false

def isIntegralNumber : Json → Bool
  | number n => n.isIntegral
  | _ => false

def isBoolean : Json → Bool
  | bool _ => true
  | _ => false

def isNull : Json → Bool
  | null => true
  | _ => false

/-- `getNodeType()`. -/
def nodeType : Json → String
  | null => "NULL"
  | bool _ => "BOOLEAN"
  | number _ => "NUMBER"
  | text _ => "STRING"
  | array _ => "ARRAY"
  | object _ => "OBJECT"

/-- `asText()`. -/
def asText : Json → String
  | null => "null"
  | bool b => if b then "true" else "false"
  | number n => n.text
  | text s => s
  | array _ => ""
  | object _ => ""

theorem readFields_concat (members : List (String × Json)) (m : String × Json) :
    readFields (members ++ [m]) = (readFields members).set m.1 m.2 := by
  simp [readFields]

theorem get?_readFields (members : List (String × Json)) (name : String) :
    (readFields members).get? name = members.reverse.lookup name := by
  induction members using List.reverseRecOn with
  | nil => rfl
  | append_singleton members m ih =>
    obtain ⟨k, v⟩ := m
    rw [readFields_concat, Dict.get?_set, ih, List.reverse_concat, List.lookup_cons]
    by_cases h : name = k
    · simp [h]
    · simp [h, beq_false_of_ne h]

theorem get_object (members : List (String × Json)) (name : String) :
    (object members).get name = members.reverse.lookup name :=
  get?_readFields members name

@[simp] theorem get_null (name : String) : null.get name = none := rfl

end Json

namespace JsonNode

/-- `path(name)`. -/
def path (n : JsonNode) (name : String) : JsonNode := n.bind fun j => j.get name

/-- `asText(default)`. -/
def asText (n : JsonNode) (default : String) : String :=
  match n with
  | none | some .null => default
  | some j => j.asText

/-- `asDouble(default)`; `none` is NaN, which only a text can give. -/
def asDouble (n : JsonNode) (default : Double) : Option Double :=
  match n with
  | some (.number v) => some v.toDouble
  | some (.text s) => (parseDouble s).getD (some default)
  | some (.bool b) => some (Double.ofInt (if b then 1 else 0))
  | _ => some default

/-- `asText(null)`. -/
def nullableText : JsonNode → Option String
  | none | some .null => none
  | some j => some j.asText

/-- `NumberInput.parseAsInt` and `parseAsLong`, for a signed integer of `bits + 1` bits: digits with
a sign, or a double that is truncated. -/
def parseAsSigned (bits : ℕ) (s : String) (default : ℤ) : ℤ :=
  let cs := (trimWhere (fun c => c.toNat ≤ 0x20) s).toList
  if cs = [] then default
  else
    let (negative, digits) :=
      match cs with
      | '-' :: r => (true, r)
      | '+' :: r => (false, r)
      | r => (false, r)
    if digits.all Char.isDigit then
      let v : ℤ := digits.foldl (fun n c => 10 * n + (c.toNat - '0'.toNat : ℕ)) 0
      let v := if negative then -v else v
      if digits = [] ∨ v < -2 ^ bits ∨ 2 ^ bits ≤ v then default else v
    else
      match parseDouble (String.ofList (if cs.head? = some '+' then cs.drop 1 else cs)) with
      | some (some (.finite v)) =>
          max (-2 ^ bits) (min (2 ^ bits - 1) (if v < 0 then -⌊-v⌋ else ⌊v⌋))
      | some (some (.infinite negative)) => if negative then -2 ^ bits else 2 ^ bits - 1
      | some none => 0
      | none => default

/-- `asInt(default)` and `asLong(default)`, with the bits after the sign. -/
def asSigned (bits : ℕ) (n : JsonNode) (default : ℤ) : ℤ :=
  match n with
  | some (.number v) => v.toSigned bits
  | some (.text s) => parseAsSigned bits s default
  | some (.bool b) => if b then 1 else 0
  | _ => default

/-- `asInt(default)`. -/
def asInt (n : JsonNode) (default : ℤ) : ℤ := n.asSigned 31 default

/-- `asLong(default)`. -/
def asLong (n : JsonNode) (default : ℤ) : ℤ := n.asSigned 63 default

/-- `asBoolean(default)`. -/
def asBoolean (n : JsonNode) (default : Bool) : Bool :=
  match n with
  | some (.bool b) => b
  | some (.number (.integral v)) => v ≠ 0
  | some (.text s) =>
      if trimWhere (fun c => c.toNat ≤ 0x20) s = "true" then true
      else if trimWhere (fun c => c.toNat ≤ 0x20) s = "false" then false
      else default
  | _ => default

/-- The elements a `for` over the node visits. -/
def elements (n : JsonNode) : List Json := n.elim [] Json.elements

def isObject (n : JsonNode) : Bool := n.any Json.isObject

def isArray (n : JsonNode) : Bool := n.any Json.isArray

@[simp] theorem path_some (j : Json) (name : String) : path (some j) name = j.get name := rfl

@[simp] theorem path_none (name : String) : path none name = none := rfl

end JsonNode

end OpenBridge.Foundation
