import OpenBridge.Foundation.Json
import OpenBridge.Foundation.Sha256
import Mathlib.Data.List.Sort

/-!
# Gate configuration: the canonical text of a document

`CanonicalJson` of both services (RFC 8785): keys sorted by UTF-16 code units, no whitespace,
numbers in ES6 form, strings with only the mandatory escapes.
-/

namespace OpenBridge.GateConfig

open OpenBridge.Foundation

namespace CanonicalJson

def codeUnits (c : Char) : List ℕ :=
  if c.toNat < 0x10000 then [c.toNat]
  else [0xD800 + (c.toNat - 0x10000) / 0x400, 0xDC00 + (c.toNat - 0x10000) % 0x400]

/-- The order of two sequences of code units (`String.compareTo`, not above). -/
def unitsLe : List ℕ → List ℕ → Bool
  | [], _ => true
  | _ :: _, [] => false
  | a :: as, b :: bs => a < b || (a == b && unitsLe as bs)

def keyLe (a b : String) : Bool := unitsLe (a.toList.flatMap codeUnits) (b.toList.flatMap codeUnits)

def escape (c : Char) : List Char :=
  if c = '"' then ['\\', '"']
  else if c = '\\' then ['\\', '\\']
  else if c.toNat = 8 then ['\\', 'b']
  else if c.toNat = 12 then ['\\', 'f']
  else if c.toNat = 10 then ['\\', 'n']
  else if c.toNat = 13 then ['\\', 'r']
  else if c.toNat = 9 then ['\\', 't']
  else if c.toNat < 0x20 then
    ['\\', 'u', '0', '0', Sha256.hexDigit (c.toNat / 16), Sha256.hexDigit (c.toNat % 16)]
  else [c]

def writeString (s : String) : List Char := '"' :: (s.toList.flatMap escape ++ ['"'])

/-- `es6Number`: a number that is not finite is refused. -/
def es6Number (d : Double) : Except String (List Char) :=
  if d.isFinite then .ok (es6Text d).toList else .error "non-finite numbers cannot be canonicalised"

def commaSeparated : List (Except String (List Char)) → Except String (List Char)
  | [] => .ok []
  | [t] => t
  | t :: rest => do
      let head ← t
      let tail ← commaSeparated rest
      .ok (head ++ ',' :: tail)

def sortMembers (ms : List (String × Except String (List Char))) :
    List (String × Except String (List Char)) :=
  (ms.foldl (fun d m => d.set m.1 m.2) (Dict.empty)).entries.insertionSort
    fun a b => keyLe a.1 b.1 = true

mutual

def write : Json → Except String (List Char)
  | .null => .ok "null".toList
  | .bool b => .ok (if b then "true" else "false").toList
  | .number n => es6Number n.toDouble
  | .text s => .ok (writeString s)
  | .array items => do
      let body ← commaSeparated (writeItems items)
      .ok ('[' :: (body ++ [']']))
  | .object members => do
      let body ← commaSeparated ((sortMembers (writeMembers members)).map fun m =>
        m.2.map fun t => writeString m.1 ++ ':' :: t)
      .ok ('{' :: (body ++ ['}']))

def writeItems : List Json → List (Except String (List Char))
  | [] => []
  | j :: rest => write j :: writeItems rest

def writeMembers : List (String × Json) → List (String × Except String (List Char))
  | [] => []
  | (name, j) :: rest => (name, write j) :: writeMembers rest

end

/-- `canonicalize`: throws for a number beyond the doubles. -/
def canonicalize (j : Json) : Except String String := (write j).map String.ofList

@[irreducible] def sha256Hex (text : String) : String := Sha256.hex (Sha256.digest (Sha256.utf8 text))

@[irreducible] def hmacSha256Hex (key text : String) : String :=
  Sha256.hex (Sha256.hmac (Sha256.utf8 key) (Sha256.utf8 text))

def sha256 (j : Json) : Except String String := (canonicalize j).map sha256Hex

def signature (bundle : Json) (key : String) : Except String String :=
  (canonicalize bundle).map (hmacSha256Hex key)

end CanonicalJson

end OpenBridge.GateConfig
