import Mathlib.Tactic.NormNum
import OpenBridge.Foundation.Text

/-!
# Foundation: SHA-256 and HMAC

The digest both services compute over the canonical text of a bundle, and the keyed digest they
sign it with.  Words are natural numbers below `2 ^ 32`.
-/

namespace OpenBridge.Foundation

namespace Sha256

/-- `2 ^ 32`: the arithmetic of the digest is modulo this number. -/
def modulus : ℕ := 0x100000000

def rotr (x n : ℕ) : ℕ := (x >>> n) ||| ((x <<< (32 - n)) % modulus)

def roundConstants : List ℕ := [
  0x428a2f98, 0x71374491, 0xb5c0fbcf, 0xe9b5dba5, 0x3956c25b, 0x59f111f1, 0x923f82a4, 0xab1c5ed5,
  0xd807aa98, 0x12835b01, 0x243185be, 0x550c7dc3, 0x72be5d74, 0x80deb1fe, 0x9bdc06a7, 0xc19bf174,
  0xe49b69c1, 0xefbe4786, 0x0fc19dc6, 0x240ca1cc, 0x2de92c6f, 0x4a7484aa, 0x5cb0a9dc, 0x76f988da,
  0x983e5152, 0xa831c66d, 0xb00327c8, 0xbf597fc7, 0xc6e00bf3, 0xd5a79147, 0x06ca6351, 0x14292967,
  0x27b70a85, 0x2e1b2138, 0x4d2c6dfc, 0x53380d13, 0x650a7354, 0x766a0abb, 0x81c2c92e, 0x92722c85,
  0xa2bfe8a1, 0xa81a664b, 0xc24b8b70, 0xc76c51a3, 0xd192e819, 0xd6990624, 0xf40e3585, 0x106aa070,
  0x19a4c116, 0x1e376c08, 0x2748774c, 0x34b0bcb5, 0x391c0cb3, 0x4ed8aa4a, 0x5b9cca4f, 0x682e6ff3,
  0x748f82ee, 0x78a5636f, 0x84c87814, 0x8cc70208, 0x90befffa, 0xa4506ceb, 0xbef9a3f7, 0xc67178f2]

structure State where
  (a b c d e f g h : ℕ)
  deriving DecidableEq

def initial : State :=
  ⟨0x6a09e667, 0xbb67ae85, 0x3c6ef372, 0xa54ff53a, 0x510e527f, 0x9b05688c, 0x1f83d9ab, 0x5be0cd19⟩

/-- Extend the message schedule by `n` words; the newest word stands first. -/
def extend : ℕ → List ℕ → List ℕ
  | 0, w => w
  | n + 1, w =>
      let s0 := rotr (w.getD 14 0) 7 ^^^ rotr (w.getD 14 0) 18 ^^^ (w.getD 14 0 >>> 3)
      let s1 := rotr (w.getD 1 0) 17 ^^^ rotr (w.getD 1 0) 19 ^^^ (w.getD 1 0 >>> 10)
      extend n ((w.getD 15 0 + s0 + w.getD 6 0 + s1) % modulus :: w)

def round (s : State) (kw : ℕ) : State :=
  let s1 := rotr s.e 6 ^^^ rotr s.e 11 ^^^ rotr s.e 25
  let choice := (s.e &&& s.f) ^^^ ((modulus - 1 - s.e) &&& s.g)
  let t1 := s.h + s1 + choice + kw
  let s0 := rotr s.a 2 ^^^ rotr s.a 13 ^^^ rotr s.a 22
  let majority := (s.a &&& s.b) ^^^ (s.a &&& s.c) ^^^ (s.b &&& s.c)
  ⟨(t1 + s0 + majority) % modulus, s.a, s.b, s.c, (s.d + t1) % modulus, s.e, s.f, s.g⟩

def compress (s : State) (block : List ℕ) : State :=
  let r := (List.zipWith (· + ·) roundConstants (extend 48 block.reverse).reverse).foldl round s
  ⟨(s.a + r.a) % modulus, (s.b + r.b) % modulus, (s.c + r.c) % modulus, (s.d + r.d) % modulus,
    (s.e + r.e) % modulus, (s.f + r.f) % modulus, (s.g + r.g) % modulus, (s.h + r.h) % modulus⟩

/-- The last `k` bytes of a number, the most significant first. -/
def bigEndian (n : ℕ) : ℕ → List ℕ
  | 0 => []
  | k + 1 => (n >>> (8 * k)) % 256 :: bigEndian n k

def pad (bytes : List ℕ) : List ℕ :=
  bytes ++ 0x80 :: (List.replicate ((119 - bytes.length % 64) % 64) 0 ++
    bigEndian (8 * bytes.length) 8)

def words : List ℕ → List ℕ
  | a :: b :: c :: d :: rest => (((a * 256 + b) * 256 + c) * 256 + d) :: words rest
  | _ => []

/-- The first `n` blocks of sixteen words. -/
def blocks : ℕ → List ℕ → List (List ℕ)
  | 0, _ => []
  | n + 1, w => w.take 16 :: blocks n (w.drop 16)

def digest (bytes : List ℕ) : List ℕ :=
  let padded := pad bytes
  let s := (blocks (padded.length / 64) (words padded)).foldl compress initial
  [s.a, s.b, s.c, s.d, s.e, s.f, s.g, s.h].flatMap fun word => bigEndian word 4

def hmac (key bytes : List ℕ) : List ℕ :=
  let short := if 64 < key.length then digest key else key
  let block := short ++ List.replicate (64 - short.length) 0
  digest (block.map (· ^^^ 0x5c) ++ digest (block.map (· ^^^ 0x36) ++ bytes))

def hexDigit (n : ℕ) : Char := Char.ofNat (if n < 10 then '0'.toNat + n else 'a'.toNat + n - 10)

def hex (bytes : List ℕ) : String :=
  String.ofList (bytes.flatMap fun b => [hexDigit (b / 16), hexDigit (b % 16)])

def utf8 (s : String) : List ℕ :=
  s.toList.flatMap fun c => (String.utf8EncodeChar c).map UInt8.toNat

theorem length_bigEndian (n k : ℕ) : (bigEndian n k).length = k := by
  induction k with
  | zero => rfl
  | succ k ih => simp [bigEndian, ih]

theorem length_digest (bytes : List ℕ) : (digest bytes).length = 32 := by
  simp [digest, length_bigEndian]

theorem length_hex (bytes : List ℕ) : (hex bytes).length = 2 * bytes.length := by
  simp only [hex, String.length_ofList]
  induction bytes with
  | nil => rfl
  | cons b rest ih =>
    simp only [List.flatMap_cons, List.length_append, ih, List.length_cons, List.length_nil]
    omega

end Sha256

example : Sha256.hex (Sha256.digest (Sha256.utf8 "abc")) =
    "ba7816bf8f01cfea414140de5dae2223b00361a396177a9cb410ff61f20015ad" := by
  decide

/-!
# Foundation: bytes

Words written least significant byte first, and the comparison of hexadecimal digests that
ignores case.
-/

/-! ## Little-endian words -/

/-- The last `k` bytes of a number, the least significant first. -/
def littleEndian : ℕ → ℕ → List UInt8
  | 0, _ => []
  | k + 1, n => UInt8.ofNat n :: littleEndian k (n / 256)

def ofLittleEndian : List UInt8 → ℕ
  | [] => 0
  | b :: rest => b.toNat + 256 * ofLittleEndian rest

theorem length_littleEndian (k n : ℕ) : (littleEndian k n).length = k := by
  induction k generalizing n with
  | zero => rfl
  | succ k ih => rw [littleEndian, List.length_cons, ih]

theorem ofLittleEndian_littleEndian {k n : ℕ} (h : n < 256 ^ k) :
    ofLittleEndian (littleEndian k n) = n := by
  induction k generalizing n with
  | zero =>
    rw [pow_zero] at h
    rw [littleEndian, ofLittleEndian]
    omega
  | succ k ih =>
    have hq : n / 256 < 256 ^ k := by
      rw [pow_succ] at h
      omega
    have hb : (UInt8.ofNat n).toNat = n % 256 := UInt8.toNat_ofNat'
    rw [littleEndian, ofLittleEndian, ih hq, hb]
    omega

/-! ## Digests as text -/

theorem lt_of_mem_bigEndian {n k b : ℕ} (h : b ∈ Sha256.bigEndian n k) : b < 256 := by
  induction k with
  | zero => exact absurd h List.not_mem_nil
  | succ k ih =>
    rcases List.mem_cons.mp h with rfl | h
    · exact Nat.mod_lt _ (by norm_num)
    · exact ih h

theorem lt_of_mem_digest {bytes : List ℕ} {b : ℕ} (h : b ∈ Sha256.digest bytes) : b < 256 := by
  unfold Sha256.digest at h
  obtain ⟨word, -, hb⟩ := List.mem_flatMap.mp h
  exact lt_of_mem_bigEndian hb

theorem toUpper_hexDigit {m n : ℕ} (hm : m < 16) (hn : n < 16)
    (h : (Sha256.hexDigit m).toUpper = (Sha256.hexDigit n).toUpper) : m = n := by
  have key : ∀ m < 16, ∀ n < 16,
      (Sha256.hexDigit m).toUpper = (Sha256.hexDigit n).toUpper → m = n := by decide
  exact key m hm n hn h

/-- `string.Equals(s, t, OrdinalIgnoreCase)`, as far as ASCII texts are compared. -/
def equalsOrdinalIgnoreCase (s t : String) : Bool := toUpperInvariant s = toUpperInvariant t

theorem equalsOrdinalIgnoreCase_refl (s : String) : equalsOrdinalIgnoreCase s s :=
  decide_eq_true rfl

theorem equalsOrdinalIgnoreCase_of_left {s t u : String} (hs : equalsOrdinalIgnoreCase s t)
    (hu : equalsOrdinalIgnoreCase t u) : toUpperInvariant s = toUpperInvariant u :=
  (of_decide_eq_true hs).trans (of_decide_eq_true hu)

theorem hex_ignoringCase {a b : List ℕ} (ha : ∀ n ∈ a, n < 256) (hb : ∀ n ∈ b, n < 256)
    (h : toUpperInvariant (Sha256.hex a) = toUpperInvariant (Sha256.hex b)) : a = b := by
  simp only [toUpperInvariant, Sha256.hex, String.ofList_inj, String.toList_ofList] at h
  induction a generalizing b with
  | nil =>
    cases b with
    | nil => rfl
    | cons n b => simp at h
  | cons m a ih =>
    cases b with
    | nil => simp at h
    | cons n b =>
      have hm := ha m List.mem_cons_self
      have hn := hb n List.mem_cons_self
      simp only [List.flatMap_cons, List.map_cons, List.cons_append, List.nil_append,
        List.cons.injEq] at h
      have hhigh := toUpper_hexDigit (by omega) (by omega) h.1
      have hlow := toUpper_hexDigit (by omega) (by omega) h.2.1
      have htail := ih (fun k hk => ha k (List.mem_cons_of_mem _ hk))
        (fun k hk => hb k (List.mem_cons_of_mem _ hk)) h.2.2
      rw [htail]
      congr 1
      omega

end OpenBridge.Foundation
