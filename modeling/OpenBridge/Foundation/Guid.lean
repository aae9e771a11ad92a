import OpenBridge.Foundation.Sha256

/-!
# Foundation: globally unique identifiers
-/

namespace OpenBridge.Foundation

/-- A `Guid`, ordered as the number its text writes. -/
abbrev Guid := Fin (2 ^ 128)

instance Guid.neZero : NeZero (2 ^ 128) := ⟨by decide⟩

instance Guid.lawfulBEq : LawfulBEq Guid := inferInstance

/-- The text of a `Guid`: groups of 8, 4, 4, 4 and 12 hexadecimal digits. -/
def Guid.text (id : Guid) : String :=
  let digits := (List.range 32).map fun i => Sha256.hexDigit (id.val / 16 ^ (31 - i) % 16)
  let group (start length : ℕ) := String.ofList ((digits.drop start).take length)
  "-".intercalate [group 0 8, group 8 4, group 12 4, group 16 4, group 20 12]

theorem hexDigit_injOn {m n : ℕ} (hm : m < 16) (hn : n < 16)
    (h : Sha256.hexDigit m = Sha256.hexDigit n) : m = n := by
  have key : ∀ m < 16, ∀ n < 16, Sha256.hexDigit m = Sha256.hexDigit n → m = n := by decide
  exact key m hm n hn h

theorem eq_of_hexDigits {a b n : ℕ} (ha : a < 16 ^ n) (hb : b < 16 ^ n)
    (h : ∀ i < n, a / 16 ^ i % 16 = b / 16 ^ i % 16) : a = b := by
  induction n generalizing a b with
  | zero =>
    rw [pow_zero, Nat.lt_one_iff] at ha hb
    rw [ha, hb]
  | succ n ih =>
    have hlast : a % 16 = b % 16 := by simpa using h 0 n.succ_pos
    have hfront : a / 16 = b / 16 := by
      refine ih (by omega) (by omega) ?_
      intro i hi
      have hdigit := h (i + 1) (Nat.succ_lt_succ hi)
      rwa [pow_succ', ← Nat.div_div_eq_div_mul, ← Nat.div_div_eq_div_mul] at hdigit
    omega

namespace Guid

theorem filter_text (id : Guid) : id.text.toList.filter (· ≠ '-') =
    (List.range 32).map fun i => Sha256.hexDigit (id.val / 16 ^ (31 - i) % 16) := by
  have hdigit : ∀ n < 16, Sha256.hexDigit n ≠ '-' := by decide
  have hall : ∀ c ∈ (List.range 32).map (fun i => Sha256.hexDigit (id.val / 16 ^ (31 - i) % 16)),
      c ≠ '-' := by
    intro c hc
    obtain ⟨i, -, rfl⟩ := List.mem_map.mp hc
    exact hdigit _ (Nat.mod_lt _ (by norm_num))
  simp only [text, String.toList_intercalate]
  generalize hds : (List.range 32).map
    (fun i => Sha256.hexDigit (id.val / 16 ^ (31 - i) % 16)) = ds at hall ⊢
  have hlen : ds.length = 32 := by rw [← hds, List.length_map, List.length_range]
  have hpart : ∀ start length, ((ds.drop start).take length).filter (· ≠ '-') =
      (ds.drop start).take length := by
    intro start length
    refine List.filter_eq_self.mpr fun c hc => decide_eq_true ?_
    exact hall c (List.mem_of_mem_drop (List.mem_of_mem_take hc))
  have hjoin : ∀ start length, (ds.drop start).take length ++ ds.drop (start + length) =
      ds.drop start := by
    intro start length
    rw [← List.drop_drop]
    exact List.take_append_drop _ _
  have hhyphen : "-".toList.filter (· ≠ '-') = [] := rfl
  simp only [List.map_cons, List.map_nil, String.toList_ofList, List.intercalate, List.intersperse,
    List.flatten_cons, List.flatten_nil, List.filter_append, hpart, hhyphen, List.nil_append,
    List.append_nil]
  have hrest : (ds.drop 20).take 12 = ds.drop 20 := List.take_of_length_le (by simp [hlen])
  rw [hrest, hjoin 16 4, hjoin 12 4, hjoin 8 4, hjoin 0 8]
  rfl

theorem length_text (id : Guid) : id.text.toList.length = 36 := by simp [text]

theorem text_injective : Function.Injective text := by
  intro a b h
  have hdigits := filter_text a
  rw [h, filter_text b] at hdigits
  refine Fin.ext (eq_of_hexDigits (n := 32) a.isLt b.isLt ?_)
  intro i hi
  have hi' := List.map_inj_left.mp hdigits (31 - i) (List.mem_range.mpr (by omega))
  rw [show 31 - (31 - i) = i by omega] at hi'
  exact (hexDigit_injOn (Nat.mod_lt _ (by norm_num)) (Nat.mod_lt _ (by norm_num)) hi').symm

end Guid

/-!
# Foundation: SHA-1 and name-based identifiers

The digest behind name-based identifiers (RFC 4122, version 5).  Words are natural numbers below
`2 ^ 32`.
-/

namespace Sha1

def rotl (x n : ℕ) : ℕ := ((x <<< n) % Sha256.modulus) ||| (x >>> (32 - n))

structure State where
  (a b c d e : ℕ)
  deriving DecidableEq

def initial : State := ⟨0x67452301, 0xefcdab89, 0x98badcfe, 0x10325476, 0xc3d2e1f0⟩

/-- Extend the message schedule by `n` words; the newest word stands first. -/
def extend : ℕ → List ℕ → List ℕ
  | 0, w => w
  | n + 1, w =>
      extend n (rotl (w.getD 2 0 ^^^ w.getD 7 0 ^^^ w.getD 13 0 ^^^ w.getD 15 0) 1 :: w)

def roundValue (s : State) (i : ℕ) : ℕ × ℕ :=
  if i < 20 then ((s.b &&& s.c) ||| ((Sha256.modulus - 1 - s.b) &&& s.d), 0x5a827999)
  else if i < 40 then (s.b ^^^ s.c ^^^ s.d, 0x6ed9eba1)
  else if i < 60 then ((s.b &&& s.c) ||| (s.b &&& s.d) ||| (s.c &&& s.d), 0x8f1bbcdc)
  else (s.b ^^^ s.c ^^^ s.d, 0xca62c1d6)

def round (s : State) (w : ℕ × ℕ) : State :=
  let (f, k) := roundValue s w.2
  ⟨(rotl s.a 5 + f + s.e + k + w.1) % Sha256.modulus, s.a, rotl s.b 30, s.c, s.d⟩

def compress (s : State) (block : List ℕ) : State :=
  let r := ((extend 64 block.reverse).reverse.zipIdx).foldl round s
  ⟨(s.a + r.a) % Sha256.modulus, (s.b + r.b) % Sha256.modulus, (s.c + r.c) % Sha256.modulus,
    (s.d + r.d) % Sha256.modulus, (s.e + r.e) % Sha256.modulus⟩

def digest (bytes : List ℕ) : List ℕ :=
  let padded := Sha256.pad bytes
  let s := (Sha256.blocks (padded.length / 64) (Sha256.words padded)).foldl compress initial
  [s.a, s.b, s.c, s.d, s.e].flatMap fun word => Sha256.bigEndian word 4

end Sha1

example : Sha256.hex (Sha1.digest (Sha256.utf8 "abc")) =
    "a9993e364706816aba3e25717850c26c9cd0d89d" := by
  decide +kernel

/-- `uuidV5`: the first sixteen bytes of the digest of a namespace and a name, with the version and
the variant written over the bytes 6 and 8. -/
def Guid.uuidV5 (nameSpace : List ℕ) (name : String) : Guid :=
  let h := Sha1.digest (nameSpace ++ Sha256.utf8 name)
  let marked := (h.set 6 ((h.getD 6 0 &&& 0x0f) ||| 0x50)).set 8 ((h.getD 8 0 &&& 0x3f) ||| 0x80)
  Fin.ofNat (2 ^ 128) ((marked.take 16).foldl (fun n b => n * 256 + b) 0)

end OpenBridge.Foundation
