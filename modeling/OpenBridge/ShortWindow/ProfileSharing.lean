import Mathlib.Logic.Equiv.List
import OpenBridge.Foundation.KeyText
import OpenBridge.Foundation.Sha256
import OpenBridge.ShortWindow.BufferInvariant

/-!
# Short windows: the profiles of the buffered samples

`ShortProfileRegistry.fingerprint`, and the registry in a run of the buffer.  A map is written in
the order of its entries: profiles of one content share an entry when their maps have one order.
-/

namespace OpenBridge.ShortWindow

open OpenBridge.Foundation
open OpenBridge.Foundation.Sha256 (bigEndian length_bigEndian)

/-! ## The content of a profile -/

/-- A text whose bytes fit in an array. -/
structure JavaText where
  text : String
  fits : (Sha256.utf8 text).length < 2 ^ 31

/-- A value without elements; numbers and characters by their bits. -/
inductive Scalar
  | null
  | double (bits : BitVec 64)
  | float (bits : BitVec 32)
  | number (long : BitVec 64)
  | bool (b : Bool)
  | char (unit : BitVec 16)
  | enum (name : JavaText)
  | text (t : JavaText)

structure JavaMap where
  entries : List (Scalar × Scalar)
  distinct : (entries.map Prod.fst).Nodup
  fits : entries.length < 2 ^ 31

inductive Value
  | scalar (s : Scalar)
  | map (m : JavaMap)
  | collection (items : {items : List Scalar // items.length < 2 ^ 31})

/-- A profile by the values of its members, which `MEMBERS` lists by name. -/
structure CplmLoopDynamicsProfile (members : List String) where
  values : List Value
  complete : members.length = values.length

variable {members : List String}

/-- Equal as values: a map whatever the order of its entries. -/
def Value.Same : Value → Value → Prop
  | .map m, .map m' => m.entries.Perm m'.entries
  | v, w => v = w

def CplmLoopDynamicsProfile.Same (p q : CplmLoopDynamicsProfile members) : Prop :=
  List.Forall₂ Value.Same p.values q.values

/-! ## The fingerprint -/

def JavaText.write (t : JavaText) : List ℕ :=
  bigEndian (Sha256.utf8 t.text).length 4 ++ Sha256.utf8 t.text

def Scalar.write : Scalar → List ℕ
  | .null => [0]
  | .double bits => 1 :: bigEndian bits.toNat 8
  | .float bits => 2 :: bigEndian bits.toNat 4
  | .number long => 3 :: bigEndian long.toNat 8
  | .bool b => [4, b.toNat]
  | .char unit => 5 :: bigEndian unit.toNat 2
  | .enum name => 6 :: name.write
  | .text t => 7 :: t.write

def writeEntry (e : Scalar × Scalar) : List ℕ := e.1.write ++ e.2.write

/-- `write`: a map by its entries in iteration order. -/
def Value.write : Value → List ℕ
  | .scalar s => s.write
  | .map m => 8 :: (bigEndian m.entries.length 4 ++ m.entries.flatMap writeEntry)
  | .collection items => 9 :: (bigEndian items.1.length 4 ++ items.1.flatMap Scalar.write)

def writeUTF (name : String) : List ℕ := bigEndian (Sha256.utf8 name).length 2 ++ Sha256.utf8 name

def writeMember (m : String × Value) : List ℕ := writeUTF m.1 ++ m.2.write

def CplmLoopDynamicsProfile.bytes (p : CplmLoopDynamicsProfile members) : List ℕ :=
  (members.zip p.values).flatMap writeMember

/-- `fingerprint`, with the digest as text. -/
def fingerprint (digest : List ℕ → String) (p : CplmLoopDynamicsProfile members) : String :=
  digest p.bytes

/-! ## The encoding can be read back -/

/-- What is written ends where it ends, whatever follows. -/
def Delimited {α : Type} (write : α → List ℕ) : Prop :=
  ∀ (a b : α) (r r' : List ℕ), write a ++ r = write b ++ r' → a = b ∧ r = r'

theorem bigEndian_mod {n m k : ℕ} (h : bigEndian n k = bigEndian m k) :
    n % 256 ^ k = m % 256 ^ k := by
  induction k with
  | zero => rw [pow_zero, Nat.mod_one, Nat.mod_one]
  | succ k ih =>
    obtain ⟨hhead, htail⟩ := List.cons.inj h
    rw [Nat.shiftRight_eq_div_pow, Nat.shiftRight_eq_div_pow, pow_mul] at hhead
    rw [pow_succ, Nat.mod_mul, Nat.mod_mul, ih htail]
    exact congrArg (m % 256 ^ k + 256 ^ k * ·) hhead

theorem bigEndian_append {n m k : ℕ} {r r' : List ℕ} (hn : n < 256 ^ k) (hm : m < 256 ^ k)
    (h : bigEndian n k ++ r = bigEndian m k ++ r') : n = m ∧ r = r' := by
  obtain ⟨hword, hrest⟩ := List.append_inj h (by rw [length_bigEndian, length_bigEndian])
  have hmod := bigEndian_mod hword
  rw [Nat.mod_eq_of_lt hn, Nat.mod_eq_of_lt hm] at hmod
  exact ⟨hmod, hrest⟩

theorem bits_append {w k : ℕ} {a b : BitVec w} {r r' : List ℕ} (hw : 2 ^ w ≤ 256 ^ k)
    (h : bigEndian a.toNat k ++ r = bigEndian b.toNat k ++ r') : a = b ∧ r = r' := by
  obtain ⟨hbits, hrest⟩ := bigEndian_append (a.isLt.trans_le hw) (b.isLt.trans_le hw) h
  exact ⟨BitVec.eq_of_toNat_eq hbits, hrest⟩

theorem utf8_injective {s t : String} (h : Sha256.utf8 s = Sha256.utf8 t) : s = t := by
  unfold Sha256.utf8 at h
  rw [← List.map_flatMap, ← List.map_flatMap] at h
  have hbytes := List.map_injective_iff.mpr (fun _ _ heq => UInt8.toNat_inj.mp heq) h
  have hencode : s.toList.utf8Encode = t.toList.utf8Encode :=
    congrArg List.toByteArray hbytes
  rw [← String.ofList_toList (s := s), ← String.ofList_toList (s := t)]
  exact String.toByteArray_inj.mp hencode

theorem delimited_text : Delimited JavaText.write := by
  rintro ⟨s, hs⟩ ⟨t, ht⟩ r r' h
  unfold JavaText.write at h
  rw [List.append_assoc, List.append_assoc] at h
  obtain ⟨hlength, hrest⟩ := bigEndian_append (hs.trans (by norm_num)) (ht.trans (by norm_num)) h
  obtain ⟨htext, hr⟩ := List.append_inj hrest hlength
  obtain rfl := utf8_injective htext
  exact ⟨rfl, hr⟩

theorem delimited_scalar : Delimited Scalar.write := by
  intro a b r r' h
  cases a <;> cases b <;> try exact absurd (List.cons.inj h).1 (by decide)
  case null.null => exact ⟨rfl, (List.cons.inj h).2⟩
  case double.double | float.float | number.number | char.char =>
    obtain ⟨rfl, hr⟩ := bits_append (by norm_num) (List.cons.inj h).2
    exact ⟨rfl, hr⟩
  case bool.bool b b' =>
    obtain ⟨hbit, hr⟩ := List.cons.inj (List.cons.inj h).2
    obtain rfl : b = b' := by
      revert hbit
      cases b <;> cases b' <;> decide
    exact ⟨rfl, hr⟩
  case enum.enum | text.text =>
    obtain ⟨rfl, hr⟩ := delimited_text _ _ _ _ (List.cons.inj h).2
    exact ⟨rfl, hr⟩

theorem delimited_entry : Delimited writeEntry := by
  rintro ⟨k, v⟩ ⟨k', v'⟩ r r' h
  unfold writeEntry at h
  rw [List.append_assoc, List.append_assoc] at h
  obtain ⟨rfl, hvalue⟩ := delimited_scalar _ _ _ _ h
  obtain ⟨rfl, hr⟩ := delimited_scalar _ _ _ _ hvalue
  exact ⟨rfl, hr⟩

/-- Elements after their number. -/
theorem Delimited.counted {α : Type} {write : α → List ℕ} (hwrite : Delimited write)
    {xs ys : List α} (hxs : xs.length < 2 ^ 31) (hys : ys.length < 2 ^ 31) {r r' : List ℕ}
    (h : bigEndian xs.length 4 ++ xs.flatMap write ++ r =
      bigEndian ys.length 4 ++ ys.flatMap write ++ r') : xs = ys ∧ r = r' := by
  rw [List.append_assoc, List.append_assoc] at h
  obtain ⟨hlength, hrest⟩ := bigEndian_append (hxs.trans (by norm_num)) (hys.trans (by norm_num)) h
  clear h hxs hys
  induction xs generalizing ys with
  | nil =>
    obtain rfl := List.length_eq_zero_iff.mp hlength.symm
    exact ⟨rfl, hrest⟩
  | cons x xs ih =>
    obtain ⟨y, ys, rfl⟩ := List.exists_cons_of_length_eq_add_one hlength.symm
    rw [List.flatMap_cons, List.flatMap_cons, List.append_assoc, List.append_assoc] at hrest
    obtain ⟨rfl, hothers⟩ := hwrite _ _ _ _ hrest
    obtain ⟨rfl, hr⟩ := ih (Nat.succ.inj hlength) hothers
    exact ⟨rfl, hr⟩

theorem delimited_value : Delimited Value.write := by
  have hlt : ∀ s : Scalar, ∃ tag rest, s.write = tag :: rest ∧ tag < 8 := fun s => by
    cases s <;> exact ⟨_, _, rfl, by decide⟩
  intro a b r r' h
  cases a with
  | scalar s =>
    obtain ⟨tag, rest, hs, htag⟩ := hlt s
    cases b with
    | scalar t =>
      obtain ⟨rfl, hr⟩ := delimited_scalar _ _ _ _ h
      exact ⟨rfl, hr⟩
    | map m =>
      rw [Value.write, hs] at h
      exact absurd (List.cons.inj h).1 (by omega)
    | collection items =>
      rw [Value.write, hs] at h
      exact absurd (List.cons.inj h).1 (by omega)
  | map m =>
    cases b with
    | scalar t =>
      obtain ⟨tag, rest, ht, htag⟩ := hlt t
      rw [Value.write, Value.write, ht] at h
      exact absurd (List.cons.inj h).1 (by omega)
    | map m' =>
      obtain ⟨hentries, hr⟩ := delimited_entry.counted m.fits m'.fits (List.cons.inj h).2
      cases m
      cases m'
      cases hentries
      exact ⟨rfl, hr⟩
    | collection items => exact absurd (List.cons.inj h).1 (by decide)
  | collection items =>
    cases b with
    | scalar t =>
      obtain ⟨tag, rest, ht, htag⟩ := hlt t
      rw [Value.write, Value.write, ht] at h
      exact absurd (List.cons.inj h).1 (by omega)
    | map m => exact absurd (List.cons.inj h).1 (by decide)
    | collection items' =>
      obtain ⟨hitems, hr⟩ := delimited_scalar.counted items.2 items'.2 (List.cons.inj h).2
      rw [Subtype.ext hitems]
      exact ⟨rfl, hr⟩

theorem values_eq {ms : List String} {vs ws : List Value} (hvs : ms.length = vs.length)
    (hws : ms.length = ws.length)
    (h : (ms.zip vs).flatMap writeMember = (ms.zip ws).flatMap writeMember) : vs = ws := by
  induction ms generalizing vs ws with
  | nil =>
    rw [List.length_eq_zero_iff.mp hvs.symm, List.length_eq_zero_iff.mp hws.symm]
  | cons m ms ih =>
    obtain ⟨v, vs, rfl⟩ := List.exists_cons_of_length_eq_add_one hvs.symm
    obtain ⟨w, ws, rfl⟩ := List.exists_cons_of_length_eq_add_one hws.symm
    rw [List.zip_cons_cons, List.zip_cons_cons, List.flatMap_cons, List.flatMap_cons] at h
    unfold writeMember at h
    rw [List.append_assoc, List.append_assoc] at h
    obtain ⟨rfl, hrest⟩ := delimited_value _ _ _ _ (List.append_cancel_left h)
    rw [ih (Nat.succ.inj hvs) (Nat.succ.inj hws) hrest]

theorem bytes_injective {p q : CplmLoopDynamicsProfile members} (h : p.bytes = q.bytes) : p = q := by
  have hvalues := values_eq p.complete q.complete h
  cases p
  cases q
  cases hvalues
  rfl

/-! ## What a step leaves of the buffer -/

section Buffer

variable {π : Type} {fingerprint : π → String} {maxSamplesPerLoop wm : ℤ}
  {f g : ShortFeatureBufferFn π}

/-- The samples and the profiles of a state are among those of another. -/
structure Within (g f : ShortFeatureBufferFn π) : Prop where
  samples : ∀ s b, g.samples.get? s = some b → f.samples.get? s = some b
  profiles : ∀ k e, g.profiles.get? k = some e → f.profiles.get? k = some e
  nextSeq : g.nextSeq = f.nextSeq

theorem Within.refl (f : ShortFeatureBufferFn π) : Within f f := ⟨fun _ _ => id, fun _ _ => id, rfl⟩

theorem Within.trans {h : ShortFeatureBufferFn π} (hgf : Within g f) (hhg : Within h g) :
    Within h f where
  samples s b hget := hgf.samples s b (hhg.samples s b hget)
  profiles k e hget := hgf.profiles k e (hhg.profiles k e hget)
  nextSeq := hhg.nextSeq.trans hgf.nextSeq

theorem Within.counted (hgf : Within g f) (count : Option ℤ) :
    Within { g with bufferCount := count } f :=
  ⟨hgf.samples, hgf.profiles, hgf.nextSeq⟩

theorem within_dropMinute (f : ShortFeatureBufferFn π) (m : ℤ) : Within (f.dropMinute m) f where
  samples s b hget := by
    simp only [ShortFeatureBufferFn.dropMinute, get?_foldl_erase] at hget
    split at hget
    · cases hget
    · exact hget
  profiles _ _ := id
  nextSeq := rfl

theorem within_dropWhile (p : ℤ → ℤ → Bool) (ms : List ℤ) (count : ℤ)
    (f : ShortFeatureBufferFn π) : Within (ShortFeatureBufferFn.dropWhile p ms count f).1 f := by
  induction ms generalizing count f with
  | nil => exact .refl f
  | cons m rest ih =>
    unfold ShortFeatureBufferFn.dropWhile
    split
    · exact (within_dropMinute f m).trans (ih _ _)
    · exact .refl f

theorem within_keepFrom (f : ShortFeatureBufferFn π) (left : List ℤ) : Within (f.keepFrom left) f where
  samples s b hget := by rwa [keepFrom_samples] at hget
  profiles k e hget := by
    have herase : ∀ (es : List (String × ProfileEntry π)) (d : ShortProfileRegistry π),
        (es.foldl (fun kept x => kept.erase x.1) d).get? k = some e → d.get? k = some e := by
      intro es
      induction es with
      | nil => exact fun _ => id
      | cons x rest ih =>
        intro d hd
        have hget := ih _ hd
        rw [Dict.get?_erase] at hget
        split at hget
        · cases hget
        · exact hget
    cases left with
    | nil => cases hget
    | cons first rest => exact herase _ _ hget
  nextSeq := keepFrom_nextSeq

theorem within_count (f : ShortFeatureBufferFn π) : Within f.count.2 f := by
  unfold ShortFeatureBufferFn.count
  split
  · exact .refl f
  · dsimp only
    split
    · exact (Within.refl f).counted _
    · exact .refl f

theorem within_shrinkBefore (f : ShortFeatureBufferFn π) (m target count : ℤ) :
    Within (f.shrinkBefore m target count).2 f := by
  have hdropped := within_dropWhile (fun count minute => decide (target < count ∧ minute < m))
    f.minutes count f
  have hkept := hdropped.trans (within_keepFrom _ (ShortFeatureBufferFn.dropWhile
    (fun count minute => decide (target < count ∧ minute < m)) f.minutes count f).2.2)
  unfold ShortFeatureBufferFn.shrinkBefore
  dsimp only
  split <;> split
  · exact hdropped
  · exact hkept
  · exact hdropped.counted _
  · exact hkept.counted _

theorem within_evict (f : ShortFeatureBufferFn π) (t : ℤ) :
    Within { (f.evict t).1 with nextSeq := f.nextSeq } f := by
  have hdropped := (within_count f).trans (within_dropWhile (fun _ minute =>
    decide (ShortWindowSpecs.retainUntil (minute + minuteMs - 1) ≤ t)) f.minutes f.count.1 f.count.2)
  unfold ShortFeatureBufferFn.evict
  split
  · exact .refl f
  · have hkept := fun left => hdropped.trans (within_keepFrom _ left)
    dsimp only
    split
    · exact ⟨(hkept []).samples, (hkept []).profiles, rfl⟩
    · split
      · exact ⟨hdropped.samples, hdropped.profiles, rfl⟩
      · exact ⟨(hkept _).samples, (hkept _).profiles, rfl⟩

/-- A sample is stored in what is left of the buffer, or it is not. -/
theorem processElement_cases (fingerprint : π → String) (maxSamplesPerLoop wm : ℤ)
    (f : ShortFeatureBufferFn π) (x : TimedSample π) :
    ∃ g, Within g f ∧
      ((f.processElement fingerprint maxSamplesPerLoop wm x).1 = g ∧
          (f.processElement fingerprint maxSamplesPerLoop wm x).2.1 = some [] ∨
        ∃ idx, (f.processElement fingerprint maxSamplesPerLoop wm x).1 = g.append fingerprint x idx ∧
          (f.processElement fingerprint maxSamplesPerLoop wm x).2.1 =
            (g.append fingerprint x idx).fireAll (fireNow wm x.ts)) := by
  unfold ShortFeatureBufferFn.processElement
  split
  · exact ⟨f, .refl f, .inl ⟨rfl, rfl⟩⟩
  · dsimp only
    split
    · exact ⟨f, .refl f, .inl ⟨rfl, rfl⟩⟩
    · split
      · have hroom := (within_count f).trans (within_shrinkBefore f.count.2 (minuteOf x.ts)
          (capFor x.sample.gridSeconds maxSamplesPerLoop - 1) f.count.1)
        split
        · exact ⟨_, hroom, .inl ⟨rfl, rfl⟩⟩
        · exact ⟨_, hroom.counted _, .inr ⟨_, rfl, rfl⟩⟩
      · exact ⟨_, (within_count f).counted _, .inr ⟨_, rfl, rfl⟩⟩

/-! ## A run of the buffer -/

/-- The operator, the samples that arrived, those of them that are buffered with their sequences, and
the windows that fired, each with the samples that were buffered then. -/
structure Trace (π : Type) where
  op : BufferOperator π
  arrivals : List (TimedSample π)
  held : List (ℤ × TimedSample π)
  fired : List (Firing π × List (ℤ × TimedSample π))

def stillHeld (f : ShortFeatureBufferFn π) (held : List (ℤ × TimedSample π)) :
    List (ℤ × TimedSample π) :=
  held.filter fun h => (f.samples.get? h.1).isSome

def Trace.new : Trace π := ⟨BufferOperator.new, [], [], []⟩

def Trace.sample (fingerprint : π → String) (maxSamplesPerLoop : ℤ) (tr : Trace π)
    (x : TimedSample π) : Trace π :=
  let stepped := tr.op.step fingerprint maxSamplesPerLoop (.sample x)
  let held := stillHeld stepped.1.fn (tr.held ++ [(tr.op.fn.nextSeq.getD 0, x)])
  ⟨stepped.1, tr.arrivals ++ [x], held, tr.fired ++ stepped.2.map fun fl => (fl, held)⟩

def Trace.timer (tr : Trace π) (t : ℤ) (rest : Timers) : Trace π :=
  let fired := tr.op.fn.onTimer t
  ⟨{ tr.op with fn := fired.1, timers := rest.registerNext fired.2.2 }, tr.arrivals,
    stillHeld fired.1 tr.held, tr.fired ++ fired.2.1.map fun fl => (fl, tr.held)⟩

inductive Reaches (fingerprint : π → String) (maxSamplesPerLoop : ℤ) : Trace π → Prop
  | new : Reaches fingerprint maxSamplesPerLoop Trace.new
  | sample {tr : Trace π} (x : TimedSample π) : Reaches fingerprint maxSamplesPerLoop tr →
      Reaches fingerprint maxSamplesPerLoop (tr.sample fingerprint maxSamplesPerLoop x)
  | watermark {tr : Trace π} (w : ℤ) : Reaches fingerprint maxSamplesPerLoop tr →
      Reaches fingerprint maxSamplesPerLoop { tr with op := { tr.op with watermark := w } }
  | timer {tr : Trace π} {t : ℤ} {rest : Timers} : Reaches fingerprint maxSamplesPerLoop tr →
      tr.op.timers.pop tr.op.watermark = some (t, rest) →
      Reaches fingerprint maxSamplesPerLoop (tr.timer t rest)

/-- Every member of a window is a buffered sample that the window covers, with the profile that it
arrived with. -/
def Faithful (held : List (ℤ × TimedSample π)) (fl : Firing π) : Prop :=
  ∀ m ∈ fl.members, ∃ h ∈ held, fl.spec.Covers fl.windowEnd h.2.ts ∧
    m = ⟨h.2.sample, h.2.resolvedProfile⟩

/-- Among the samples that arrived, the key tells the profiles apart. -/
def Apart (fingerprint : π → String) (arrivals : List (TimedSample π)) : Prop :=
  ∀ x ∈ arrivals, ∀ y ∈ arrivals, ∀ p ∈ x.resolvedProfile, ∀ q ∈ y.resolvedProfile,
    fingerprint p = fingerprint q → p = q

/-- The buffer holds exactly the held samples, each with the key of its profile, and the registry holds
profiles that arrived, under their keys. -/
structure Sound (fingerprint : π → String) (f : ShortFeatureBufferFn π)
    (arrivals : List (TimedSample π)) (held : List (ℤ × TimedSample π)) : Prop where
  stored : ∀ h ∈ held, h.2 ∈ arrivals ∧ ∃ b, f.samples.get? h.1 = some b ∧ b.ts = h.2.ts ∧
    b.sample = h.2.sample ∧ b.profileKey = h.2.resolvedProfile.map fingerprint
  all : ∀ s b, f.samples.get? s = some b → ∃ x, (s, x) ∈ held
  keyed : ∀ k e, f.profiles.get? k = some e → fingerprint e.profile = k ∧
    ∃ x ∈ arrivals, x.resolvedProfile = some e.profile

variable {arrivals : List (TimedSample π)} {held : List (ℤ × TimedSample π)}

theorem mem_stillHeld {h : ℤ × TimedSample π} :
    h ∈ stillHeld f held ↔ h ∈ held ∧ ∃ b, f.samples.get? h.1 = some b := by
  rw [stillHeld, List.mem_filter, Option.isSome_iff_exists]

theorem Sound.within (h : Sound fingerprint f arrivals held) (hgf : Within g f) :
    Sound fingerprint g arrivals (stillHeld g held) where
  stored x hx := by
    obtain ⟨hx, b, hb⟩ := mem_stillHeld.mp hx
    obtain ⟨harrived, b', hb', hstored⟩ := h.stored x hx
    obtain rfl := Option.some.inj ((hgf.samples _ _ hb).symm.trans hb')
    exact ⟨harrived, b, hb, hstored⟩
  all s b hb := by
    obtain ⟨x, hx⟩ := h.all s b (hgf.samples s b hb)
    exact ⟨x, mem_stillHeld.mpr ⟨hx, b, hb⟩⟩
  keyed k e he := h.keyed k e (hgf.profiles k e he)

theorem key_detachAndRemember (entries : ShortProfileRegistry π) (profile : Option π) (minute : ℤ) :
    (entries.detachAndRemember fingerprint profile minute).2 = profile.map fingerprint := by
  unfold ShortProfileRegistry.detachAndRemember
  split
  · rfl
  · dsimp only
    split
    · rfl
    · split <;> rfl

theorem mem_detachAndRemember {entries : ShortProfileRegistry π} {profile : Option π} {minute : ℤ}
    {k : String} {e : ProfileEntry π}
    (h : (entries.detachAndRemember fingerprint profile minute).1.get? k = some e) :
    (∃ e', entries.get? k = some e' ∧ e.profile = e'.profile) ∨
      profile = some e.profile ∧ k = fingerprint e.profile := by
  unfold ShortProfileRegistry.detachAndRemember at h
  split at h
  · exact .inl ⟨e, h, rfl⟩
  · dsimp only at h
    split at h
    · rw [Dict.get?_set] at h
      split at h
      · rename_i hk
        cases h
        exact .inr ⟨rfl, hk⟩
      · exact .inl ⟨e, h, rfl⟩
    · rename_i e₀ hsome
      split at h
      · rw [Dict.get?_set] at h
        split at h
        · rename_i hk
          cases h
          exact .inl ⟨e₀, hk ▸ hsome, rfl⟩
        · exact .inl ⟨e, h, rfl⟩
      · exact .inl ⟨e, h, rfl⟩

/-- A sample is stored under a sequence that the buffer did not hold. -/
theorem Sound.append (h : Sound fingerprint f arrivals held) (hgf : Within g f)
    (hfresh : f.samples.get? (f.nextSeq.getD 0) = none) (x : TimedSample π) (idx : Option (List ℤ)) :
    Sound fingerprint (g.append fingerprint x idx) (arrivals ++ [x])
      (stillHeld (g.append fingerprint x idx) (held ++ [(f.nextSeq.getD 0, x)])) where
  stored y hy := by
    obtain ⟨hy, b, hb⟩ := mem_stillHeld.mp hy
    have hget := hb
    simp only [ShortFeatureBufferFn.append, Dict.get?_set, hgf.nextSeq] at hget
    rcases List.mem_append.mp hy with hy | hy
    · obtain ⟨harrived, b', hb', hstored⟩ := h.stored y hy
      rw [if_neg fun heq => by rw [heq, hfresh] at hb'; cases hb'] at hget
      obtain rfl := Option.some.inj ((hgf.samples _ _ hget).symm.trans hb')
      exact ⟨List.mem_append_left _ harrived, b, hb, hstored⟩
    · obtain rfl := List.mem_singleton.mp hy
      rw [if_pos rfl] at hget
      cases hget
      exact ⟨List.mem_append_right _ (List.mem_singleton_self x), _, hb, rfl, rfl,
        key_detachAndRemember _ _ _⟩
  all s b hb := by
    have hget := hb
    simp only [ShortFeatureBufferFn.append, Dict.get?_set, hgf.nextSeq] at hget
    split at hget
    · rename_i hs
      exact ⟨x, mem_stillHeld.mpr ⟨List.mem_append_right _ (by rw [hs]; exact .head _), b, hb⟩⟩
    · obtain ⟨y, hy⟩ := h.all s b (hgf.samples s b hget)
      exact ⟨y, mem_stillHeld.mpr ⟨List.mem_append_left _ hy, b, hb⟩⟩
  keyed k e he := by
    rcases mem_detachAndRemember he with ⟨e', he', heq⟩ | ⟨hprofile, rfl⟩
    · obtain ⟨hkey, y, hy, hprofile⟩ := h.keyed k e' (hgf.profiles k e' he')
      rw [heq]
      exact ⟨hkey, y, List.mem_append_left _ hy, hprofile⟩
    · exact ⟨rfl, x, List.mem_append_right _ (List.mem_singleton_self x), hprofile⟩

/-- The windows that are fired from a buffer see its samples as they arrived. -/
theorem Sound.faithful (h : Sound fingerprint f arrivals held) {bs : List BufferedSample}
    (hkeeps : Keeps f bs) (hapart : Apart fingerprint arrivals) (windows : List (Spec × ℤ)) :
    ∀ fl ∈ (f.fireAll windows).getD [], Faithful held fl := by
  have hattached : ∀ {range attached}, (∀ b ∈ range, f.samples.get? b.seq = some b) →
      f.profiles.attach range = some attached →
      ∀ p ∈ attached, ∃ y ∈ held, p.1.ts = y.2.ts ∧ p.1.sample = y.2.sample ∧
        p.2 = y.2.resolvedProfile := by
    intro range attached hrange hattach
    unfold ShortProfileRegistry.attach at hattach
    induction range generalizing attached with
    | nil =>
      cases hattach
      exact fun p hp => absurd hp List.not_mem_nil
    | cons b rest ih =>
      rw [List.mapM_cons] at hattach
      obtain ⟨first, hfirst, hattach⟩ := Option.bind_eq_some_iff.mp hattach
      obtain ⟨others, hothers, hattach⟩ := Option.bind_eq_some_iff.mp hattach
      cases hattach
      refine List.forall_mem_cons.mpr
        ⟨?_, ih (fun b' hb' => hrange b' (List.mem_cons_of_mem _ hb')) hothers⟩
      have hget := hrange b List.mem_cons_self
      obtain ⟨y, hy⟩ := h.all _ _ hget
      obtain ⟨harrived, b', hb', hts, hsample, hkey⟩ := h.stored _ hy
      obtain rfl := Option.some.inj (hget.symm.trans hb')
      cases hprofile : y.resolvedProfile with
      | none =>
        simp only [hkey, hprofile, Option.map_none, Option.some.injEq] at hfirst
        subst hfirst
        exact ⟨_, hy, hts, hsample, hprofile.symm⟩
      | some p =>
        simp only [hkey, hprofile, Option.map_some] at hfirst
        obtain ⟨e, he, rfl⟩ := Option.map_eq_some_iff.mp hfirst
        obtain ⟨heq, z, hz, hzp⟩ := h.keyed _ e he
        refine ⟨_, hy, hts, hsample, ?_⟩
        rw [hprofile, hapart z hz y harrived _ hzp p hprofile heq]
  unfold ShortFeatureBufferFn.fireAll
  split
  · rename_i start stop _ _
    obtain ⟨attached, hattach, -⟩ := hkeeps.exists_attach_read start stop
    rw [hattach, Option.map_some, Option.getD_some]
    intro fl hfl m hm
    obtain ⟨w, -, hfire⟩ := List.mem_flatMap.mp hfl
    unfold fire at hfire
    dsimp only at hfire
    split at hfire
    · exact absurd hfire List.not_mem_nil
    · obtain rfl := List.mem_singleton.mp hfire
      obtain ⟨p, hp, rfl⟩ := List.mem_map.mp hm
      obtain ⟨hp, hcovers⟩ := List.mem_filter.mp hp
      obtain ⟨y, hy, hts, hsample, hprofile⟩ := hattached (fun b hb => by
        rw [read_eq hkeeps.toBuffers] at hb
        exact (hkeeps.samples _ _).mpr ⟨List.mem_of_mem_filter hb, rfl⟩) hattach p hp
      refine ⟨y, hy, hts ▸ of_decide_eq_true hcovers, ?_⟩
      rw [hsample, hprofile]
  · exact fun fl hfl => absurd hfl List.not_mem_nil

end Buffer

section Run

variable {π : Type} {fingerprint : π → String} {maxSamplesPerLoop : ℤ} {tr : Trace π}

theorem Reaches.reachable (h : Reaches fingerprint maxSamplesPerLoop tr) :
    Reachable fingerprint maxSamplesPerLoop tr.op := by
  induction h with
  | new => exact .new
  | sample x _ ih => exact ih.sample x
  | watermark w _ ih => exact ih.watermark w
  | timer _ hpop ih => exact ih.timer hpop

theorem Sound.arrive {f : ShortFeatureBufferFn π} {arrivals : List (TimedSample π)}
    {held : List (ℤ × TimedSample π)} (h : Sound fingerprint f arrivals held) (x : TimedSample π) :
    Sound fingerprint f (arrivals ++ [x]) held where
  stored y hy := ⟨List.mem_append_left _ (h.stored y hy).1, (h.stored y hy).2⟩
  all := h.all
  keyed k e he := by
    obtain ⟨hkey, y, hy, hprofile⟩ := h.keyed k e he
    exact ⟨hkey, y, List.mem_append_left _ hy, hprofile⟩

theorem reaches_sound (h : Reaches fingerprint maxSamplesPerLoop tr) :
    Sound fingerprint tr.op.fn tr.arrivals tr.held := by
  induction h with
  | new =>
    constructor
    · exact fun y hy => absurd hy List.not_mem_nil
    · intro s b hb
      cases hb
    · intro k e he
      cases he
  | @sample tr x hreach ih =>
    obtain ⟨bs, hkeeps, -⟩ := keeps_of_reachable hreach.reachable
    have hfresh : tr.op.fn.samples.get? (tr.op.fn.nextSeq.getD 0) = none := by
      refine Option.eq_none_iff_forall_ne_some.mpr fun b hb => ?_
      obtain ⟨hmem, hseq⟩ := (hkeeps.samples _ _).mp hb
      exact absurd hseq (hkeeps.next b hmem).ne
    obtain ⟨g, hgf, ⟨hfn, -⟩ | ⟨idx, hfn, -⟩⟩ :=
      processElement_cases fingerprint maxSamplesPerLoop tr.op.watermark tr.op.fn x
    · have hdropped : stillHeld g (tr.held ++ [(tr.op.fn.nextSeq.getD 0, x)]) =
          stillHeld g tr.held := by
        unfold stillHeld
        rw [List.filter_append, List.filter_cons_of_neg, List.filter_nil, List.append_nil]
        intro hsome
        obtain ⟨b, hb⟩ := Option.isSome_iff_exists.mp hsome
        rw [hgf.samples _ _ hb] at hfresh
        cases hfresh
      simp only [Trace.sample, BufferOperator.step, hfn, hdropped]
      exact (ih.within hgf).arrive x
    · simp only [Trace.sample, BufferOperator.step, hfn]
      exact ih.append hgf hfresh x idx
  | watermark w _ ih => exact ih
  | @timer tr t rest _ _ ih =>
    have hkept := ih.within (within_evict tr.op.fn t)
    exact ⟨hkept.stored, hkept.all, hkept.keyed⟩

theorem reaches_faithful (h : Reaches fingerprint maxSamplesPerLoop tr)
    (hapart : Apart fingerprint tr.arrivals) : ∀ p ∈ tr.fired, Faithful p.2 p.1 := by
  induction h with
  | new => exact fun p hp => absurd hp List.not_mem_nil
  | @sample tr x hreach ih =>
    have hearlier : Apart fingerprint tr.arrivals := fun y hy z hz =>
      hapart y (List.mem_append_left _ hy) z (List.mem_append_left _ hz)
    refine List.forall_mem_append.mpr ⟨ih hearlier, fun p hp => ?_⟩
    obtain ⟨fl, hfl, rfl⟩ := List.mem_map.mp hp
    obtain ⟨bs, hkeeps, -⟩ := keeps_of_reachable (hreach.sample x).reachable
    have hsound := reaches_sound (hreach.sample x)
    obtain ⟨g, -, ⟨-, hnone⟩ | ⟨idx, hfn, hfires⟩⟩ :=
      processElement_cases fingerprint maxSamplesPerLoop tr.op.watermark tr.op.fn x
    · simp only [BufferOperator.step, hnone] at hfl
      exact absurd hfl List.not_mem_nil
    · have hfl' : fl ∈ ((g.append fingerprint x idx).fireAll
          (fireNow tr.op.watermark x.ts)).getD [] := hfires ▸ hfl
      rw [← hfn] at hfl'
      exact hsound.faithful hkeeps hapart _ fl hfl'
  | watermark w _ ih => exact ih hapart
  | @timer tr t rest hreach _ ih =>
    refine List.forall_mem_append.mpr ⟨ih hapart, fun p hp => ?_⟩
    obtain ⟨fl, hfl, rfl⟩ := List.mem_map.mp hp
    obtain ⟨bs, hkeeps, -⟩ := keeps_of_reachable hreach.reachable
    exact (reaches_sound hreach).faithful hkeeps hapart _ fl hfl

end Run

/-! ## The result -/

section Result

variable (digest : List ℕ → String) {members : List String}
  (arrivals : List (TimedSample (CplmLoopDynamicsProfile members)))

/-- No two profiles that arrive show a collision of the digest. -/
def CollisionFree : Prop :=
  ∀ x ∈ arrivals, ∀ y ∈ arrivals, ∀ p ∈ x.resolvedProfile, ∀ q ∈ y.resolvedProfile,
    digest p.bytes = digest q.bytes → p.bytes = q.bytes

/-- Two profiles share an entry exactly when they are equal as values. -/
def Shares : Prop :=
  ∀ x ∈ arrivals, ∀ y ∈ arrivals, ∀ p ∈ x.resolvedProfile, ∀ q ∈ y.resolvedProfile,
    fingerprint digest p = fingerprint digest q ↔ p.Same q

/-- Profiles that are equal as values have their maps in one order. -/
def SameOrder : Prop :=
  ∀ x ∈ arrivals, ∀ y ∈ arrivals, ∀ p ∈ x.resolvedProfile, ∀ q ∈ y.resolvedProfile,
    p.Same q → p = q

/-- Every window of the run sees the profiles as they arrived, and equal profiles are kept once. -/
def ProfilesKept (tr : Trace (CplmLoopDynamicsProfile members)) : Prop :=
  (∀ f ∈ tr.fired, Faithful f.2 f.1) ∧ Shares digest tr.arrivals

theorem CplmLoopDynamicsProfile.same_refl (p : CplmLoopDynamicsProfile members) : p.Same p :=
  List.forall₂_same.mpr fun v _ => by
    cases v with
    | map m => exact .refl _
    | _ => rfl

end Result

/-- The responses of two gains. -/
def gains (first second : Scalar × Scalar) (h : first.1 ≠ second.1) : JavaMap where
  entries := [first, second]
  distinct := List.nodup_cons.mpr ⟨fun hmem => h (List.mem_singleton.mp hmem),
    List.nodup_singleton _⟩
  fits := by norm_num [List.length_cons]

def kp : Scalar × Scalar := (.text ⟨"kp", by decide⟩, .double 1)

def ki : Scalar × Scalar := (.text ⟨"ki", by decide⟩, .double 2)

theorem kp_ne_ki : kp.1 ≠ ki.1 := by
  intro h
  exact absurd (congrArg JavaText.text (Scalar.text.inj h)) (by decide)

def profileOf (m : JavaMap) : CplmLoopDynamicsProfile ["bundleEpoch", "bundleResponseValues"] :=
  ⟨[.scalar (.number 1), .map m], rfl⟩

def inOrder := profileOf (gains kp ki kp_ne_ki)

def reordered := profileOf (gains ki kp kp_ne_ki.symm)

/-- A digest without collisions. -/
def plainDigest (bytes : List ℕ) : String := toString (Encodable.encode bytes)

theorem plainDigest_injective {bytes bytes' : List ℕ} (h : plainDigest bytes = plainDigest bytes') :
    bytes = bytes' :=
  Encodable.encode_injective (KeyText.natRepr_injective h)

def arriving {π : Type} (ts : ℤ) (p : π) : TimedSample π :=
  ⟨ts, {}, some p⟩

end OpenBridge.ShortWindow
