import OpenBridge.Foundation.F64
import OpenBridge.Foundation.Json
import OpenBridge.Foundation.ShortestDigits

/-!
# Foundation: records as JSON objects

A record with many fields of a few kinds is written as an object with a member for each field and
read back field by field, each under its key and with its default.  A number that is written and
read back is the same number (`read_write`): an integer in the range of its type, and a finite
double, whose literal has the digits that read back.
-/

namespace OpenBridge.Foundation

/-! ## The literal of a double -/

theorem rint_neg (q : ℚ) : rint (-q) = -rint q := by
  have hfract : ⌊-q⌋ = if (⌊q⌋ : ℚ) = q then -⌊q⌋ else -⌊q⌋ - 1 := by
    split
    · rename_i h
      rw [← h, ← Int.cast_neg, Int.floor_intCast, Int.floor_intCast]
    · rename_i h
      have hlow := Int.floor_le q
      have hlt := lt_of_le_of_ne hlow h
      have hup := Int.lt_floor_add_one q
      rw [Int.floor_eq_iff]
      push_cast
      constructor <;> linarith
  unfold rint
  dsimp only
  rw [hfract]
  split
  · rename_i h
    have hr : q - (⌊q⌋ : ℚ) = 0 := by linarith
    have hr' : -q - ((-⌊q⌋ : ℤ) : ℚ) = 0 := by
      push_cast
      linarith
    rw [hr, hr', if_pos (by norm_num), if_pos (by norm_num)]
  · rename_i h
    have hr' : -q - ((-⌊q⌋ - 1 : ℤ) : ℚ) = 1 - (q - ⌊q⌋) := by
      push_cast
      ring
    rw [hr']
    rcases lt_trichotomy (q - (⌊q⌋ : ℚ)) (1 / 2) with hlt | heq | hgt
    · rw [if_neg (by linarith), if_pos (by linarith), if_pos hlt]
      ring
    · have hbelow : ¬ (1 : ℚ) - 1 / 2 < 1 / 2 := by norm_num
      have habove : ¬ (1 / 2 : ℚ) < 1 - 1 / 2 := by norm_num
      rw [heq, if_neg hbelow, if_neg habove, if_neg (lt_irrefl _), if_neg (lt_irrefl _)]
      split <;> split <;> omega
    · rw [if_pos (by linarith), if_neg (by linarith), if_pos hgt]
      ring

namespace Double

theorem ofRat_neg {x q : ℚ} (h : ofRat x = finite q) : ofRat (-x) = finite (-q) := by
  have hulp : ulpExponent (-x) = ulpExponent x := by
    unfold ulpExponent
    rw [abs_neg]
  unfold ofRat at h ⊢
  dsimp only at h ⊢
  rw [hulp, neg_div, rint_neg, Int.cast_neg, neg_mul, abs_neg]
  split at h
  · cases h
  · rename_i hsmall
    rw [if_neg hsmall]
    injection h with h
    rw [h]

theorem IsExact.neg {q : ℚ} (h : IsExact q) : IsExact (-q) := by
  obtain ⟨⟨n, hn⟩, hbound⟩ := h
  refine ⟨⟨-n, ?_⟩, by rwa [abs_neg]⟩
  have hulp : ulpExponent (-q) = ulpExponent q := by
    unfold ulpExponent
    rw [abs_neg]
  rw [hulp, Int.cast_neg, neg_mul, ← hn]

def literal (q : ℚ) : ℚ :=
  if q = 0 then 0
  else if q < 0 then -(DecimalDigits.shortest (-q)).value
  else (DecimalDigits.shortest q).value

theorem ofRat_literal {q : ℚ} (h : IsExact q) : ofRat (literal q) = finite q := by
  unfold literal
  split
  · rename_i hzero
    rw [hzero]
    simp [ofRat, rint]
  · rename_i hne
    split
    · rename_i hneg
      have hread := (DecimalDigits.shortest_spec (neg_pos.mpr hneg) h.neg).2
      rw [ofRat_neg hread, neg_neg]
    · rename_i hpos
      exact (DecimalDigits.shortest_spec (lt_of_le_of_ne (not_lt.mp hpos) (Ne.symm hne)) h).2

end Double

/-- `asDouble(default)`, of a default that may be NaN. -/
def JsonNode.asF64 (n : JsonNode) (default : F64) : F64 :=
  match n with
  | some (.number v) => some v.toDouble
  | some (.text s) => (parseDouble s).getD default
  | some (.bool b) => F64.ofInt (if b then 1 else 0)
  | _ => default

/-- `put(name, double)`: a number, or the quoted name of what is none. -/
def Json.ofF64 : F64 → Json
  | some (.finite q) => .number (.decimal (Double.literal q))
  | some (.infinite negative) => .text (if negative then "-Infinity" else "Infinity")
  | none => .text "NaN"

def F64.IsFinite (a : F64) : Prop := ∃ q, a = some (.finite q) ∧ Double.IsExact q

theorem F64.ofRat_isFinite {r : ℚ} (h : (Double.ofRat r).isFinite = true) :
    (F64.ofRat r).IsFinite := by
  unfold F64.ofRat
  cases hr : Double.ofRat r with
  | finite q => exact ⟨q, rfl, Double.isExact_of_ofRat hr⟩
  | infinite negative =>
    rw [hr] at h
    cases h

theorem JsonNode.asF64_ofF64 {a : F64} (h : a.IsFinite) (default : F64) :
    JsonNode.asF64 (some (Json.ofF64 a)) default = a := by
  obtain ⟨q, rfl, hq⟩ := h
  have hread := Double.ofRat_literal hq
  simp only [Json.ofF64, JsonNode.asF64, JsonNumber.toDouble, hread]

/-! ## The kinds of fields -/

inductive FieldKind where
  | double | int | long | text | bool
  deriving DecidableEq

namespace FieldKind

def Value : FieldKind → Type
  | double => F64
  | int => ℤ
  | long => ℤ
  | text => String
  | bool => Bool

def Holds : (k : FieldKind) → k.Value → Prop
  | double, v => F64.IsFinite v
  | int, (v : ℤ) => -2 ^ 31 ≤ v ∧ v < 2 ^ 31
  | long, (v : ℤ) => -2 ^ 63 ≤ v ∧ v < 2 ^ 63
  | text, _ => True
  | bool, _ => True

/-- `put`. -/
def write : (k : FieldKind) → k.Value → Json
  | double, v => Json.ofF64 v
  | int, (v : ℤ) => .number (.integral v)
  | long, (v : ℤ) => .number (.integral v)
  | text, v => .text v
  | bool, v => .bool v

/-- `asDouble`, `asInt`, `asLong`, `asText` or `asBoolean`, with a default. -/
def read : (k : FieldKind) → JsonNode → k.Value → k.Value
  | double, n, default => n.asF64 default
  | int, n, default => n.asInt default
  | long, n, default => n.asLong default
  | text, n, default => n.asText default
  | bool, n, default => n.asBoolean default

theorem read_write (k : FieldKind) {v : k.Value} (h : k.Holds v) (default : k.Value) :
    k.read (some (k.write v)) default = v := by
  cases k with
  | double => exact JsonNode.asF64_ofF64 h default
  | int => exact JsonNumber.toSigned_of_range h.1 h.2
  | long => exact JsonNumber.toSigned_of_range h.1 h.2
  | text => rfl
  | bool => rfl

theorem read_null (k : FieldKind) (default : k.Value) : k.read (some .null) default = default := by
  cases k <;> rfl

def zero : (k : FieldKind) → k.Value
  | double => F64.ofInt 0
  | int => (0 : ℤ)
  | long => (0 : ℤ)
  | text => ""
  | bool => false

theorem holds_zero (k : FieldKind) : k.Holds k.zero := by
  cases k with
  | double => exact F64.ofRat_isFinite (by decide +kernel)
  | int => exact (by decide : (-2 ^ 31 : ℤ) ≤ 0 ∧ (0 : ℤ) < 2 ^ 31)
  | long => exact (by decide : (-2 ^ 63 : ℤ) ≤ 0 ∧ (0 : ℤ) < 2 ^ 63)
  | text => exact trivial
  | bool => exact trivial

end FieldKind

/-! ## The members of an object -/

namespace Json

def keysOf (members : List (String × Json)) : List String := members.map Prod.fst

theorem get_of_mem {members : List (String × Json)} (h : (keysOf members).Nodup) {k : String}
    {v : Json} (hm : (k, v) ∈ members) : (object members).get k = some v := by
  rw [get_object, Dict.lookup_reverse h]
  exact (Dict.lookup_eq_some_iff h).mpr hm

theorem get_of_not_mem {members : List (String × Json)} {k : String} (h : k ∉ keysOf members) :
    (object members).get k = none := by
  have hnone : ∀ m ∈ members.reverse, (k != m.1) = true := by
    intro m hm
    refine bne_iff_ne.mpr ?_
    rintro rfl
    exact h (List.mem_map.mpr ⟨m, List.mem_reverse.mp hm, rfl⟩)
  rw [get_object]
  exact List.lookup_eq_none_iff.mpr hnone

def optionals (os : List (String × Option Json)) : List (String × Json) :=
  os.filterMap fun o => o.2.map fun j => (o.1, j)

theorem keysOf_optionals_sublist (os : List (String × Option Json)) :
    (keysOf (optionals os)).Sublist (os.map Prod.fst) := by
  induction os with
  | nil => exact List.Sublist.refl _
  | cons o os ih =>
    obtain ⟨k, v⟩ := o
    cases v with
    | none => exact ih.cons k
    | some j => exact ih.cons_cons k

theorem get_optionals {always : List (String × Json)} {os : List (String × Option Json)}
    (h : (keysOf always ++ os.map Prod.fst).Nodup) {k : String} {v : Option Json} (hm : (k, v) ∈ os) :
    (object (always ++ optionals os)).get k = v := by
  have hkeys : keysOf (always ++ optionals os) = keysOf always ++ keysOf (optionals os) :=
    List.map_append
  obtain ⟨-, hos, hdisjoint⟩ := List.nodup_append.mp h
  have hk : k ∈ os.map Prod.fst := List.mem_map_of_mem hm
  cases v with
  | some j =>
    refine get_of_mem ?_ (List.mem_append_right _ (List.mem_filterMap.mpr ⟨(k, some j), hm, rfl⟩))
    rw [hkeys]
    exact ((List.Sublist.refl _).append (keysOf_optionals_sublist os)).nodup h
  | none =>
    refine get_of_not_mem ?_
    rw [hkeys, List.mem_append]
    rintro (hmem | hmem)
    · exact hdisjoint k hmem k hk rfl
    · obtain ⟨m, hm', rfl⟩ := List.mem_map.mp hmem
      obtain ⟨o, ho, hsome⟩ := List.mem_filterMap.mp hm'
      obtain ⟨j, hj, rfl⟩ := Option.map_eq_some_iff.mp hsome
      have heq := (Dict.lookup_eq_some_iff hos).mpr hm
      rw [(Dict.lookup_eq_some_iff hos).mpr (show (o.1, o.2) ∈ os from ho), hj] at heq
      cases heq

theorem fields_object (d : Dict String Json) : (object d.entries).fields = d := by
  suffices h : ∀ es es' : List (String × Json), ∀ hn : ((es ++ es').map Prod.fst).Nodup,
      es'.foldl (fun d m => d.set m.1 m.2) (⟨es, (List.nodup_append.mp (by
        rwa [List.map_append] at hn)).1⟩ : Dict String Json) = ⟨es ++ es', hn⟩ by
    exact h [] d.entries d.nodupKeys
  intro es es' hn
  induction es' generalizing es with
  | nil => simp
  | cons e rest ih =>
    have hnot : e.1 ∉ es.map Prod.fst := by
      rw [List.map_append, List.nodup_append] at hn
      exact fun hmem => hn.2.2 e.1 hmem e.1 (List.mem_cons_self) rfl
    rw [List.foldl_cons]
    have hset : (⟨es, (List.nodup_append.mp (by rwa [List.map_append] at hn)).1⟩ :
        Dict String Json).set e.1 e.2 = ⟨es ++ [e], by
          rw [List.append_cons] at hn
          rw [List.map_append] at hn
          exact (List.nodup_append.mp hn).1⟩ := by
      refine Dict.ext ?_
      exact Dict.entries_set_of_not_mem hnot
    rw [hset, ih (es ++ [e]) (by rwa [← List.append_cons])]
    refine Dict.ext ?_
    simp

def ofTexts (d : Dict String String) : Json := object (d.mapValues text).entries

def textsOf (n : JsonNode) : Dict String String := (n.getD null).fields.mapValues asText

theorem textsOf_ofTexts (d : Dict String String) : textsOf (some (ofTexts d)) = d := by
  unfold textsOf ofTexts
  rw [Option.getD_some, fields_object]
  refine Dict.ext ?_
  rw [Dict.entries_mapValues, Dict.entries_mapValues, List.map_map]
  exact List.map_id _

end Json

/-! ## Tables of fields -/

/-- The fields of a record: their types, the members they are written to, the members they are read
from, and the values they start with. -/
structure FieldTable (ι : Type) where
  kind : ι → FieldKind
  written : List (ι × String)
  readFrom : List (ι × String)
  initial : (f : ι) → (kind f).Value

namespace FieldTable

variable {ι : Type} (t : FieldTable ι)

abbrev Record : Type := (f : ι) → (t.kind f).Value

def Holds (r : t.Record) : Prop := ∀ f, (t.kind f).Holds (r f)

def write (r : t.Record) (f : ι) : Json := (t.kind f).write (r f)

variable [DecidableEq ι]

def read (root : Json) : t.Record := fun f =>
  match t.readFrom.lookup f with
  | some key => (t.kind f).read (root.get key) (t.initial f)
  | none => t.initial f

/-- The keys under which a field is written and read are the same. -/
def Agrees (f : ι) : Prop := ∃ key, (f, key) ∈ t.written ∧ t.readFrom.lookup f = some key

instance (f : ι) : Decidable (t.Agrees f) :=
  decidable_of_iff ((t.readFrom.lookup f).any fun key => decide ((f, key) ∈ t.written)) (by
    unfold Agrees
    rcases Option.eq_none_or_eq_some (t.readFrom.lookup f) with h | ⟨key, h⟩
    · simp [h]
    · simp [h])

variable {t}

theorem read_object {members : List (String × Json)} (h : (Json.keysOf members).Nodup)
    {put : ι → Json} (hmem : ∀ m ∈ t.written, (m.2, put m.1) ∈ members) {f : ι} (hf : t.Agrees f) :
    t.read (.object members) f = (t.kind f).read (some (put f)) (t.initial f) := by
  obtain ⟨key, hwritten, hread⟩ := hf
  have hget := Json.get_of_mem h (hmem _ hwritten)
  unfold read
  rw [hread]
  dsimp only
  rw [hget]

theorem read_of_put {members : List (String × Json)} (h : (Json.keysOf members).Nodup)
    {put : ι → Json} (hmem : ∀ m ∈ t.written, (m.2, put m.1) ∈ members) {f : ι} (hf : t.Agrees f)
    {r : t.Record} (hr : (t.kind f).Holds (r f)) (hput : put f = t.write r f) :
    t.read (.object members) f = r f := by
  rw [read_object h hmem hf, hput]
  exact FieldKind.read_write _ hr _

end FieldTable

end OpenBridge.Foundation
