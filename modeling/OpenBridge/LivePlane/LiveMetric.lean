import OpenBridge.Foundation.JsonText
import OpenBridge.Foundation.KeyText

/-!
# Live plane: the snapshot record and the live metric

`AlarmMetricPublisher.snapshotJson` writes the record of a metric; `parseSnapshotMetric` and
`metricFromSparkplug` are the two ways in which the browser makes a live metric.  The numbers are
those of JavaScript; how they are printed and read is a parameter.
-/

namespace OpenBridge.LivePlane

open OpenBridge.Foundation
open JsonText (quote backslash closeBrace isNumberUnit)

/-- The finite numbers, as Java prints them and `JSON.parse` reads them: printing and reading are
inverse. -/
structure JsNumbers (ν : Type) where
  zero : ν
  print : ν → List CodeUnit
  read : List CodeUnit → Option ν
  /-- `Number(x)`, when it is finite. -/
  toNumber : JsonValue ν → Option ν
  print_ne : ∀ n, print n ≠ []
  print_units : ∀ n, ∀ c ∈ print n, isNumberUnit c = true
  read_print : ∀ n, read (print n) = some n
  toNumber_number : ∀ n, toNumber (.number n) = some n

def isDigitUnit (c : CodeUnit) : Bool := 48 ≤ c ∧ c ≤ 57

def unitChar (c : CodeUnit) : Char := Char.ofNat c.toNat

theorem digit_unit {c : Char} (h : c.isDigit = true) :
    isDigitUnit (UInt16.ofNat c.toNat) = true ∧ unitChar (UInt16.ofNat c.toNat) = c := by
  have hrange : 48 ≤ c.toNat ∧ c.toNat ≤ 57 := by
    unfold Char.isDigit at h
    rw [Bool.and_eq_true, decide_eq_true_eq, decide_eq_true_eq] at h
    exact ⟨UInt32.le_iff_toNat_le.mp h.1, UInt32.le_iff_toNat_le.mp h.2⟩
  have hnat : (UInt16.ofNat c.toNat).toNat = c.toNat := by
    rw [UInt16.toNat_ofNat']
    omega
  refine ⟨?_, ?_⟩
  · unfold isDigitUnit
    rw [decide_eq_true_eq, UInt16.le_iff_toNat_le, UInt16.le_iff_toNat_le, hnat]
    exact hrange
  · unfold unitChar
    rw [hnat, Char.ofNat_toNat]

def JsNumbers.naturals : JsNumbers ℕ where
  zero := 0
  print n := ascii (Nat.repr n)
  read cs := if cs.all isDigitUnit then some (Nat.ofDigitChars 10 (cs.map unitChar) 0) else none
  toNumber
    | .number n => some n
    | _ => none
  print_ne n := by
    unfold ascii
    rw [Nat.toList_repr]
    exact fun h => Nat.toDigits_ne_nil (List.map_eq_nil_iff.mp h)
  print_units n c hc := by
    obtain ⟨d, hd, rfl⟩ := List.mem_map.mp hc
    have h := (digit_unit (KeyText.isDigit_of_mem_natRepr hd)).1
    unfold isDigitUnit at h
    unfold isNumberUnit
    rw [decide_eq_true_eq] at h ⊢
    exact .inl h
  read_print n := by
    have hall : (ascii (Nat.repr n)).all isDigitUnit = true := by
      rw [List.all_eq_true]
      intro c hc
      obtain ⟨d, hd, rfl⟩ := List.mem_map.mp hc
      exact (digit_unit (KeyText.isDigit_of_mem_natRepr hd)).1
    have hchars : (ascii (Nat.repr n)).map unitChar = Nat.toDigits 10 n := by
      unfold ascii
      rw [List.map_map, ← Nat.toList_repr]
      refine (List.map_congr_left fun c hc => ?_).trans (List.map_id _)
      exact (digit_unit (KeyText.isDigit_of_mem_natRepr hc)).2
    rw [if_pos hall, hchars, Nat.ofDigitChars_ten_toDigits]
  toNumber_number _ := rfl

inductive MetricValue (ν : Type) where
  | text (s : List CodeUnit)
  | bool (b : Bool)
  | number (n : ν)

structure MetricRecord (ν : Type) where
  value : MetricValue ν
  quality : ν
  ts : ν
  sourceTs : Option ν
  verifiedTs : Option ν
  emissionTs : Option ν
  qualityToken : Option (List CodeUnit)

variable {ν : Type}

/-! ## The publisher -/

namespace AlarmMetricPublisher

/-- `replace("\"", "\\\"")`. -/
def escaped (s : List CodeUnit) : List CodeUnit :=
  s.flatMap fun c => if c = quote then [backslash, quote] else [c]

def valueJson (numbers : JsNumbers ν) : MetricValue ν → List CodeUnit
  | .text s => quote :: (escaped s ++ [quote])
  | .bool b => ascii (if b then "true" else "false")
  | .number n => numbers.print n

def optional {α : Type} (name : String) (write : α → List CodeUnit) (o : Option α) :
    List CodeUnit :=
  match o with
  | none => []
  | some a => ascii name ++ write a

def snapshotJson (numbers : JsNumbers ν) (r : MetricRecord ν) : List CodeUnit :=
  ascii "\x7b\"v\":" ++ valueJson numbers r.value ++
    ascii ",\"q\":" ++ numbers.print r.quality ++
    ascii ",\"ts\":" ++ numbers.print r.ts ++
    optional ",\"src\":" numbers.print r.sourceTs ++
    optional ",\"ver\":" numbers.print r.verifiedTs ++
    optional ",\"emit\":" numbers.print r.emissionTs ++
    optional ",\"qt\":" (fun t => valueJson numbers (.text t)) r.qualityToken ++ [closeBrace]

end AlarmMetricPublisher

/-! ## The browser -/

/-- One live metric value with its three times; a time that is no finite number is none. -/
structure LiveMetric (ν : Type) where
  value : JsonValue ν
  quality : ν
  ts : Option ν
  sourceTs : Option ν
  verifiedTs : Option ν
  emissionTs : Option ν
  qualityToken : Option (List CodeUnit)

structure SparkplugMetric (ν : Type) where
  value : JsonValue ν
  properties : List (String × JsonValue ν)

namespace LiveMetric

/-- `num`: a number, unless there is none. -/
def num (numbers : JsNumbers ν) : Option (JsonValue ν) → Option ν
  | none | some .null => none
  | some x => numbers.toNumber x

def string : Option (JsonValue ν) → Option (List CodeUnit)
  | some (.text s) => some s
  | _ => none

def ofFields (numbers : JsNumbers ν) (o : JsonValue ν) (value quality ts : String)
    (sourceTs verifiedTs emissionTs qualityToken : String) : Option (LiveMetric ν) :=
  match o.get (ascii value), o.get (ascii ts) with
  | some v, some t => some {
      value := v
      quality := (num numbers (o.get (ascii quality))).getD numbers.zero
      ts := numbers.toNumber t
      sourceTs := num numbers (o.get (ascii sourceTs))
      verifiedTs := num numbers (o.get (ascii verifiedTs))
      emissionTs := num numbers (o.get (ascii emissionTs))
      qualityToken := string (o.get (ascii qualityToken)) }
  | _, _ => none

def parseSnapshotMetric (numbers : JsNumbers ν) (raw : JsonValue ν) : Option (LiveMetric ν) :=
  (ofFields numbers raw "v" "q" "ts" "src" "ver" "emit" "qt").or
    (ofFields numbers raw "value" "quality" "ts" "sourceTs" "verifiedTs" "emissionTs"
      "qualityToken")

def metricFromSparkplug (numbers : JsNumbers ν) (m : SparkplugMetric ν) (payloadTs : ν) :
    LiveMetric ν :=
  let sourceTs := num numbers (m.properties.lookup "sourceTs")
  { value := m.value
    quality := (num numbers (m.properties.lookup "quality")).getD numbers.zero
    ts := some (sourceTs.getD payloadTs)
    sourceTs := sourceTs
    verifiedTs := num numbers (m.properties.lookup "verifiedTs")
    emissionTs := num numbers (m.properties.lookup "emissionTs")
    qualityToken := string (m.properties.lookup "qualityToken") }

end LiveMetric

def MetricValue.shown : MetricValue ν → JsonValue ν
  | .text s => .text s
  | .bool b => .bool b
  | .number n => .number n

namespace MetricRecord

/-- The metric of `publishMetricDData`, as the browser decodes it. -/
def published (r : MetricRecord ν) : SparkplugMetric ν where
  value := r.value.shown
  properties :=
    [("quality", .number r.quality)] ++
      (r.sourceTs.map fun t => ("sourceTs", .number t)).toList ++
      (r.verifiedTs.map fun t => ("verifiedTs", .number t)).toList ++
      (r.emissionTs.map fun t => ("emissionTs", .number t)).toList ++
      (r.qualityToken.map fun t => ("qualityToken", .text t)).toList

end MetricRecord

end OpenBridge.LivePlane
