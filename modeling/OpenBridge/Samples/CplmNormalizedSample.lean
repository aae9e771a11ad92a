import OpenBridge.Foundation.Json

/-!
# Samples: reading a tuple

`CplmNormalizedSample.fromJson` and `TupleCodec.applyRoles`: a sample from the tree of a message.
-/

namespace OpenBridge.Samples

open OpenBridge.Foundation

/-- The observation of one role (`contract.RoleObservation`). -/
structure RoleObservation where
  role : String
  value : Option Double
  stringValue : Option String
  modeNative : Option String
  sampleTsMs : ℤ
  verifiedTsMs : ℤ
  qualityNative : String
  quality : String
  unit : Option String
  held : Bool
  ageMs : ℤ
  provenance : String
  reason : Option String
  deriving DecidableEq

/-- A sample of a loop, as far as it is read from a message; `none` for a number is NaN. -/
structure CplmNormalizedSample where
  loopId : Option String := none
  eventTsMs : ℤ := 0
  ingestTsMs : ℤ := 0
  pv : Option Double := some (.finite 0)
  sp : Option Double := some (.finite 0)
  op : Option Double := some (.finite 0)
  vp : Option Double := none
  mode : String := "UNKNOWN"
  quality : String := "UNKNOWN"
  isValid : Bool := true
  invalidReason : Option String := none
  loopType : Option String := none
  assetUuid : Option String := none
  site : Option String := none
  dynamicClassOverride : Option String := none
  schemaVersion : String := "1.0"
  bindingRevision : ℤ := 0
  gridSeconds : ℤ := 0
  roles : Dict String RoleObservation := Dict.empty

/-- `Double.isFinite`, of a double that may be NaN. -/
def isFinite (d : Option Double) : Bool := d.any Double.isFinite

/-- `trim()`. -/
def javaTrim (s : String) : String := trimWhere (fun c => c.toNat ≤ 0x20) s

namespace TupleCodec

def roles : List String := ["pv", "sp", "op", "vp", "mode"]

def readValue (role : String) (n : Json) : Option (Option Double) × Option String :=
  match n.get "value" with
  | some (.number v) => (some (some v.toDouble), none)
  | some (.text s) =>
      if role = "mode" then (none, some s)
      else
        match parseDouble (javaTrim s) with
        | some d => (some d, none)
        | none => (none, some s)
  | _ => (none, none)

def parseRole (role : String) (n : Json) : RoleObservation :=
  let read := readValue role n
  let sampleTsMs := JsonNode.asLong (n.get "sample_ts_ms") 0
  let o : RoleObservation :=
    { role
      value := read.1.join
      stringValue := read.2
      modeNative := JsonNode.nullableText (n.get "mode_native")
      sampleTsMs
      verifiedTsMs := JsonNode.asLong (n.get "verified_ts_ms") sampleTsMs
      qualityNative := JsonNode.asText (n.get "quality_native") ""
      quality := JsonNode.asText (n.get "quality") "UNKNOWN"
      unit := JsonNode.nullableText (n.get "unit")
      held := JsonNode.asBoolean (n.get "held") false
      ageMs := JsonNode.asLong (n.get "age_ms") 0
      provenance := "ROLES_BLOCK"
      reason := none }
  -- a number that is not finite is no evidence
  if read.1.any fun d => ¬ isFinite d then
    { o with value := none, quality := "BAD", reason := some "NON_FINITE" }
  else o

def readRole (block : Json) (d : Dict String RoleObservation) (role : String) :
    Dict String RoleObservation :=
  match block.get role with
  | some n => if n.isObject then d.set role (parseRole role n) else d
  | none => d

def readBlock (block : Json) : Dict String RoleObservation :=
  roles.foldl (readRole block) Dict.empty

def legacy (role : String) (value : Option Double) (stringValue : Option String) (ts : ℤ)
    (quality : String) : RoleObservation :=
  { role
    value
    stringValue
    modeNative := none
    sampleTsMs := ts
    verifiedTsMs := ts
    qualityNative := ""
    quality
    unit := none
    held := false
    ageMs := 0
    provenance := "LEGACY_TUPLE"
    reason := none }

def isGoodQuality (s : CplmNormalizedSample) : Bool := toUpperRoot (javaTrim s.quality) = "GOOD"

def synthesiseLegacy (s : CplmNormalizedSample) : Dict String RoleObservation :=
  let quality := if isGoodQuality s then "GOOD" else "BAD"
  let number (d : Dict String RoleObservation) (role : String) (v : Option Double) :=
    d.set role (legacy role v none s.eventTsMs quality)
  let required := number (number (number Dict.empty "pv" s.pv) "sp" s.sp) "op" s.op
  let d := if s.vp.isSome then number required "vp" s.vp else required
  if s.mode ≠ "UNKNOWN" then d.set "mode" (legacy "mode" none (some s.mode) s.eventTsMs quality) else d

def applyRoles (root : Json) (s : CplmNormalizedSample) : CplmNormalizedSample :=
  let s :=
    { s with
      schemaVersion := JsonNode.asText (root.get "schema_version") "1.0"
      bindingRevision := JsonNode.asLong (root.get "binding_revision") 0
      ingestTsMs := JsonNode.asLong (root.get "ingest_ts_ms") 0
      gridSeconds := JsonNode.asInt (root.get "grid_seconds") 0 }
  match root.get "roles" with
  | some block => { s with roles := if block.isObject then readBlock block else synthesiseLegacy s }
  | none => { s with roles := synthesiseLegacy s }

end TupleCodec

namespace CplmNormalizedSample

/-- `cleanId`: without a byte order mark, and trimmed. -/
def cleanId (id : String) : String := javaTrim (String.ofList (id.toList.filter (· ≠ '\uFEFF')))

/-- `isNumeric`: a number, or a text that reads as one. -/
def isNumeric (n : JsonNode) : Bool :=
  match n with
  | some (.number _) => true
  | some (.text s) => (parseDouble (javaTrim s)).isSome
  | _ => false

def refused (s : CplmNormalizedSample) (reason : String) : CplmNormalizedSample :=
  { s with isValid := false, invalidReason := some reason }

def either (root : Json) (name older : String) : JsonNode := (root.get name).or (root.get older)

def readVp (n : JsonNode) : Option Double :=
  match n with
  | none | some .null => none
  | some j =>
      let d := JsonNode.asDouble (some j) (.finite 0)
      if isFinite d then d else none

/-- The verdict on the sample; a missing one is `UNKNOWN`. -/
def readQuality (root : Json) : String :=
  let text := (JsonNode.nullableText (root.get "quality")).map javaTrim
  match text.filter (· ≠ "") with
  | some q => q
  | none =>
      match root.get "is_good_quality" with
      | some good => if JsonNode.asBoolean (some good) false then "GOOD" else "BAD"
      | none => "UNKNOWN"

def readRest (root : Json) (s : CplmNormalizedSample) : CplmNormalizedSample :=
  TupleCodec.applyRoles root
    { s with
      vp := readVp (root.get "vp")
      mode := JsonNode.asText (root.get "mode") "UNKNOWN"
      quality := readQuality root
      isValid := JsonNode.asBoolean (root.get "isValid") true
      loopType := JsonNode.nullableText (either root "loop_type" "loopType")
      site := JsonNode.nullableText (root.get "site")
      assetUuid := JsonNode.nullableText (either root "asset_uuid" "assetUuid")
      dynamicClassOverride := JsonNode.nullableText (either root "dynamic_class" "dynamicClass") }

/-- `fromJson`, of the tree of the message. -/
def fromJson (root : Json) : CplmNormalizedSample :=
  match either root "loop_id" "tagId" with
  | none => refused {} "MISSING_ID"
  | some id =>
      let s : CplmNormalizedSample := { loopId := some (cleanId id.asText) }
      match either root "event_ts_ms" "timestamp" with
      | none => refused s "MISSING_TS"
      | some ts =>
          let s := { s with eventTsMs := JsonNode.asLong (some ts) 0 }
          if ¬ (isNumeric (root.get "pv") ∧ isNumeric (root.get "sp") ∧ isNumeric (root.get "op")) then
            refused s "MISSING_REQUIRED_ROLE"
          else
            let s :=
              { s with
                pv := JsonNode.asDouble (root.get "pv") (.finite 0)
                sp := JsonNode.asDouble (root.get "sp") (.finite 0)
                op := JsonNode.asDouble (root.get "op") (.finite 0) }
            if ¬ (isFinite s.pv ∧ isFinite s.sp ∧ isFinite s.op) then refused s "NON_FINITE"
            else readRest root s

end CplmNormalizedSample

end OpenBridge.Samples
