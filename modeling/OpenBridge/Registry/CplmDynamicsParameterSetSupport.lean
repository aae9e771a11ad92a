import OpenBridge.Foundation.Unwinding
import OpenBridge.GateConfig.ProfileBroadcastFn
import OpenBridge.GateFusion.FusionInputs
import OpenBridge.Samples.CplmNormalizedSample

/-!
# Registry: the envelopes of the metadata plane

`CplmMetadataEnvelope`: a parameter-set envelope, a metadata envelope or a tombstone as the calls
that its reader makes on a map of attributes.  A payload that does not parse ends the reader after
the parameters were stored.
-/

namespace OpenBridge.Registry

open OpenBridge.Foundation
open OpenBridge.Foundation.Dict (Update)

def scopedKey (scope name : String) : String := scope ++ ":" ++ name

/-- Whether a key is `owner`, or stands under it. -/
def Owns (owner key : String) : Bool := key = owner ∨ startsWith key (owner ++ ":")

theorem owns_scopedKey (owner name : String) : Owns owner (scopedKey owner name) = true := by
  unfold Owns scopedKey startsWith
  refine decide_eq_true (Or.inr (decide_eq_true ?_))
  rw [String.toList_append (s := owner ++ ":")]
  exact List.prefix_append _ _

/-- A call of the reader: `put`, or the removal of a key and what stands under it. -/
abbrev Call := Update String String

def removeKeyAndPrefixed (key : String) : Call := .removeWhere (Owns key)

namespace CplmMetadataEnvelope

def isEnvelope (root : JsonNode) : Bool :=
  root.isObject &&
    ((root.path "parameters").isArray || (root.path "staticAttributes").isSome ||
      (root.path "payload").isSome || (root.path "__tombstone").asBoolean false)

/-- `text(n, field, def)`. -/
def text (n : JsonNode) (field default : String) : String :=
  (n.path field).nullableText.getD default

def isTombstone (root : JsonNode) : Bool := (root.path "__tombstone").asBoolean false

def calcInstanceId (root : JsonNode) : String := text root "calcInstanceId" (text root "key" "")

def parameters (root : JsonNode) : List Json :=
  if (root.path "parameters").isArray then (root.path "parameters").elements else []

def payload (readTree : String → Except String JsonNode) (root : JsonNode) :
    Except String JsonNode :=
  match root.path "payload" with
  | none => .ok root
  | some p => if p.isText then readTree p.asText else .ok (some p)

def staticAttributes (payload : JsonNode) : List Json :=
  if (payload.path "staticAttributes").isArray then (payload.path "staticAttributes").elements
  else []

/-- The value of a static attribute: a text, or the `value` of an object. -/
def attributeValue (attr : Json) : String :=
  match attr.get "value" with
  | none => ""
  | some v =>
      if v.isObject && (v.get "value").isSome then (v.get "value").asText ""
      else JsonNode.asText (some v) ""

def parameterCalls (calcId : String) (parameter : Json) : List Call :=
  let name := text (some parameter) "name" ""
  let value := text (some parameter) "value" ""
  if name = "" then []
  else .put name value :: if calcId = "" then [] else [.put (scopedKey calcId name) value]

def attributeCalls (attr : Json) : List Call :=
  match (attr.get "assetUuid").nullableText, (attr.get "attrKey").nullableText with
  | some assetUuid, some attrKey =>
      [.put (scopedKey assetUuid attrKey) (attributeValue attr),
        .put attrKey (attributeValue attr)]
  | _, _ => []

/-- The calls that were made, and the exception that ended them, if there was one. -/
structure Applied where
  calls : List Call
  thrown : Option String

def applyUpdate (readTree : String → Except String JsonNode) (root : JsonNode) : Applied :=
  if ¬ root.isObject then ⟨[], some "a metadata update must be a JSON object"⟩
  else if isTombstone root then
    ⟨(root.path "key").nullableText.toList.map removeKeyAndPrefixed, none⟩
  else
    let stored := (parameters root).flatMap (parameterCalls (calcInstanceId root))
    match payload readTree root with
    | .error message => ⟨stored, some message⟩
    | .ok node => ⟨stored ++ (staticAttributes node).flatMap attributeCalls, none⟩

/-! ## The scope of an envelope -/

structure ScopedName where
  scope : String
  name : String
  deriving DecidableEq

def scopedNames (readTree : String → Except String JsonNode) (root : JsonNode) :
    List ScopedName :=
  (parameters root).map (fun p => ⟨calcInstanceId root, text (some p) "name" ""⟩) ++
    match payload readTree root with
    | .error _ => []
    | .ok node => (staticAttributes node).filterMap fun a =>
        (a.get "assetUuid").nullableText.bind fun assetUuid =>
          (a.get "attrKey").nullableText.map fun attrKey => ⟨assetUuid, attrKey⟩

def ofScope (readTree : String → Except String JsonNode) (scope : String) (root : JsonNode) :
    Bool :=
  isEnvelope root &&
    if isTombstone root then decide ((root.path "key").nullableText = some scope)
    else (scopedNames readTree root).all fun n => n.scope = scope

def attributeNames (readTree : String → Except String JsonNode) (root : JsonNode) :
    List String :=
  if isTombstone root then [] else (scopedNames readTree root).map ScopedName.name

variable {readTree : String → Except String JsonNode} {root : JsonNode} {scope key : String}

theorem touches_put {k name value : String} (h : Update.touches (.put name value) k = true) :
    k = name :=
  of_decide_eq_true h

theorem touches_parameterCalls {calcId : String} {p : Json} {c : Call}
    (hc : c ∈ parameterCalls calcId p) (hk : c.touches key = true) :
    key = text (some p) "name" "" ∨ Owns calcId key = true := by
  simp only [parameterCalls] at hc
  split at hc
  · cases hc
  · rcases List.mem_cons.mp hc with rfl | hc
    · exact Or.inl (touches_put hk)
    · split at hc
      · cases hc
      · obtain rfl := List.mem_singleton.mp hc
        rw [touches_put hk]
        exact Or.inr (owns_scopedKey calcId _)

theorem touches_attributeCalls {a : Json} {c : Call} (hc : c ∈ attributeCalls a)
    (hk : c.touches key = true) :
    ∃ assetUuid attrKey, (a.get "assetUuid").nullableText = some assetUuid ∧
      (a.get "attrKey").nullableText = some attrKey ∧
      (key = attrKey ∨ Owns assetUuid key = true) := by
  unfold attributeCalls at hc
  split at hc
  · rename_i assetUuid attrKey hasset hkey
    refine ⟨assetUuid, attrKey, hasset, hkey, ?_⟩
    rcases List.mem_cons.mp hc with rfl | hc
    · rw [touches_put hk]
      exact Or.inr (owns_scopedKey assetUuid attrKey)
    · obtain rfl := List.mem_singleton.mp hc
      exact Or.inl (touches_put hk)
  · cases hc

theorem touches_of_ofScope (hscope : ofScope readTree scope root = true) {c : Call}
    (hc : c ∈ (applyUpdate readTree root).calls) (hk : c.touches key = true) :
    key ∈ attributeNames readTree root ∨ Owns scope key = true := by
  unfold ofScope at hscope
  obtain ⟨-, hscope⟩ := (Bool.and_eq_true _ _).mp hscope
  unfold applyUpdate at hc
  unfold attributeNames
  split at hc
  · cases hc
  split at hc
  · rename_i ht
    rw [if_pos ht] at hscope
    obtain ⟨k, hkey, rfl⟩ := List.mem_map.mp hc
    rw [of_decide_eq_true hscope, Option.toList_some, List.mem_singleton] at hkey
    rw [hkey] at hk
    exact Or.inr hk
  · rename_i ht
    rw [if_neg ht, List.all_eq_true] at hscope
    rw [if_neg ht]
    -- the parameters are stored before the payload is read
    have hparameters : c ∈ (parameters root).flatMap (parameterCalls (calcInstanceId root)) →
        key ∈ (scopedNames readTree root).map ScopedName.name ∨ Owns scope key = true := by
      intro hc
      obtain ⟨p, hp, hc⟩ := List.mem_flatMap.mp hc
      have hmem : (⟨calcInstanceId root, text (some p) "name" ""⟩ : ScopedName) ∈
          scopedNames readTree root :=
        List.mem_append_left _ (List.mem_map.mpr ⟨p, hp, rfl⟩)
      rcases touches_parameterCalls hc hk with hname | howns
      · exact Or.inl (List.mem_map.mpr ⟨_, hmem, hname.symm⟩)
      · rw [← of_decide_eq_true (hscope _ hmem)]
        exact Or.inr howns
    dsimp only at hc
    cases hpay : payload readTree root with
    | error message =>
      rw [hpay] at hc
      exact hparameters hc
    | ok node =>
      rw [hpay] at hc
      rcases List.mem_append.mp hc with hc | hc
      · exact hparameters hc
      · obtain ⟨a, ha, hc⟩ := List.mem_flatMap.mp hc
        obtain ⟨assetUuid, attrKey, hasset, hattr, hcase⟩ := touches_attributeCalls hc hk
        have hmem : (⟨assetUuid, attrKey⟩ : ScopedName) ∈ scopedNames readTree root := by
          unfold scopedNames
          rw [hpay]
          refine List.mem_append_right _ (List.mem_filterMap.mpr ⟨a, ha, ?_⟩)
          rw [hasset, hattr]
          rfl
        rcases hcase with hname | howns
        · exact Or.inl (List.mem_map.mpr ⟨_, hmem, hname.symm⟩)
        · rw [← of_decide_eq_true (hscope _ hmem)]
          exact Or.inr howns

end CplmMetadataEnvelope

/-!
# Registry: the dynamics profile of a loop

`CplmLoopDynamicsProfile`: the classes of loops, how a class is read off a loop type or a tag, and the
fields of a profile that the registry attributes write.  The gate thresholds and the rest, which only
the class pack and a profile document set, are of any type.
-/

open OpenBridge.GateFusion (DynamicClass)
open OpenBridge.Samples (javaTrim)

inductive Thrown where
  | illegalArgument (message : String)
  | other (message : String)
  deriving DecidableEq

inductive LoopClass where
  | FIC | PIC | PIC_GAS | PIC_VAPOUR | LIC | TIC | UNKNOWN
  deriving DecidableEq

namespace LoopClass

/-- `name()`. -/
def name : LoopClass → String
  | FIC => "FIC"
  | PIC => "PIC"
  | PIC_GAS => "PIC_GAS"
  | PIC_VAPOUR => "PIC_VAPOUR"
  | LIC => "LIC"
  | TIC => "TIC"
  | UNKNOWN => "UNKNOWN"

/-- `values()`. -/
def values : List LoopClass := [FIC, PIC, PIC_GAS, PIC_VAPOUR, LIC, TIC, UNKNOWN]

/-- `valueOf(name)`. -/
def valueOf? (s : String) : Option LoopClass := values.find? fun c => c.name = s

end LoopClass

/-- `parseClass`: the class a loop type names; none of a type that is absent or blank. -/
def parseClass (loopType : Option String) : Option LoopClass :=
  (loopType.filter fun s => javaTrim s ≠ "").map fun loopType =>
    let t := String.ofList ((toUpperRoot (javaTrim loopType)).toList.map fun c =>
      if c = '-' ∨ c = ' ' then '_' else c)
    if containsText t "PRESSURE_GAS" ∨ t = "PIC_GAS" ∨ containsText t "GAS_INTEGRATING" then
      .PIC_GAS
    else if containsText t "PRESSURE_VAP" ∨ t = "PIC_VAPOUR" ∨ containsText t "VAPOUR" ∨
        containsText t "VAPOR" then .PIC_VAPOUR
    else if containsText t "PRESSURE_LIQUID" ∨ t = "PRESSURE_LIQUID_FAST" ∨ t = "PIC_LIQUID" then
      .PIC
    else if containsText t "FLOW" ∨ t = "FIC" ∨ t = "F" ∨ t = "FLOW_FAST_SELF_REG" then .FIC
    else if containsText t "PRESSURE" ∨ t = "PIC" ∨ t = "P" then .PIC
    else if containsText t "LEVEL" ∨ t = "LIC" ∨ t = "L" ∨ t = "LEVEL_INTEGRATING" then .LIC
    else if containsText t "TEMP" ∨ t = "TIC" ∨ t = "T" ∨ t = "TEMP_SLOW_SELF_REG" then .TIC
    else (LoopClass.valueOf? t).getD .UNKNOWN

/-- `inferFromTag`: the class a tag suggests.  The first letter of a blank tag is out of bounds. -/
def inferFromTag (loopId : Option String) : Except Thrown LoopClass :=
  match loopId.filter (· ≠ "") with
  | none => .ok .UNKNOWN
  | some loopId =>
      let s := toUpperRoot (javaTrim loopId)
      if containsText s "PIC_GAS" ∨ containsText s "PRESSURE_GAS" ∨ startsWith s "PIG" then
        .ok .PIC_GAS
      else if containsText s "PIC_VAP" ∨ containsText s "PRESSURE_VAP" ∨ containsText s "VAPOUR" ∨
          containsText s "VAPOR" then .ok .PIC_VAPOUR
      else
        match s.toList.head? with
        | none => .error (.other "StringIndexOutOfBoundsException")
        | some first =>
            if startsWith s "FIC" ∨ startsWith s "FC" ∨ first = 'F' then .ok .FIC
            else if startsWith s "PIC" ∨ startsWith s "PC" ∨ first = 'P' then .ok .PIC
            else if startsWith s "LIC" ∨ startsWith s "LC" ∨ first = 'L' then .ok .LIC
            else if startsWith s "TIC" ∨ startsWith s "TC" ∨ startsWith s "SYN_TIC" ∨
                first = 'T' then .ok .TIC
            else if containsText s "FIC" then .ok .FIC
            else if containsText s "PIC" then .ok .PIC
            else if containsText s "LIC" then .ok .LIC
            else if containsText s "TIC" then .ok .TIC
            else .ok .UNKNOWN

inductive ProfileSource where
  | OVERRIDE | LOOP_TYPE | INFERRED | UNKNOWN
  deriving DecidableEq

inductive ServiceObjective where
  | TIGHT | AVERAGING | CONSTRAINT | QUALITY
  deriving DecidableEq

/-- `ServiceObjective.valueOf`. -/
def ServiceObjective.valueOf? (s : String) : Option ServiceObjective :=
  match s with
  | "TIGHT" => some TIGHT
  | "AVERAGING" => some AVERAGING
  | "CONSTRAINT" => some CONSTRAINT
  | "QUALITY" => some QUALITY
  | _ => none

/-- `DynamicClass.parse`: anything outside the vocabulary is unknown. -/
def parseDynamicClass (s : String) : DynamicClass :=
  match toUpperRoot (javaTrim s) with
  | "FAST_SELF_REG" => .fastSelfReg
  | "SLOW_SELF_REG" => .slowSelfReg
  | "INTEGRATING" => .integrating
  | "NEAR_INTEGRATING" => .nearIntegrating
  | "INTEGRATING_LAG" => .integratingLag
  | "UNDERDAMPED" => .underdamped
  | _ => .unknown

/-- `DynamicClass.integrating`. -/
def isIntegrating : DynamicClass → Bool
  | .integrating | .nearIntegrating | .integratingLag => true
  | _ => false

/-- A profile: the fields that the registry attributes write, and the rest of it. -/
structure LoopDynamicsProfile (π : Type) where
  loopClass : LoopClass
  profileSource : ProfileSource
  dynamicsProfileVersion : String
  calculationVersion : String
  dynamicClass : DynamicClass
  serviceObjective : ServiceObjective
  integrating : Bool
  classificationSource : String
  topology : String
  commandPath : String
  acquisitionMode : String
  acquisitionGridS : F64
  opEngMin : F64
  opEngMax : F64
  pvEngMin : F64
  pvEngMax : F64
  pvRangeDeclared : Bool
  opRangeDeclared : Bool
  rest : π
  deriving DecidableEq

/-!
# Registry: the resolution of a loop's profile

`CplmDynamicsParameterSetSupport`: the override of the asset or the loop, the class pack of the
attributes or of the build, then the versions, the engineering range and the loop model, all read
through a lookup.  How a document is parsed and what the build's class packs hold are parameters:
any reader of documents and any packs.
-/

open OpenBridge.GateConfig (LoopRef)
open CplmMetadataEnvelope (text)

abbrev Lookup := String → Option String

def Lookup.none : Lookup := fun _ => Option.none

/-- The reader of JSON texts, the class packs of the build, and the reader of a profile document on
top of them. -/
structure ProfileDocuments (π : Type) where
  readTree : String → Except String JsonNode
  pack : LoopClass → LoopDynamicsProfile π
  parse : String → ProfileSource → Except Thrown (LoopDynamicsProfile π)

namespace CplmDynamicsParameterSetSupport

def attrOverride : String := "cplm.dynamics.override"
def attrEngineering : String := "cplm.loop.engineering"
def attrLoopModel : String := "cplm.loop.model"
def attrProfileVersion : String := "cplm.dynamicsProfileVersion"
def attrCalcVersion : String := "cplm.calculationVersion"
def attrClassPrefix : String := "cplm.dynamics.class."

def loopAttribute (lookup : Lookup) (loopId attr : String) : Option String :=
  (lookup (scopedKey loopId attr)).or (lookup (scopedKey attr loopId))

/-- `asDouble(default)`, of a default that may be NaN. -/
def asDouble (n : JsonNode) (default : F64) : F64 :=
  match n with
  | some (.number v) => some v.toDouble
  | some (.text s) => (parseDouble s).getD default
  | some (.bool b) => F64.ofInt (if b then 1 else 0)
  | _ => default

variable {π : Type} (D : ProfileDocuments π)

def readDocument (json : String) : Except String JsonNode := do
  let n ← D.readTree json
  match n with
  | some (.text s) => D.readTree s
  | n => .ok n

def forClass (cls : LoopClass) : LoopDynamicsProfile π := { D.pack cls with loopClass := cls }

/-- `CplmLoopDynamicsProfile.resolve`: the override, or the build's pack of the class that the type
names or the tag suggests. -/
def resolveFromPack (loopId loopType : Option String) (override : Option (LoopDynamicsProfile π)) :
    Except Thrown (LoopDynamicsProfile π) :=
  match override with
  | some p => .ok { p with profileSource := .OVERRIDE }
  | none =>
      match (parseClass loopType).filter (· ≠ .UNKNOWN) with
      | some fromType => .ok { forClass D fromType with profileSource := .LOOP_TYPE }
      | none => do
          let inferred ← inferFromTag loopId
          if inferred ≠ .UNKNOWN then
            .ok { forClass D inferred with profileSource := .INFERRED }
          else .ok { forClass D .UNKNOWN with profileSource := .UNKNOWN }

def stampVersions (p : LoopDynamicsProfile π) (lookup : Lookup) : LoopDynamicsProfile π :=
  let unquoted (s : String) := String.ofList (s.toList.filter (· ≠ '"'))
  let dyn := (lookup attrProfileVersion).filter (· ≠ "")
  let calcVersion := (lookup attrCalcVersion).filter (· ≠ "")
  { p with
    dynamicsProfileVersion := (dyn.map unquoted).getD p.dynamicsProfileVersion
    calculationVersion := (calcVersion.map unquoted).getD p.calculationVersion }

def withEngineering (p : LoopDynamicsProfile π) (n : JsonNode) : LoopDynamicsProfile π :=
  let has (field : String) := (n.path field).isSome
  let opEngMin := if has "opEngMin" then asDouble (n.path "opEngMin") p.opEngMin else p.opEngMin
  let opEngMax := if has "opEngMax" then asDouble (n.path "opEngMax") p.opEngMax else p.opEngMax
  let pvEngMin := if has "pvEngMin" then asDouble (n.path "pvEngMin") p.pvEngMin else p.pvEngMin
  let pvEngMax := if has "pvEngMax" then asDouble (n.path "pvEngMax") p.pvEngMax else p.pvEngMax
  let declared (lo hi : F64) := F64.lt (F64.ofRat (1 / 10 ^ 12)) (F64.sub hi lo)
  { p with
    opEngMin := opEngMin
    opEngMax := opEngMax
    pvEngMin := pvEngMin
    pvEngMax := pvEngMax
    pvRangeDeclared := p.pvRangeDeclared ||
      (has "pvEngMin" && has "pvEngMax" && declared pvEngMin pvEngMax)
    opRangeDeclared := p.opRangeDeclared ||
      (has "opEngMin" && has "opEngMax" && declared opEngMin opEngMax) }

/-- A document of a loop's attribute on a profile; one that does not parse changes nothing. -/
def applyDocument (attr : String) (update : LoopDynamicsProfile π → JsonNode → LoopDynamicsProfile π)
    (p : LoopDynamicsProfile π) (loopId : Option String) (lookup : Lookup) :
    LoopDynamicsProfile π :=
  match (loopId.filter (· ≠ "")).bind fun loopId => loopAttribute lookup loopId attr with
  | none => p
  | some json =>
      match readDocument D json with
      | .error _ => p
      | .ok n => update p n

def applyEngineering (p : LoopDynamicsProfile π) (loopId : Option String) (lookup : Lookup) :
    LoopDynamicsProfile π :=
  applyDocument D attrEngineering withEngineering p loopId lookup

/-- The dimensions of a loop model document on a profile: the dynamic class and the objective only of
an explicit model. -/
def withLoopModel (p : LoopDynamicsProfile π) (n : JsonNode) : LoopDynamicsProfile π :=
  let acq := n.path "acquisition"
  let grid := acq.path "grid_seconds"
  let q : LoopDynamicsProfile π := { p with
    classificationSource := (n.path "classification_source").asText p.classificationSource
    topology := (n.path "topology").asText p.topology
    commandPath := (n.path "command_path").asText p.commandPath
    acquisitionMode :=
      if acq.isObject then (acq.path "mode").asText p.acquisitionMode else p.acquisitionMode
    acquisitionGridS :=
      if acq.isObject then if grid.any Json.isNumber then asDouble grid (F64.ofInt 0) else F64.ofInt 0
      else p.acquisitionGridS }
  if q.classificationSource ≠ "EXPLICIT" then q
  else
    let dc := (n.path "dynamic_class").nullableText.map parseDynamicClass
    let objective := (n.path "objective_type").nullableText.bind fun s =>
      ServiceObjective.valueOf? (toUpperRoot s)
    { q with
      dynamicClass := (dc.filter (· ≠ .unknown)).getD q.dynamicClass
      integrating := ((dc.filter (· ≠ .unknown)).map isIntegrating).getD q.integrating
      serviceObjective := objective.getD q.serviceObjective }

def applyLoopModel (p : LoopDynamicsProfile π) (loopId : Option String) (lookup : Lookup) :
    LoopDynamicsProfile π :=
  applyDocument D attrLoopModel withLoopModel p loopId lookup

def finish (p : LoopDynamicsProfile π) (loopId : Option String) (lookup : Lookup) :
    LoopDynamicsProfile π :=
  applyLoopModel D (applyEngineering D (stampVersions p lookup) loopId lookup) loopId lookup

def parseOverride (doc : Option String) : Except Thrown (Option (LoopDynamicsProfile π)) :=
  match doc with
  | none => .ok none
  | some o => (D.parse o .OVERRIDE).map some

def overrideOf (loopId assetUuid : Option String) (lookup : Lookup) :
    Except Thrown (Option (LoopDynamicsProfile π)) := do
  let ofAsset ← parseOverride D
    ((assetUuid.filter (· ≠ "")).bind fun asset => lookup (scopedKey asset attrOverride))
  match ofAsset with
  | some p => .ok (some p)
  | none => parseOverride D (loopId.bind fun loopId => loopAttribute lookup loopId attrOverride)

def classOf (loopId loopType : Option String) : Except Thrown LoopClass :=
  match (parseClass loopType).filter (· ≠ .UNKNOWN) with
  | some cls => .ok cls
  | none => inferFromTag loopId

def resolve (ref : LoopRef) (lookup : Lookup) : Except Thrown (LoopDynamicsProfile π) := do
  let override ← overrideOf D ref.loopId ref.assetUuid lookup
  let cls ← classOf ref.loopId ref.loopType
  match lookup (attrClassPrefix ++ cls.name) with
  | some classJson => do
      let fromAttributes ← D.parse classJson .LOOP_TYPE
      match override with
      | some p => .ok (finish D { p with profileSource := .OVERRIDE } ref.loopId lookup)
      | none => .ok (finish D { fromAttributes with loopClass := cls } ref.loopId lookup)
  | none => do
      let fallback ← resolveFromPack D ref.loopId ref.loopType override
      .ok (finish D fallback ref.loopId lookup)

/-- `resolveDefault`: the class pack of the build. -/
def resolveDefault (ref : LoopRef) : Except Thrown (LoopDynamicsProfile π) :=
  resolve D ref Lookup.none

/-! ## What a resolution reads -/

def loopKeys (loopId attr : String) : List String := [scopedKey loopId attr, scopedKey attr loopId]

def keys (ref : LoopRef) : List String :=
  ((ref.assetUuid.filter (· ≠ "")).map fun asset => scopedKey asset attrOverride).toList ++
    (ref.loopId.elim [] fun loopId => loopKeys loopId attrOverride ++
      loopKeys loopId attrEngineering ++ loopKeys loopId attrLoopModel) ++
    (classOf ref.loopId ref.loopType).toOption.elim [] (fun cls => [attrClassPrefix ++ cls.name]) ++
    [attrProfileVersion, attrCalcVersion]

variable {D} {ref : LoopRef} {lookup lookup' : Lookup}

theorem loopAttribute_congr {loopId attr : String}
    (h : ∀ k ∈ loopKeys loopId attr, lookup k = lookup' k) :
    loopAttribute lookup loopId attr = loopAttribute lookup' loopId attr := by
  unfold loopAttribute
  rw [h _ (List.mem_cons_self), h _ (List.mem_cons_of_mem _ List.mem_cons_self)]

theorem bind_loopAttribute_congr {loopId : Option String} {attr : String}
    (h : ∀ l ∈ loopId, ∀ k ∈ loopKeys l attr, lookup k = lookup' k) :
    (loopId.bind fun l => loopAttribute lookup l attr) =
      loopId.bind fun l => loopAttribute lookup' l attr := by
  cases loopId with
  | none => rfl
  | some l => exact loopAttribute_congr (h l rfl)

theorem applyDocument_congr {attr : String}
    (update : LoopDynamicsProfile π → JsonNode → LoopDynamicsProfile π)
    (p : LoopDynamicsProfile π) {loopId : Option String}
    (h : ∀ l ∈ loopId, ∀ k ∈ loopKeys l attr, lookup k = lookup' k) :
    applyDocument D attr update p loopId lookup = applyDocument D attr update p loopId lookup' := by
  unfold applyDocument
  rw [bind_loopAttribute_congr fun l hl => h l (Option.mem_filter_iff.mp hl).1]

theorem mem_keys_of_loop {l k : String} (hl : l ∈ ref.loopId)
    (hk : k ∈ loopKeys l attrOverride ++ loopKeys l attrEngineering ++ loopKeys l attrLoopModel) :
    k ∈ keys ref := by
  unfold keys
  rw [Option.mem_def.mp hl]
  exact List.mem_append_left _ (List.mem_append_left _ (List.mem_append_right _ hk))

theorem finish_congr (p : LoopDynamicsProfile π) (h : ∀ k ∈ keys ref, lookup k = lookup' k) :
    finish D p ref.loopId lookup = finish D p ref.loopId lookup' := by
  have hversions : stampVersions p lookup = stampVersions p lookup' := by
    unfold stampVersions
    rw [h attrProfileVersion (List.mem_append_right _ List.mem_cons_self),
      h attrCalcVersion (List.mem_append_right _ (List.mem_cons_of_mem _ List.mem_cons_self))]
  unfold finish
  unfold applyLoopModel applyEngineering
  rw [hversions, applyDocument_congr withEngineering _ fun l hl k hk => h k (mem_keys_of_loop hl
      (List.mem_append_left _ (List.mem_append_right _ hk))),
    applyDocument_congr withLoopModel _ fun l hl k hk => h k (mem_keys_of_loop hl
      (List.mem_append_right _ hk))]

theorem overrideOf_congr (h : ∀ k ∈ keys ref, lookup k = lookup' k) :
    overrideOf D ref.loopId ref.assetUuid lookup = overrideOf D ref.loopId ref.assetUuid lookup' := by
  have hasset : (ref.assetUuid.filter (· ≠ "")).bind
        (fun asset => lookup (scopedKey asset attrOverride)) =
      (ref.assetUuid.filter (· ≠ "")).bind fun asset => lookup' (scopedKey asset attrOverride) := by
    cases ha : ref.assetUuid.filter (· ≠ "") with
    | none => rfl
    | some asset =>
      refine h _ ?_
      unfold keys
      rw [ha]
      exact List.mem_append_left _ (List.mem_append_left _ (List.mem_append_left _
        List.mem_cons_self))
  have hloop := bind_loopAttribute_congr fun l hl k hk => h k (mem_keys_of_loop hl
    (List.mem_append_left _ (List.mem_append_left _ hk)))
  unfold overrideOf
  rw [hasset, hloop]

theorem resolve_congr (h : ∀ k ∈ keys ref, lookup k = lookup' k) :
    resolve D ref lookup = resolve D ref lookup' := by
  unfold resolve
  rw [overrideOf_congr h]
  cases hc : classOf ref.loopId ref.loopType with
  | error e => rfl
  | ok cls =>
    have hclass : lookup (attrClassPrefix ++ cls.name) = lookup' (attrClassPrefix ++ cls.name) := by
      refine h _ ?_
      unfold keys
      rw [hc]
      exact List.mem_append_left _ (List.mem_append_right _ List.mem_cons_self)
    simp only [bind, Except.bind, hclass, finish_congr _ h]

end CplmDynamicsParameterSetSupport

end OpenBridge.Registry
