import OpenBridge.Foundation.Guid
import OpenBridge.Foundation.Machine
import OpenBridge.Foundation.RecordJson

/-!
# Registry: loop model dimensions

`LoopModelDimensions`: the preset that a loop type suggests, and the rule that resolves a declared
model against a stored one.
-/

namespace OpenBridge.Registry

open OpenBridge.Foundation

structure CpmAcquisition where
  mode : String
  gridSeconds : Option ℤ
  sourceFilterS : Option Double
  timestampQuantizationMs : Option ℤ
  declaredScanS : Option Double
  deriving DecidableEq

namespace CpmAcquisition

def default : CpmAcquisition := ⟨"PERIODIC", none, none, none, none⟩

end CpmAcquisition

def isNullOrWhiteSpace (s : Option String) : Bool := s.all fun t => t.toList.all isWhiteSpace

structure CpmLoopModel where
  serviceFamily : Option String := none
  dynamicClass : Option String := none
  objectiveType : Option String := none
  topology : Option String := none
  commandPath : Option String := none
  acquisition : Option CpmAcquisition := none
  deriving DecidableEq

namespace CpmLoopModel

def isEmpty (m : CpmLoopModel) : Bool :=
  isNullOrWhiteSpace m.serviceFamily ∧ isNullOrWhiteSpace m.dynamicClass ∧
    isNullOrWhiteSpace m.objectiveType ∧ isNullOrWhiteSpace m.topology ∧
    isNullOrWhiteSpace m.commandPath ∧ m.acquisition = none

end CpmLoopModel

/-- `classification_source`, by its `CHECK`. -/
inductive ClassificationSource where
  | presetFromLoopType
  | explicit
  deriving DecidableEq

namespace LoopModelDimensions

structure Resolved where
  serviceFamily : Option String
  dynamicClass : Option String
  objectiveType : String
  topology : String
  commandPath : String
  acquisition : CpmAcquisition
  classificationSource : ClassificationSource
  deriving DecidableEq

namespace Contract

def serviceFamilies : List String :=
  ["FLOW", "PRESSURE_LIQUID", "PRESSURE_GAS", "PRESSURE_VAPOUR", "LEVEL", "TEMPERATURE",
    "COMPOSITION_ANALYZER", "PH_CONDUCTIVITY", "SPEED_POSITION_POWER", "CASCADE",
    "SPLIT_RANGE_OVERRIDE_RATIO", "UNKNOWN_UNSTABLE_INVERSE_MIMO"]

def dynamicClasses : List String :=
  ["FAST_SELF_REG", "SLOW_SELF_REG", "INTEGRATING", "INTEGRATING_LAG", "UNDERDAMPED", "UNKNOWN"]

def objectiveTypes : List String :=
  ["TIGHT", "AVERAGING", "RATIO", "CONSTRAINT", "RAMP", "BATCH", "QUALITY", "SUPERVISORY", "UNSET"]

def topologies : List String :=
  ["SINGLE", "CASCADE_MASTER", "CASCADE_SLAVE", "SPLIT_RANGE", "OVERRIDE", "RATIO", "FEEDFORWARD",
    "UNKNOWN"]

def commandPaths : List String := ["OP_TO_VALVE", "OP_TO_VFD", "OP_TO_SLAVE_SP", "UNKNOWN"]

def acquisitionModes : List String := ["PERIODIC", "RBE", "SAMPLE_HOLD"]

end Contract

def presetFor (loopType : String) : Resolved :=
  let (family, dyn, objective, path) :=
    match toUpperInvariant loopType with
    | "FIC" => ("FLOW", "FAST_SELF_REG", "TIGHT", "OP_TO_VALVE")
    | "PIC" => ("PRESSURE_LIQUID", "FAST_SELF_REG", "TIGHT", "OP_TO_VALVE")
    | "PIC_GAS" => ("PRESSURE_GAS", "INTEGRATING", "AVERAGING", "OP_TO_VALVE")
    | "PIC_VAPOUR" => ("PRESSURE_VAPOUR", "SLOW_SELF_REG", "TIGHT", "OP_TO_VALVE")
    | "LIC" => ("LEVEL", "INTEGRATING", "AVERAGING", "OP_TO_VALVE")
    | "TIC" => ("TEMPERATURE", "SLOW_SELF_REG", "TIGHT", "OP_TO_VALVE")
    | _ => ("UNKNOWN_UNSTABLE_INVERSE_MIMO", "UNKNOWN", "UNSET", "UNKNOWN")
  { serviceFamily := some family, dynamicClass := some dyn, objectiveType := objective,
    topology := "SINGLE", commandPath := path, acquisition := CpmAcquisition.default,
    classificationSource := .presetFromLoopType }

/-- `Pick`, of a field that may be absent. -/
def pickOptional (requested fallback : Option String) : Option String :=
  if isNullOrWhiteSpace requested then fallback
  else requested.map fun s => toUpperInvariant (trim s)

def pick (requested : Option String) (fallback : String) : String :=
  if isNullOrWhiteSpace requested then fallback else toUpperInvariant (trim (requested.getD ""))

def baseline (loopType : String) (stored : Option Resolved) : Resolved :=
  match stored with
  | some d => if d.classificationSource = .explicit then d else presetFor loopType
  | none => presetFor loopType

def resolve (loopType : String) (request : Option CpmLoopModel) (stored : Option Resolved) :
    Resolved :=
  let base := baseline loopType stored
  match request with
  | none => base
  | some m =>
      if m.isEmpty then base
      else
        { serviceFamily := pickOptional m.serviceFamily base.serviceFamily
          dynamicClass := pickOptional m.dynamicClass base.dynamicClass
          objectiveType := pick m.objectiveType base.objectiveType
          topology := pick m.topology base.topology
          commandPath := pick m.commandPath base.commandPath
          acquisition := m.acquisition.getD base.acquisition
          classificationSource := .explicit }

def check (field : String) (value : Option String) (allowed : List String) : List String :=
  if isNullOrWhiteSpace value then []
  else if toUpperInvariant (trim (value.getD "")) ∈ allowed then []
  else [field ++ " '" ++ value.getD "" ++ "' is not one of " ++ ", ".intercalate allowed]

def checkAcquisition (a : CpmAcquisition) : List String :=
  let when (b : Bool) (message : String) : List String := if b then [message] else []
  when (toUpperInvariant a.mode ∉ Contract.acquisitionModes)
      ("acquisition.mode '" ++ a.mode ++ "' is not one of " ++
        ", ".intercalate Contract.acquisitionModes) ++
    when (a.gridSeconds.any fun n => n ≤ 0 ∨ 86400 < n)
      "acquisition.grid_seconds must be in (0, 86400]" ++
    when (a.sourceFilterS.any fun x => x.lt (.finite 0)) "acquisition.source_filter_s must be >= 0" ++
    when (a.timestampQuantizationMs.any fun n => n < 0)
      "acquisition.timestamp_quantization_ms must be >= 0" ++
    when (a.declaredScanS.any fun x => ¬ Double.lt (.finite 0) x)
      "acquisition.declared_scan_s must be > 0"

/-- `Validate`: one message for each field. -/
def validate : Option CpmLoopModel → List String
  | none => []
  | some m =>
      check "serviceFamily" m.serviceFamily Contract.serviceFamilies ++
        check "dynamicClass" m.dynamicClass Contract.dynamicClasses ++
        check "objectiveType" m.objectiveType Contract.objectiveTypes ++
        check "topology" m.topology Contract.topologies ++
        check "commandPath" m.commandPath Contract.commandPaths ++
        (m.acquisition.map checkAcquisition).getD []

/-- A double as JSON: the serializer throws (`none`) on an infinity. -/
def doubleJson : Double → Option Json
  | .finite q => some (.number (.decimal (Double.literal q)))
  | .infinite _ => none

/-- `AcquisitionJson`: members without a value are left out. -/
def acquisitionJson (a : CpmAcquisition) : Option Json := do
  let sourceFilterS ← a.sourceFilterS.mapM doubleJson
  let declaredScanS ← a.declaredScanS.mapM doubleJson
  some (.object (("mode", .text a.mode) :: Json.optionals
    [("grid_seconds", a.gridSeconds.map fun n => .number (.integral n)),
      ("source_filter_s", sourceFilterS),
      ("timestamp_quantization_ms", a.timestampQuantizationMs.map fun n => .number (.integral n)),
      ("declared_scan_s", declaredScanS)]))

/-- `(int)`, of a double. -/
def castInt : Double → ℤ
  | .finite q => max (-2 ^ 31) (min (2 ^ 31 - 1) (if q < 0 then -⌊-q⌋ else ⌊q⌋))
  | .infinite negative => if negative then -2 ^ 31 else 2 ^ 31 - 1

def num (r : Json) (name : String) : Option Double :=
  match r.get name with
  | some (.number n) => some n.toDouble
  | _ => none

def readAcquisition (json : Json) : CpmAcquisition :=
  if json.isObject then
    { mode :=
        match json.get "mode" with
        | some (.text s) => s
        | _ => "PERIODIC"
      gridSeconds := (num json "grid_seconds").map castInt
      sourceFilterS := num json "source_filter_s"
      timestampQuantizationMs := (num json "timestamp_quantization_ms").map castInt
      declaredScanS := num json "declared_scan_s" }
  else CpmAcquisition.default

end LoopModelDimensions

/-!
# Registry: onboarding a loop

`CpmLoopRegistryService.ActivateAsync`: the checks of a request, the check of its location, the two
collision checks against the stored ids, and the rows it leaves in `cpm.loop_registry` and
`cpm.loop_tag_map`.  The columns that hold a time are left out.
-/

structure CpmTagMapEntry where
  signalRole : String
  unsPath : String
  sourceSystem : Option String := none
  sourceTag : Option String := none
  deriving DecidableEq

structure CpmEngineeringRange where
  opMin : Option Double := none
  opMax : Option Double := none
  pvMin : Option Double := none
  pvMax : Option Double := none
  pvUnit : Option String := none
  vpApplicability : Option String := none
  peerApplicability : Option String := none
  deriving DecidableEq

structure CpmLoopActivateRequest where
  loopId : String
  displayName : String
  site : String
  loopType : String
  area : Option String := none
  unit : Option String := none
  criticality : Option String := none
  assetId : Option Guid := none
  tags : List CpmTagMapEntry := []
  thresholdProfileId : Option String := none
  enableMonitoring : Bool := true
  stepTestApproved : Bool := false
  engineering : Option CpmEngineeringRange := none
  model : Option CpmLoopModel := none
  allowUnmodelledLocation : Bool := false
  deriving DecidableEq

structure ModelColumns where
  serviceFamily : Option String
  dynamicClass : Option String
  objectiveType : String
  topology : String
  commandPath : String
  acquisition : Json
  classificationSource : ClassificationSource

/-- A row of `cpm.loop_registry`. -/
structure RegistryRow where
  loopId : String
  assetId : Option Guid
  displayName : String
  site : String
  area : Option String
  unit : Option String
  loopType : String
  criticality : String
  isActive : Bool
  monitoring : Json
  tags : Json
  engineering : Json
  thresholdProfileId : Option String
  model : ModelColumns

/-- A row of `cpm.loop_tag_map`. -/
structure TagRow where
  loopId : String
  signalRole : String
  unsPath : String
  sourceSystem : Option String
  sourceTag : Option String
  deriving DecidableEq

structure Tables where
  registry : List RegistryRow
  tagMap : List TagRow

/-- What the runtime, the database and the asset model give: the invariant lower case of a text,
`lower`, the classes of characters, the message of a failed write, and the type of the node at a path
(`none` where the asset model does not answer). -/
structure Platform where
  toLowerInvariant : String → String
  lower : String → String
  isLetterOrDigit : Char → Bool
  isDigit : Char → Bool
  isLetter : Char → Bool
  isNumber : Char → Bool
  writeError : CpmLoopActivateRequest → String
  assets : Option (String → Option ℤ)

/-! ## Values of the database -/

namespace Jsonb

mutual

/-- `jsonb_strip_nulls`. -/
def stripNulls : Json → Json
  | .object members => .object (stripMembers members)
  | .array items => .array (stripItems items)
  | j => j

def stripMembers : List (String × Json) → List (String × Json)
  | [] => []
  | (_, .null) :: rest => stripMembers rest
  | (k, j) :: rest => (k, stripNulls j) :: stripMembers rest

def stripItems : List Json → List Json
  | [] => []
  | j :: rest => stripNulls j :: stripItems rest

end

def concat : Json → Json → Json
  | .object xs, .object ys =>
      .object (ys.foldl (fun d m => d.set m.1 m.2) (Json.readFields xs)).entries
  | .array xs, .array ys => .array (xs ++ ys)
  | .array xs, y => .array (xs ++ [y])
  | x, .array ys => .array (x :: ys)
  | x, y => .array [x, y]

def empty : Json := .object []

def isEmpty : Json → Bool
  | .object [] => true
  | _ => false

end Jsonb

/-- A text in a column of a bounded length: only spaces are cut off, and the character zero is refused. -/
def varchar (n : ℕ) (s : String) : Option String :=
  if Char.ofNat 0 ∈ s.toList then none
  else if s.length ≤ n then some s
  else if (s.toList.drop n).all fun c => c = ' ' then some (String.ofList (s.toList.take n))
  else none

namespace ModelColumns

/-- The `CHECK`s on the model. -/
def fits (m : ModelColumns) : Bool :=
  m.serviceFamily.all (fun s => s ∈ LoopModelDimensions.Contract.serviceFamilies) ∧
    m.dynamicClass.all (fun s => s ∈ LoopModelDimensions.Contract.dynamicClasses) ∧
    m.objectiveType ∈ LoopModelDimensions.Contract.objectiveTypes ∧
    m.topology ∈ LoopModelDimensions.Contract.topologies ∧
    m.commandPath ∈ LoopModelDimensions.Contract.commandPaths

def fromRow (m : ModelColumns) : LoopModelDimensions.Resolved :=
  { serviceFamily := m.serviceFamily, dynamicClass := m.dynamicClass,
    objectiveType := m.objectiveType, topology := m.topology, commandPath := m.commandPath,
    acquisition := LoopModelDimensions.readAcquisition m.acquisition,
    classificationSource := m.classificationSource }

def ofResolved (d : LoopModelDimensions.Resolved) : Option ModelColumns :=
  (LoopModelDimensions.acquisitionJson d.acquisition).map fun acquisition =>
    { serviceFamily := d.serviceFamily, dynamicClass := d.dynamicClass,
      objectiveType := d.objectiveType, topology := d.topology, commandPath := d.commandPath,
      acquisition := acquisition, classificationSource := d.classificationSource }

end ModelColumns

namespace CpmLoopRegistryService

/-! ## The checks of a request -/

def requiredRoles : List String := ["PV", "SP", "OP", "MODE"]

def optionalRoles : List String := ["VP", "STATUS", "QUALITY", "UPSTREAM", "UTILITY"]

def validCriticalities : List String := ["low", "medium", "high", "critical"]

def validLoopTypes : List String := ["FIC", "PIC", "PIC_GAS", "PIC_VAPOUR", "LIC", "TIC", "UNKNOWN"]

def loopIdForbidden : String := "/\\?#%&;|$\"'<>`\x7b\x7d[]"

def applicabilityValues : List String := ["EXPECTED", "NOT_INSTALLED", "NOT_APPLICABLE"]

def isApplicability (value : Option String) : Bool :=
  value.any fun s => toUpperInvariant (trim s) ∈ applicabilityValues

def maxPvUnitLength : ℕ := 24

def isControl (c : Char) : Bool := c.toNat < 32 ∨ (127 ≤ c.toNat ∧ c.toNat ≤ 159)

/-- Throws an `ArgumentException`. -/
def refuse (b : Bool) (message : String) : Except String Unit :=
  if b then .error message else .ok ()

variable (p : Platform)

/-- `PvUnitPattern`. -/
def isPvUnit (s : String) : Bool :=
  1 ≤ s.length ∧ s.length ≤ maxPvUnitLength ∧ s.toList.all fun c =>
    c.toNat < 0x10000 ∧ (p.isLetter c ∨ p.isNumber c ∨ c ∈ " °%/.-·²³µ()^*".toList)

def rolesOf (r : CpmLoopActivateRequest) : List String :=
  (r.tags.map fun t => toUpperInvariant t.signalRole).eraseDups

def checkApplicability (name : String) (value : Option String) : Except String Unit :=
  refuse (¬ isNullOrWhiteSpace value ∧ ¬ isApplicability value)
    ("engineering." ++ name ++ " '" ++ trim (value.getD "") ++ "' must be one of " ++
      ", ".intercalate applicabilityValues)

def validate (r : CpmLoopActivateRequest) : Except String Unit := do
  let modelErrors := LoopModelDimensions.validate r.model
  refuse (modelErrors ≠ []) ("model: " ++ "; ".intercalate modelErrors)
  refuse (isNullOrWhiteSpace r.loopId) "loopId is required"
  refuse (64 < utf16Length r.loopId) ("loopId '" ++ r.loopId ++ "' is longer than 64 characters")
  refuse (r.loopId.toList.any isWhiteSpace ∨ r.loopId.toList.any isControl)
    ("loopId '" ++ r.loopId ++ "' must not contain spaces or control characters")
  refuse (r.loopId.toList.any fun c => c ∈ loopIdForbidden.toList)
    ("loopId '" ++ r.loopId ++ "' must not contain any of: " ++ loopIdForbidden ++
      " (it is used as a URL path segment and a job argument)")
  refuse (¬ isNullOrWhiteSpace r.criticality ∧
      toLowerInvariant (r.criticality.getD "") ∉ validCriticalities)
    ("criticality must be one of: " ++ ", ".intercalate validCriticalities ++ " (lowercase)")
  refuse (isNullOrWhiteSpace r.site)
    "site is required (single-site today, but the discriminator is not retrofittable)"
  refuse (toUpperInvariant r.loopType ∉ validLoopTypes)
    ("loopType must be one of: " ++ ", ".intercalate validLoopTypes)
  let roles := rolesOf r
  let missing := requiredRoles.filter fun role => role ∉ roles
  refuse (r.enableMonitoring ∧ missing ≠ [])
    ("Monitoring requires signal roles: " ++ ", ".intercalate missing)
  let unknown := roles.filter fun role => role ∉ requiredRoles ∧ role ∉ optionalRoles
  refuse (unknown ≠ []) ("Unknown signal role(s): " ++ ", ".intercalate unknown)
  let pvUnit := r.engineering.bind CpmEngineeringRange.pvUnit
  refuse (¬ isNullOrWhiteSpace pvUnit ∧ ¬ isPvUnit p (trim (pvUnit.getD "")))
    ("engineering.pvUnit '" ++ trim (pvUnit.getD "") ++ "' is not a unit: use letters, digits, " ++
      "spaces and ° % / . - · ² ³ µ ( ) ^ *, at most " ++ toString maxPvUnitLength ++ " characters")
  checkApplicability "vpApplicability" (r.engineering.bind CpmEngineeringRange.vpApplicability)
  checkApplicability "peerApplicability" (r.engineering.bind CpmEngineeringRange.peerApplicability)

/-- The error of a location, where the asset model answers. -/
def locationError (node : String → Option ℤ) (r : CpmLoopActivateRequest) : Option String :=
  let site := trim r.site
  let area := (r.area.map trim).getD ""
  let unit := (r.unit.map trim).getD ""
  let siteError : Option String :=
    match node site with
    | none => some ("Site '" ++ site ++ "' is not in the asset model.")
    | some type =>
        if type ≠ 1 then some ("'" ++ site ++ "' exists in the asset model but is not a Site.")
        else if area = "" then none
        else
          match node (site ++ "/" ++ area) with
          | none => some ("Area '" ++ area ++ "' is not in the asset model under site '" ++ site ++ "'.")
          | some type =>
              if type ≠ 2 then
                some ("'" ++ site ++ "/" ++ area ++ "' exists in the asset model but is not an Area.")
              else none
  let unitPath := if area = "" then site ++ "/" ++ unit else site ++ "/" ++ area ++ "/" ++ unit
  match siteError with
  | some err => some err
  | none =>
      if unit = "" then none
      else
        match node unitPath with
        | none => some ("Unit '" ++ unit ++ "' is not in the asset model at '" ++ unitPath ++ "'.")
        | some type =>
            if type ≠ 3 then
              some ("'" ++ unitPath ++ "' exists in the asset model but is not a Unit.")
            else none

/-- `ValidateLocationsAsync`: one error for each loop id, the last that was found. -/
def validateLocationsAsync (requests : List CpmLoopActivateRequest) : Dict String (Option String) :=
  let result := requests.foldl (fun d r => d.set r.loopId none) Dict.empty
  if requests.all fun r => trim r.site = "" then result
  else
    match p.assets with
    | none => requests.foldl (fun d r => d.set r.loopId
        (some "The location could not be verified against the asset model (asset-model did not answer)."))
        result
    | some node => requests.foldl
        (fun d r => if trim r.site = "" then d else d.set r.loopId (locationError node r)) result

/-- `SafeNode`; a character beyond the first plane counts as two. -/
def safeNode (id : String) : String :=
  if isNullOrWhiteSpace id then "unknown"
  else
    let s := id.toList.flatMap fun ch =>
      if 0x10000 ≤ ch.toNat then ['_', '_']
      else if p.isLetterOrDigit ch then [ch] else ['_']
    String.ofList (if s.head?.any p.isDigit then '_' :: s else s)

/-! ## The rows of a request -/

def hasRange : Option CpmEngineeringRange → Bool
  | none => false
  | some r =>
      r.opMin.isSome ∨ r.opMax.isSome ∨ r.pvMin.isSome ∨ r.pvMax.isSome ∨
        ¬ isNullOrWhiteSpace r.pvUnit ∨ ¬ isNullOrWhiteSpace r.vpApplicability ∨
        ¬ isNullOrWhiteSpace r.peerApplicability

/-- `SerializeRange`: throws (`none`) on an infinity. -/
def serializeRange (r : CpmEngineeringRange) : Option Json := do
  let opMin ← r.opMin.mapM LoopModelDimensions.doubleJson
  let opMax ← r.opMax.mapM LoopModelDimensions.doubleJson
  let pvMin ← r.pvMin.mapM LoopModelDimensions.doubleJson
  let pvMax ← r.pvMax.mapM LoopModelDimensions.doubleJson
  -- a unit that has passed the checks is never cut
  let cut (s : String) : String := String.ofList (s.toList.take maxPvUnitLength)
  let unit := (r.pvUnit.filter fun s => ¬ isNullOrWhiteSpace (some s)).map fun s => Json.text (cut (trim s))
  let applicability (value : Option String) : Option Json :=
    (value.filter fun s => isApplicability (some s)).map fun s => Json.text (toUpperInvariant (trim s))
  some (.object (Json.optionals
    [("opMin", opMin), ("opMax", opMax), ("pvMin", pvMin), ("pvMax", pvMax), ("pvUnit", unit),
      ("vpApplicability", applicability r.vpApplicability),
      ("peerApplicability", applicability r.peerApplicability)]))

def engineeringOf (r : CpmLoopActivateRequest) : Option (Option Json) :=
  if hasRange r.engineering then (r.engineering.bind serializeRange).map some else some none

def monitoringOf (r : CpmLoopActivateRequest) : Json :=
  .object [("enabled", .bool r.enableMonitoring), ("cplmPipeline", .text "cplm-three-stage-system"),
    ("evidence", .object [("stepTestApproved", .bool r.stepTestApproved),
      ("peerLinksConfigured", .bool false)])]

/-- The paths by role: `ToDictionary` throws (`none`) on a role given twice. -/
def tagsOf (r : CpmLoopActivateRequest) : Option Json :=
  if (r.tags.map fun t => toLowerInvariant t.signalRole).Nodup then
    some (.object (r.tags.map fun t => (toLowerInvariant t.signalRole, .text t.unsPath)))
  else none

/-- What a request proposes for its row, apart from the model. -/
structure Proposed where
  loopId : String
  assetId : Option Guid
  displayName : String
  site : String
  area : Option String
  unit : Option String
  loopType : String
  criticality : String
  monitoring : Json
  tags : Json
  engineering : Option Json
  thresholdProfileId : Option String

/-- The columns of a request, where the columns take its values. -/
def proposedOf (r : CpmLoopActivateRequest) : Option Proposed := do
  let tags ← tagsOf r
  let engineering ← engineeringOf r
  let loopId ← varchar 64 r.loopId
  let displayName ← varchar 255 r.displayName
  let site ← varchar 64 r.site
  let area ← r.area.mapM (varchar 64)
  let unit ← r.unit.mapM (varchar 64)
  let thresholdProfileId ← r.thresholdProfileId.mapM (varchar 64)
  let loopType := toUpperInvariant r.loopType
  let criticality := toLowerInvariant (r.criticality.getD "medium")
  if loopType ∈ validLoopTypes ∧ criticality ∈ validCriticalities then
    some
      { loopId := loopId, assetId := r.assetId, displayName := displayName, site := site, area := area,
        unit := unit, loopType := loopType, criticality := criticality, monitoring := monitoringOf r,
        tags := tags, engineering := engineering, thresholdProfileId := thresholdProfileId }
  else none

def tagRowOf (loopId : String) (t : CpmTagMapEntry) : Option TagRow := do
  let signalRole := toUpperInvariant t.signalRole
  let unsPath ← varchar 512 t.unsPath
  let sourceSystem ← t.sourceSystem.mapM (varchar 32)
  let sourceTag ← t.sourceTag.mapM (varchar 128)
  if signalRole ∈ requiredRoles ∨ signalRole ∈ optionalRoles then
    some ⟨loopId, signalRole, unsPath, sourceSystem, sourceTag⟩
  else none

def tagRowsOf (r : CpmLoopActivateRequest) : Option (List TagRow) := r.tags.mapM (tagRowOf r.loopId)

/-- Insert rows `ON CONFLICT DO NOTHING`. -/
def insertTags (tagMap rows : List TagRow) : List TagRow :=
  rows.foldl (fun kept t =>
    if ∃ x ∈ kept, x.loopId = t.loopId ∧ x.signalRole = t.signalRole ∧ x.unsPath = t.unsPath then kept
    else kept ++ [t]) tagMap

abbrev EngineeringRule := Option Json → Json → Json

def coalesce : EngineeringRule := fun incoming stored => incoming.getD stored

def Proposed.insert (c : Proposed) (m : ModelColumns) : RegistryRow :=
  { loopId := c.loopId, assetId := c.assetId, displayName := c.displayName, site := c.site,
    area := c.area, unit := c.unit, loopType := c.loopType, criticality := c.criticality,
    isActive := true, monitoring := c.monitoring, tags := c.tags,
    engineering := c.engineering.getD Jsonb.empty, thresholdProfileId := c.thresholdProfileId,
    model := m }

def Proposed.update (rule : EngineeringRule) (c : Proposed) (m : ModelColumns) (stored : RegistryRow) :
    RegistryRow :=
  { c.insert m with
    loopId := stored.loopId
    monitoring := Jsonb.concat stored.monitoring c.monitoring
    engineering := rule c.engineering stored.engineering }

/-- Insert a row or update the one with its id; `uq_cpm_loop_registry_loop_ci` refuses another id with
the same lower case. -/
def upsert (registry : List RegistryRow) (row : RegistryRow) (update : RegistryRow → RegistryRow) :
    Option (List RegistryRow) :=
  if row.loopId ∈ registry.map RegistryRow.loopId then
    some (registry.map fun x => if x.loopId = row.loopId then update x else x)
  else if ∃ x ∈ registry, p.lower x.loopId = p.lower row.loopId then none
  else some (registry ++ [row])

/-! ## One request -/

inductive Rejection where
  | validation (message : String)
  | location (message : String)
  | caseCollision (existing : String)
  | historianCollision (existing : String)
  | write
  deriving DecidableEq

def locationErrorOf (r : CpmLoopActivateRequest) : Option String :=
  ((validateLocationsAsync p [r]).get? r.loopId).join

def existingCasing (s : Tables) (loopId : String) : Option String :=
  (s.registry.map RegistryRow.loopId).find? fun id => p.lower id = p.lower loopId ∧ id ≠ loopId

def nodeClash (s : Tables) (loopId : String) : Option String :=
  (s.registry.map RegistryRow.loopId).find? fun id =>
    id ≠ loopId ∧ safeNode p id = safeNode p loopId

def write (rule : EngineeringRule) (s : Tables) (r : CpmLoopActivateRequest) : Option Tables := do
  let c ← proposedOf r
  let stored := (s.registry.find? fun x => x.loopId = r.loopId).map fun x => x.model.fromRow
  let m ← ModelColumns.ofResolved (LoopModelDimensions.resolve r.loopType r.model stored)
  let rows ← tagRowsOf r
  if m.fits then
    (upsert p s.registry (c.insert m) (c.update rule m)).map fun registry =>
      { registry := registry
        tagMap := insertTags (s.tagMap.filter fun t => t.loopId ≠ r.loopId) rows }
  else none

/-- `ActivateAsync`, with a rule for the engineering column. -/
def activateBy (rule : EngineeringRule) (s : Tables) (r : CpmLoopActivateRequest) :
    Except Rejection Tables :=
  match validate p r with
  | .error message => .error (.validation message)
  | .ok () =>
      match locationErrorOf p r, r.allowUnmodelledLocation with
      | some err, false => .error (.location (err ++
          " Pass allowUnmodelledLocation=true to onboard anyway — the loop's signals will sit " ++
          "outside the plant tree until the location is modelled in the asset model."))
      | _, _ =>
          match existingCasing p s r.loopId with
          | some id => .error (.caseCollision id)
          | none =>
              match nodeClash p s r.loopId with
              | some id => .error (.historianCollision id)
              | none =>
                  match write p rule s r with
                  | some t => .ok t
                  | none => .error .write

def activateAsync (s : Tables) (r : CpmLoopActivateRequest) : Except Rejection Tables :=
  activateBy p coalesce s r

def activateStep (rule : EngineeringRule) (s : Tables) (r : CpmLoopActivateRequest) :
    Tables × List Bool :=
  match activateBy p rule s r with
  | .ok t => (t, [true])
  | .error _ => (s, [false])

end CpmLoopRegistryService

end OpenBridge.Registry
