import OpenBridge.Foundation.Json
import OpenBridge.Foundation.Machine
import OpenBridge.Ingestion.LoopParameterMapper

/-!
# Ingestion: the loop joiner

`LoopJoiner` keeps, for every loop, the last known value of each role, and on a grid emits one tuple
per loop, stamped with the newest source timestamp among its members.  Timestamps are `long`
milliseconds, modelled as integers.

`fold` is the equivalence of the dictionary's key comparer (`OrdinalIgnoreCase`): the loops are
stored under their folded ids.
-/

namespace OpenBridge.Ingestion

open OpenBridge.Foundation

structure RegistryLoop where
  loopId : String
  assetUuid : Option String
  site : String
  area : Option String
  unit : Option String
  loopType : String
  deriving DecidableEq

structure Member where
  value : Double
  tsMs : ℤ
  good : Bool
  qualityNative : String
  unit : Option String
  quality : NormalizedQuality
  qualityProtocol : String
  deriving DecidableEq

/-- A saved value: the number, its source timestamp and whether it was good. -/
structure SavedMember where
  value : Double
  tsMs : ℤ
  good : Bool
  deriving DecidableEq

/-- What the joiner knows of one loop. -/
structure LoopState where
  loop : RegistryLoop
  sourceFcs : Option String
  members : Dict String Member
  extras : Dict String Member
  mode : Option String
  modeTsMs : ℤ
  modeNative : Option String
  modeQualityNative : String
  modeGood : Bool
  modeQuality : NormalizedQuality
  modeQualityProtocol : String
  /-- The newest source timestamp already published. -/
  lastEmittedTsMs : ℤ
  lastEmittedWallMs : ℤ
  skippedTicks : ℕ
  restored : Bool
  nextTickMs : ℤ

/-- The joiner: its loops in the order they were first heard of, and its counters. -/
structure LoopJoiner where
  loops : Dict String LoopState
  newMemberSeen : Bool
  skippedNoAdvance : ℕ

/-- One role's observation in the tuple's `roles` block. -/
structure RoleObservation where
  value : Option Double
  stringValue : Option String
  sampleTsMs : ℤ
  verifiedTsMs : ℤ
  qualityNative : String
  quality : String
  unit : Option String
  held : Bool
  ageMs : ℤ
  modeNative : Option String
  qualityProtocol : String
  deriving DecidableEq

/-- One merged sample of a loop. -/
structure LoopTuple where
  loopId : String
  eventTsMs : ℤ
  ingestTsMs : ℤ
  pv : Double
  sp : Double
  op : Double
  vp : Option Double
  mode : String
  quality : String
  loopType : String
  site : String
  area : Option String
  unit : Option String
  assetUuid : Option String
  sourceFcs : Option String
  extras : Dict String Double
  roles : Dict String RoleObservation
  bindingRevision : ℤ
  gridSeconds : ℕ

structure LoopStateSnapshot where
  loopId : String
  members : Dict String SavedMember
  extras : Dict String SavedMember
  modeToken : Option String
  modeTsMs : ℤ
  lastEmittedTsMs : ℤ
  sourceFcs : Option String

namespace LoopJoiner

def empty : LoopJoiner := ⟨Dict.empty, false, 0⟩

def gridMs (cfg : LoopIngestSettings) : ℤ := cfg.gridSeconds * 1000

/-- The first grid boundary after `nowMs` (`long` division truncates towards zero). -/
def nextGridBoundary (nowMs : ℤ) (cfg : LoopIngestSettings) : ℤ :=
  (nowMs.tdiv (gridMs cfg) + 1) * gridMs cfg

def newLoopState (loop : RegistryLoop) (nowMs : ℤ) (cfg : LoopIngestSettings) : LoopState where
  loop := loop
  sourceFcs := none
  members := Dict.empty
  extras := Dict.empty
  mode := none
  modeTsMs := 0
  modeNative := none
  modeQualityNative := ""
  modeGood := true
  modeQuality := .unknown
  modeQualityProtocol := "RESTORED"
  lastEmittedTsMs := 0
  lastEmittedWallMs := 0
  skippedTicks := 0
  restored := false
  nextTickMs := nextGridBoundary nowMs cfg

def stateFor (fold : String → String) (j : LoopJoiner) (loop : RegistryLoop) (nowMs : ℤ)
    (cfg : LoopIngestSettings) : LoopState :=
  (j.loops.get? (fold loop.loopId)).getD (newLoopState loop nowMs cfg)

/-! ## Seeding -/

def restoredMember (seed : SavedMember) : Member where
  value := seed.value
  tsMs := seed.tsMs
  good := seed.good
  qualityNative := ""
  unit := none
  quality := if seed.good then .good else .bad
  qualityProtocol := "RESTORED"

def seedEntry (bucket : Dict String Member) (entry : String × SavedMember) : Dict String Member :=
  match bucket.get? entry.1 with
  | some existing =>
      if existing.tsMs ≥ entry.2.tsMs then bucket else bucket.set entry.1 (restoredMember entry.2)
  | none => bucket.set entry.1 (restoredMember entry.2)

def seedBucket (bucket : Dict String Member) (seeds : Dict String SavedMember) :
    Dict String Member :=
  seeds.entries.foldl seedEntry bucket

/-- What `Seed` restores besides the loop. -/
structure SeedRow where
  sourceFcs : Option String
  members : Dict String SavedMember
  extras : Dict String SavedMember
  modeToken : Option String
  modeTsMs : ℤ
  lastEmittedTsMs : ℤ

def seedMode (st : LoopState) (row : SeedRow) : LoopState :=
  match row.modeToken with
  | none => st
  | some token =>
      if st.mode = none ∨ row.modeTsMs > st.modeTsMs then
        { st with mode := some token, modeTsMs := row.modeTsMs }
      else st

def seedValues (st : LoopState) (loop : RegistryLoop) (row : SeedRow) : LoopState :=
  { st with
    loop := loop
    sourceFcs := st.sourceFcs.or row.sourceFcs
    restored := true
    members := seedBucket st.members row.members
    extras := seedBucket st.extras row.extras }

def raiseWatermark (st : LoopState) (tsMs : ℤ) : LoopState :=
  if tsMs > st.lastEmittedTsMs then { st with lastEmittedTsMs := tsMs } else st

def seedState (st : LoopState) (loop : RegistryLoop) (row : SeedRow) : LoopState :=
  raiseWatermark (seedMode (seedValues st loop row) row) row.lastEmittedTsMs

def seed (fold : String → String) (j : LoopJoiner) (loop : RegistryLoop) (row : SeedRow)
    (cfg : LoopIngestSettings) (nowMs : ℤ) : LoopJoiner :=
  { j with
    loops := j.loops.set (fold loop.loopId)
      (seedState (stateFor fold j loop nowMs cfg) loop row) }

/-! ## Values from the wire -/

def acceptedMember (value : Double) (payload : OtLoopPayload) (cfg : LoopIngestSettings) : Member :=
  let decoded := QualityDecoder.decode cfg.qualityProtocol payload.quality
  { value := value
    tsMs := payload.tsMs
    good := decoded.quality = .good
    qualityNative := decoded.native
    unit := payload.unit
    quality := decoded.quality
    qualityProtocol := cfg.qualityProtocol.name }

def acceptMode (st : LoopState) (token : String) (payload : OtLoopPayload)
    (cfg : LoopIngestSettings) : LoopState :=
  let decoded := QualityDecoder.decode cfg.qualityProtocol payload.quality
  { st with
    mode := some token
    modeTsMs := payload.tsMs
    modeNative := payload.rawValue.or (payload.numericValue.map invariantText)
    modeQuality := decoded.quality
    modeQualityNative := decoded.native
    modeQualityProtocol := cfg.qualityProtocol.name
    modeGood := decoded.quality = .good }

def acceptState (st : LoopState) (loop : RegistryLoop) (sourceFcs : String)
    (mapped : MappedParameter) (payload : OtLoopPayload) (cfg : LoopIngestSettings) : LoopState :=
  let st := { st with loop := loop, sourceFcs := some sourceFcs }
  if hmode : mapped.role = "mode" then acceptMode st (mapped.modeToken hmode) payload cfg
  else
    let member := acceptedMember (mapped.number hmode) payload cfg
    if mapped.isTupleMember then { st with members := st.members.set mapped.role member }
    else { st with extras := st.extras.set mapped.role member }

def gainsRole (st : LoopState) (mapped : MappedParameter) : Bool :=
  if mapped.role = "mode" then st.mode.isNone
  else if mapped.isTupleMember then !st.members.contains mapped.role
  else !st.extras.contains mapped.role

def accept (fold : String → String) (j : LoopJoiner) (loop : RegistryLoop) (sourceFcs : String)
    (mapped : MappedParameter) (payload : OtLoopPayload) (cfg : LoopIngestSettings) (nowMs : ℤ) :
    LoopJoiner :=
  let st := stateFor fold j loop nowMs cfg
  { j with
    loops := j.loops.set (fold loop.loopId) (acceptState st loop sourceFcs mapped payload cfg)
    newMemberSeen := j.newMemberSeen || gainsRole st mapped }

/-! ## The grid -/

def observeMember (m : Member) (tupleTs heldBefore : ℤ) : RoleObservation where
  value := some m.value
  stringValue := none
  sampleTsMs := m.tsMs
  verifiedTsMs := m.tsMs
  qualityNative := m.qualityNative
  quality := m.quality.name
  unit := m.unit
  held := heldBefore > 0 ∧ m.tsMs ≤ heldBefore
  ageMs := max 0 (tupleTs - m.tsMs)
  modeNative := none
  qualityProtocol := m.qualityProtocol

def observeMode (st : LoopState) (token : String) (tupleTs heldBefore : ℤ) : RoleObservation where
  value := none
  stringValue := some token
  sampleTsMs := st.modeTsMs
  verifiedTsMs := st.modeTsMs
  qualityNative := st.modeQualityNative
  quality := st.modeQuality.name
  unit := none
  held := heldBefore > 0 ∧ st.modeTsMs ≤ heldBefore
  ageMs := max 0 (tupleTs - st.modeTsMs)
  modeNative := st.modeNative
  qualityProtocol := st.modeQualityProtocol

def buildRoles (st : LoopState) (tupleTs heldBefore : ℤ) : Dict String RoleObservation :=
  let roles := st.members.mapValues (observeMember · tupleTs heldBefore)
  match st.mode with
  | none => roles
  | some token => roles.set "mode" (observeMode st token tupleTs heldBefore)

structure RequiredMembers where
  pv : Member
  sp : Member
  op : Member

def requiredMembers (st : LoopState) : Option RequiredMembers :=
  match st.members.get? "pv", st.members.get? "sp", st.members.get? "op" with
  | some pv, some sp, some op => some ⟨pv, sp, op⟩
  | _, _, _ => none

def sourceTs (st : LoopState) (req : RequiredMembers) : ℤ :=
  let ts := max req.pv.tsMs (max req.sp.tsMs req.op.tsMs)
  let ts := match st.members.get? "vp" with
    | some vp => max ts vp.tsMs
    | none => ts
  max ts st.modeTsMs

/-- The tuple of a loop whose members advanced. -/
def tupleOf (st : LoopState) (req : RequiredMembers) (nowMs : ℤ) (cfg : LoopIngestSettings) :
    LoopTuple where
  loopId := st.loop.loopId
  eventTsMs := sourceTs st req
  ingestTsMs := nowMs
  pv := req.pv.value
  sp := req.sp.value
  op := req.op.value
  vp := (st.members.get? "vp").map (·.value)
  mode := st.mode.getD "UNKNOWN"
  quality := ((req.pv.quality.worstOf req.sp.quality).worstOf req.op.quality).name
  loopType := st.loop.loopType
  site := st.loop.site
  area := st.loop.area
  unit := st.loop.unit
  assetUuid := st.loop.assetUuid
  sourceFcs := st.sourceFcs
  extras := st.extras.mapValues (·.value)
  roles := buildRoles st (sourceTs st req) st.lastEmittedTsMs
  bindingRevision := cfg.bindingRevision
  gridSeconds := cfg.gridSeconds

inductive TickVerdict where
  /-- the loop's boundary has not passed -/
  | waiting
  /-- a required member has not been seen -/
  | incomplete
  /-- nothing newer than the last publication -/
  | noAdvance
  | emit (req : RequiredMembers)

def tickVerdict (st : LoopState) (nowMs : ℤ) : TickVerdict :=
  if nowMs < st.nextTickMs then .waiting
  else
    match requiredMembers st with
    | none => .incomplete
    | some req => if sourceTs st req ≤ st.lastEmittedTsMs then .noAdvance else .emit req

def scheduled (st : LoopState) (nowMs : ℤ) (cfg : LoopIngestSettings) : LoopState :=
  { st with nextTickMs := nowMs.tdiv (gridMs cfg) * gridMs cfg + gridMs cfg }

def tickState (st : LoopState) (nowMs : ℤ) (cfg : LoopIngestSettings) : LoopState :=
  match tickVerdict st nowMs with
  | .waiting => st
  | .incomplete => scheduled st nowMs cfg
  | .noAdvance => { scheduled st nowMs cfg with skippedTicks := st.skippedTicks + 1 }
  | .emit req =>
      { scheduled st nowMs cfg with
        lastEmittedTsMs := sourceTs st req, lastEmittedWallMs := nowMs }

def tickTuple (st : LoopState) (nowMs : ℤ) (cfg : LoopIngestSettings) : Option LoopTuple :=
  match tickVerdict st nowMs with
  | .emit req => some (tupleOf st req nowMs cfg)
  | _ => none

def skipsNoAdvance (st : LoopState) (nowMs : ℤ) : Bool :=
  match tickVerdict st nowMs with
  | .noAdvance => true
  | _ => false

def tick (j : LoopJoiner) (nowMs : ℤ) (cfg : LoopIngestSettings) : LoopJoiner × List LoopTuple :=
  ({ j with
      loops := j.loops.mapValues (tickState · nowMs cfg)
      skippedNoAdvance := j.skippedNoAdvance + j.loops.values.countP (skipsNoAdvance · nowMs) },
    j.loops.values.filterMap (tickTuple · nowMs cfg))

/-! ## Saving -/

def savedMember (m : Member) : SavedMember := ⟨m.value, m.tsMs, m.good⟩

def snapshotOf (st : LoopState) : LoopStateSnapshot where
  loopId := st.loop.loopId
  members := st.members.mapValues savedMember
  extras := st.extras.mapValues savedMember
  modeToken := st.mode
  modeTsMs := st.modeTsMs
  lastEmittedTsMs := st.lastEmittedTsMs
  sourceFcs := st.sourceFcs

def stateSnapshot (j : LoopJoiner) : List LoopStateSnapshot := j.loops.values.map snapshotOf

/-- The arguments of `Seed` that a saved row fills. -/
def seedRowOf (row : LoopStateSnapshot) : SeedRow where
  sourceFcs := row.sourceFcs
  members := row.members
  extras := row.extras
  modeToken := row.modeToken
  modeTsMs := row.modeTsMs
  lastEmittedTsMs := row.lastEmittedTsMs

/-- Seed a joiner from saved rows, each with the loop the registry has for it; a row whose loop is
no longer registered is passed over (`SeedFromStateStoreAsync`). -/
def seedFromRows (fold : String → String) (registry : String → Option RegistryLoop)
    (cfg : LoopIngestSettings) (nowMs : ℤ) (j : LoopJoiner) (rows : List LoopStateSnapshot) :
    LoopJoiner :=
  rows.foldl (fun j row =>
    match registry row.loopId with
    | none => j
    | some loop => seed fold j loop (seedRowOf row) cfg nowMs) j

/-! ## Runs -/

inductive Call where
  | seed (loop : RegistryLoop) (row : SeedRow) (cfg : LoopIngestSettings) (nowMs : ℤ)
  | accept (loop : RegistryLoop) (sourceFcs : String) (mapped : MappedParameter)
      (payload : OtLoopPayload) (cfg : LoopIngestSettings) (nowMs : ℤ)
  | tick (nowMs : ℤ) (cfg : LoopIngestSettings)

def step (fold : String → String) (j : LoopJoiner) : Call → LoopJoiner × List LoopTuple
  | .seed loop row cfg nowMs => (seed fold j loop row cfg nowMs, [])
  | .accept loop sourceFcs mapped payload cfg nowMs =>
      (accept fold j loop sourceFcs mapped payload cfg nowMs, [])
  | .tick nowMs cfg => tick j nowMs cfg

def after (fold : String → String) (calls : List Call) : LoopJoiner :=
  Machine.stateAfter (step fold) empty calls

end LoopJoiner

/-!
# Ingestion: a tuple on the wire

`LoopTuple.ToJson`: the fields of the contract, the extensions under their own names, and the block
of the roles.
-/

/-- The literal of a number, of which a reader keeps the nearest double: the integers below `1e15`
are written without a point or an exponent. -/
def literal (q : ℚ) : JsonNumber :=
  if q.den = 1 ∧ |q.num| < 10 ^ 15 then .integral q.num else .decimal q

/-- `WriteNumberValue(double)`; the writer refuses a number that is not finite (`toJson`). -/
def doubleJson : Double → Json
  | .finite q => .number (literal q)
  | .infinite _ => .null

/-- `WriteNumberValue(long)`. -/
def longJson (n : ℤ) : Json := .number (.integral n)

def optionalText (name : String) (s : Option String) : List (String × Json) :=
  match s with
  | some s => [(name, .text s)]
  | none => []

def optionalNumber (name : String) (d : Option Double) : List (String × Json) :=
  match d with
  | some d => [(name, doubleJson d)]
  | none => []

/-- `IsNullOrEmpty`, for a field that is left out then. -/
def nonEmpty (s : Option String) : Option String := s.filter (· ≠ "")

namespace RoleObservation

variable (o : RoleObservation)

def valueJson : Json :=
  match o.value with
  | some v => doubleJson v
  | none =>
      match o.stringValue with
      | some s => .text s
      | none => .null

/-- `WriteTo`. -/
def toJson : Json :=
  .object ([("value", o.valueJson)] ++ optionalText "mode_native" o.modeNative ++
    [("sample_ts_ms", longJson o.sampleTsMs), ("verified_ts_ms", longJson o.verifiedTsMs),
      ("quality_native", .text o.qualityNative), ("quality_protocol", .text o.qualityProtocol),
      ("quality", .text o.quality)] ++ optionalText "unit" o.unit ++
    [("held", .bool o.held), ("age_ms", longJson o.ageMs)])

end RoleObservation

namespace LoopTuple

def writtenRoles : List String := ["pv", "sp", "op", "vp", "mode"]

variable (t : LoopTuple)

/-- The member of a role: a missing `vp` is written as null, another missing role is left out. -/
def roleMember (role : String) : List (String × Json) :=
  match t.roles.get? role with
  | some o => [(role, o.toJson)]
  | none => if role = "vp" then [("vp", .null)] else []

def contractMembers : List (String × Json) :=
  [("loop_id", .text t.loopId), ("event_ts_ms", longJson t.eventTsMs),
    ("ingest_ts_ms", longJson t.ingestTsMs), ("pv", doubleJson t.pv), ("sp", doubleJson t.sp),
    ("op", doubleJson t.op)] ++
  optionalNumber "vp" t.vp ++
  [("mode", .text t.mode), ("quality", .text t.quality), ("loop_type", .text t.loopType)] ++
  optionalText "site" (nonEmpty (some t.site)) ++ optionalText "area" (nonEmpty t.area) ++
  optionalText "unit" (nonEmpty t.unit) ++ optionalText "asset_uuid" (nonEmpty t.assetUuid) ++
  optionalText "source_fcs" (nonEmpty t.sourceFcs)

def extraMembers : List (String × Json) := t.extras.entries.map fun e => (e.1, doubleJson e.2)

def rolesMembers : List (String × Json) :=
  [("schema_version", .text "1.1"), ("binding_revision", longJson t.bindingRevision),
    ("grid_seconds", longJson t.gridSeconds), ("roles", .object (writtenRoles.flatMap t.roleMember))]

def numbers : List Double :=
  [t.pv, t.sp, t.op] ++ t.vp.toList ++ t.extras.values ++
    writtenRoles.filterMap fun role => (t.roles.get? role).bind (·.value)

/-- `ToJson`; the writer throws for a number that is not finite. -/
def toJson : Option Json :=
  if t.numbers.all Double.isFinite then
    some (.object (t.contractMembers ++ t.extraMembers ++ t.rolesMembers))
  else none

end LoopTuple

end OpenBridge.Ingestion
