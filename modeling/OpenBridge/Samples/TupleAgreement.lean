import OpenBridge.Ingestion.Built
import OpenBridge.Samples.CplmNormalizedSample

/-!
# Samples: the writer and the reader of a tuple agree

What the reader makes of a tuple that the joiner can build.  An extension called `dynamic_class` is
read as the override of the dynamic class.
-/

namespace OpenBridge.Samples

open OpenBridge.Foundation
open OpenBridge.Ingestion (LoopTuple LoopJoiner LoopIngestConfig IsMeasurement IsExtension
  DataSourceValidation.reservedTupleFields DataSourceValidation.roleChar tupleMembers)
open OpenBridge.Ingestion.LoopJoiner (Built Encodable)

def received (role : String) (o : Ingestion.RoleObservation) : RoleObservation :=
  { role
    value := o.value
    stringValue := o.stringValue
    modeNative := o.modeNative
    sampleTsMs := o.sampleTsMs
    verifiedTsMs := o.verifiedTsMs
    qualityNative := o.qualityNative
    quality := o.quality
    unit := o.unit
    held := o.held
    ageMs := o.ageMs
    provenance := "ROLES_BLOCK"
    reason := none }

/-- The sample is valid and has what the tuple has; an empty site or asset is none. -/
structure Recovered (t : LoopTuple) (s : CplmNormalizedSample) : Prop where
  valid : s.isValid = true
  reason : s.invalidReason = none
  loopId : s.loopId = some t.loopId
  eventTsMs : s.eventTsMs = t.eventTsMs
  pv : s.pv = some t.pv
  sp : s.sp = some t.sp
  op : s.op = some t.op
  vp : s.vp = t.vp
  mode : s.mode = t.mode
  quality : s.quality = t.quality
  loopType : s.loopType = some t.loopType
  site : s.site = Ingestion.nonEmpty (some t.site)
  assetUuid : s.assetUuid = Ingestion.nonEmpty t.assetUuid
  gridSeconds : s.gridSeconds = t.gridSeconds
  roles : ∀ role, s.roles.get? role = (t.roles.get? role).map (received role)

def withoutExtras (t : LoopTuple) : LoopTuple := { t with extras := Dict.empty }

/-- The tuple is written, the sample that is read from it has what the tuple has, and it is the one
that is read from the tuple without its extensions. -/
def Agree (t : LoopTuple) : Prop :=
  ∃ j j', t.toJson = some j ∧ (withoutExtras t).toJson = some j' ∧
    Recovered t (CplmNormalizedSample.fromJson j) ∧
      CplmNormalizedSample.fromJson j = CplmNormalizedSample.fromJson j'

/-- A `long`. -/
def IsLong (n : ℤ) : Prop := -2 ^ 63 ≤ n ∧ n < 2 ^ 63

structure WellTyped (t : LoopTuple) : Prop where
  eventTsMs : IsLong t.eventTsMs
  gridSeconds : (t.gridSeconds : ℤ) < 2 ^ 31
  roles : ∀ role o, t.roles.get? role = some o →
    IsLong o.sampleTsMs ∧ IsLong o.verifiedTsMs ∧ IsLong o.ageMs

/-- The loop id has nothing that the reader takes away, and no extension has the name of the
override. -/
def Unshadowed (t : LoopTuple) : Prop :=
  CplmNormalizedSample.cleanId t.loopId = t.loopId ∧ t.extras.get? "dynamic_class" = none

/-! ## The members of a message -/

def kept (name : String) : Bool :=
  DataSourceValidation.reservedTupleFields.contains name || tupleMembers.contains name ||
    !name.toList.all DataSourceValidation.roleChar

theorem not_kept_of_isExtension {name : String} (h : IsExtension name) : kept name = false := by
  simp only [kept, Bool.or_eq_false_iff, Bool.not_eq_false', List.contains_eq_mem,
    decide_eq_false_iff_not]
  exact ⟨⟨h.permitted.notReserved, h.notMember⟩, List.all_eq_true.mpr h.permitted.chars⟩

variable {t : LoopTuple}

def message (t : LoopTuple) : Json :=
  .object (t.contractMembers ++ t.extraMembers ++ t.rolesMembers)

theorem lookup_extraMembers (name : String) : t.extraMembers.reverse.lookup name =
    (t.extras.get? name).map Ingestion.doubleJson := by
  have hkeys : (t.extraMembers.map Prod.fst).Nodup := by
    rw [LoopTuple.extraMembers, List.map_map]
    exact t.extras.nodupKeys
  rw [Dict.lookup_reverse hkeys, ← Dict.get?_mapValues]
  rfl

theorem get?_extras_of_kept (h : Encodable t) {name : String} (hname : kept name = true) :
    t.extras.get? name = none := by
  rw [Dict.get?_eq_none_iff]
  intro hmem
  obtain ⟨e, he, rfl⟩ := List.mem_map.mp hmem
  rw [not_kept_of_isExtension (h.extras e he).1] at hname
  exact absurd hname (by decide)

theorem get_message (name : String) : (message t).get name =
    (t.rolesMembers.reverse.lookup name).or
      (((t.extras.get? name).map Ingestion.doubleJson).or
        (t.contractMembers.reverse.lookup name)) := by
  rw [message, Json.get_object, List.reverse_append, List.reverse_append, List.lookup_append,
    List.lookup_append, lookup_extraMembers]

theorem get_message_of_kept (h : Encodable t) {name : String} (hname : kept name = true)
    (hroles : t.rolesMembers.reverse.lookup name = none) :
    (message t).get name = t.contractMembers.reverse.lookup name := by
  rw [get_message, hroles, get?_extras_of_kept h hname]
  rfl

theorem lookup_cons_ite (k a : String) (b : Json) (es : List (String × Json)) :
    ((a, b) :: es).lookup k = if k = a then some b else es.lookup k := by
  rw [List.lookup_cons]
  by_cases hk : k = a
  · simp [hk]
  · simp [hk, beq_false_of_ne hk]

@[simp] theorem reverse_optionalText (name : String) (s : Option String) :
    (Ingestion.optionalText name s).reverse = Ingestion.optionalText name s := by
  cases s <;> rfl

@[simp] theorem lookup_optionalText (name k : String) (s : Option String) :
    (Ingestion.optionalText name s).lookup k = if k = name then s.map Json.text else none := by
  cases s with
  | none => simp [Ingestion.optionalText]
  | some s => rw [Ingestion.optionalText, lookup_cons_ite, List.lookup_nil, Option.map_some]

theorem lookup_rolesMembers (name : String) : t.rolesMembers.reverse.lookup name =
    if name = "roles" then some (.object (LoopTuple.writtenRoles.flatMap t.roleMember))
    else if name = "grid_seconds" then some (Ingestion.longJson t.gridSeconds)
    else if name = "binding_revision" then some (Ingestion.longJson t.bindingRevision)
    else if name = "schema_version" then some (.text "1.1")
    else none := by
  simp only [LoopTuple.rolesMembers, List.reverse_cons, List.reverse_nil, List.nil_append,
    List.cons_append, lookup_cons_ite, List.lookup_nil]

@[simp] theorem reverse_optionalNumber (name : String) (d : Option Double) :
    (Ingestion.optionalNumber name d).reverse = Ingestion.optionalNumber name d := by
  cases d <;> rfl

@[simp] theorem lookup_optionalNumber (name k : String) (d : Option Double) :
    (Ingestion.optionalNumber name d).lookup k =
      if k = name then d.map Ingestion.doubleJson else none := by
  cases d with
  | none => simp [Ingestion.optionalNumber]
  | some d => rw [Ingestion.optionalNumber, lookup_cons_ite, List.lookup_nil, Option.map_some]

theorem lookup_contractMembers (name : String) : t.contractMembers.reverse.lookup name =
    (if name = "source_fcs" then (Ingestion.nonEmpty t.sourceFcs).map Json.text else none).or (
    (if name = "asset_uuid" then (Ingestion.nonEmpty t.assetUuid).map Json.text else none).or (
    (if name = "unit" then (Ingestion.nonEmpty t.unit).map Json.text else none).or (
    (if name = "area" then (Ingestion.nonEmpty t.area).map Json.text else none).or (
    (if name = "site" then (Ingestion.nonEmpty (some t.site)).map Json.text else none).or (
    (if name = "loop_type" then some (.text t.loopType)
      else if name = "quality" then some (.text t.quality)
      else if name = "mode" then some (.text t.mode) else none).or (
    (if name = "vp" then t.vp.map Ingestion.doubleJson else none).or (
    if name = "op" then some (Ingestion.doubleJson t.op)
      else if name = "sp" then some (Ingestion.doubleJson t.sp)
      else if name = "pv" then some (Ingestion.doubleJson t.pv)
      else if name = "ingest_ts_ms" then some (Ingestion.longJson t.ingestTsMs)
      else if name = "event_ts_ms" then some (Ingestion.longJson t.eventTsMs)
      else if name = "loop_id" then some (.text t.loopId) else none))))))) := by
  have hreverse : t.contractMembers.reverse =
      Ingestion.optionalText "source_fcs" (Ingestion.nonEmpty t.sourceFcs) ++
      (Ingestion.optionalText "asset_uuid" (Ingestion.nonEmpty t.assetUuid) ++
      (Ingestion.optionalText "unit" (Ingestion.nonEmpty t.unit) ++
      (Ingestion.optionalText "area" (Ingestion.nonEmpty t.area) ++
      (Ingestion.optionalText "site" (Ingestion.nonEmpty (some t.site)) ++
      ([("loop_type", .text t.loopType), ("quality", .text t.quality), ("mode", .text t.mode)] ++
      (Ingestion.optionalNumber "vp" t.vp ++
        [("op", Ingestion.doubleJson t.op), ("sp", Ingestion.doubleJson t.sp),
          ("pv", Ingestion.doubleJson t.pv), ("ingest_ts_ms", Ingestion.longJson t.ingestTsMs),
          ("event_ts_ms", Ingestion.longJson t.eventTsMs), ("loop_id", .text t.loopId)])))))) := by
    rw [LoopTuple.contractMembers]
    simp
  rw [hreverse]
  simp only [List.lookup_append, lookup_optionalText, lookup_optionalNumber, lookup_cons_ite,
    List.lookup_nil]

/-! ## Reading a field -/

theorem toDouble_literal (q : ℚ) : (Ingestion.literal q).toDouble = Double.ofRat q := by
  rw [Ingestion.literal]
  split
  · rename_i h
    have hq : (q.num : ℚ) = q := Rat.den_eq_one_iff q |>.mp h.1
    rw [JsonNumber.toDouble, Double.ofInt, hq]
  · rfl

variable {d : Double}

theorem doubleJson_of_measurement (h : IsMeasurement d) :
    ∃ n : JsonNumber, Ingestion.doubleJson d = .number n ∧ n.toDouble = d := by
  obtain ⟨q, rfl, hq⟩ := h
  exact ⟨Ingestion.literal q, rfl, (toDouble_literal q).trans hq⟩

theorem asDouble_doubleJson (h : IsMeasurement d) (default : Double) :
    JsonNode.asDouble (some (Ingestion.doubleJson d)) default = some d := by
  obtain ⟨n, hn, hd⟩ := doubleJson_of_measurement h
  rw [hn, JsonNode.asDouble, hd]

theorem isNumeric_doubleJson (h : IsMeasurement d) :
    CplmNormalizedSample.isNumeric (some (Ingestion.doubleJson d)) = true := by
  obtain ⟨n, hn, -⟩ := doubleJson_of_measurement h
  rw [hn]
  rfl

theorem isFinite_of_measurement (h : IsMeasurement d) : isFinite (some d) = true := by
  obtain ⟨q, rfl, -⟩ := h
  rfl

theorem readVp_doubleJson {vp : Option Double} (h : ∀ v, vp = some v → IsMeasurement v) :
    CplmNormalizedSample.readVp (vp.map Ingestion.doubleJson) = vp := by
  cases vp with
  | none => rfl
  | some v =>
    have hv := h v rfl
    obtain ⟨n, hn, hd⟩ := doubleJson_of_measurement hv
    rw [Option.map_some, hn]
    simp only [CplmNormalizedSample.readVp, JsonNode.asDouble, hd, isFinite_of_measurement hv,
      if_true]

theorem asLong_longJson {n : ℤ} (h : IsLong n) (default : ℤ) :
    JsonNode.asLong (some (Ingestion.longJson n)) default = n :=
  JsonNumber.toSigned_of_range h.1 h.2

theorem asInt_longJson {n : ℤ} (h : -2 ^ 31 ≤ n) (h' : n < 2 ^ 31) (default : ℤ) :
    JsonNode.asInt (some (Ingestion.longJson n)) default = n :=
  JsonNumber.toSigned_of_range h h'

@[simp] theorem nullableText_map_text (s : Option String) :
    JsonNode.nullableText (s.map Json.text) = s := by
  cases s <;> rfl

@[simp] theorem asText_text (s default : String) : JsonNode.asText (some (.text s)) default = s := rfl

/-! ## The roles -/

theorem get_observation (o : Ingestion.RoleObservation) (name : String) : o.toJson.get name =
    if name = "age_ms" then some (Ingestion.longJson o.ageMs)
    else if name = "held" then some (.bool o.held)
    else (if name = "unit" then o.unit.map Json.text else none).or (
      if name = "quality" then some (.text o.quality)
      else if name = "quality_protocol" then some (.text o.qualityProtocol)
      else if name = "quality_native" then some (.text o.qualityNative)
      else if name = "verified_ts_ms" then some (Ingestion.longJson o.verifiedTsMs)
      else if name = "sample_ts_ms" then some (Ingestion.longJson o.sampleTsMs)
      else (if name = "mode_native" then o.modeNative.map Json.text else none).or (
        if name = "value" then some o.valueJson else none)) := by
  rw [Ingestion.RoleObservation.toJson, Json.get_object]
  simp only [List.reverse_append, List.reverse_cons, List.reverse_nil, List.nil_append,
    List.cons_append, reverse_optionalText, List.append_assoc]
  simp only [List.lookup_append, lookup_optionalText, lookup_cons_ite, List.lookup_nil]

theorem readValue_observation {role : String} {o : Ingestion.RoleObservation}
    (h : LoopJoiner.RoleShape role o) :
    TupleCodec.readValue role o.toJson = (o.value.map some, o.stringValue) := by
  have hvalue : o.toJson.get "value" = some o.valueJson := by
    rw [get_observation]
    simp
  rw [TupleCodec.readValue, hvalue]
  rcases h with ⟨hrole, v, hv, hmeasured, hnone⟩ | ⟨rfl, hnone, hsome⟩
  · obtain ⟨n, hn, hd⟩ := doubleJson_of_measurement hmeasured
    simp only [Ingestion.RoleObservation.valueJson, hv, hn, hd, hnone, Option.map_some]
  · obtain ⟨s, hs⟩ := Option.isSome_iff_exists.mp hsome
    simp [Ingestion.RoleObservation.valueJson, hnone, hs]

theorem parseRole_observation {role : String} {o : Ingestion.RoleObservation}
    (h : LoopJoiner.RoleShape role o)
    (hlong : IsLong o.sampleTsMs ∧ IsLong o.verifiedTsMs ∧ IsLong o.ageMs) :
    TupleCodec.parseRole role o.toJson = received role o := by
  have hfinite : ((o.value.map some).any fun d => ¬ isFinite d) = false := by
    rcases h with ⟨-, v, hv, hmeasured, -⟩ | ⟨-, hnone, -⟩
    · simp [hv, isFinite_of_measurement hmeasured]
    · simp [hnone]
  have hjoin : (o.value.map some).join = o.value := by
    cases o.value <;> rfl
  simp only [TupleCodec.parseRole, readValue_observation h, hfinite, hjoin, get_observation]
  simp [asLong_longJson hlong.1, asLong_longJson hlong.2.1, asLong_longJson hlong.2.2, received,
    JsonNode.asBoolean]

def roleOf (block : Json) (role : String) : Option RoleObservation :=
  ((block.get role).filter Json.isObject).map (TupleCodec.parseRole role)

theorem get?_readRole (block : Json) (d : Dict String RoleObservation) (role r : String) :
    (TupleCodec.readRole block d r).get? role =
      if role = r then (roleOf block role).or (d.get? role) else d.get? role := by
  rw [TupleCodec.readRole]
  by_cases hr : role = r
  · subst hr
    rw [if_pos rfl, roleOf]
    cases block.get role with
    | none => rfl
    | some n => cases hn : n.isObject <;> simp [Option.filter_some, hn]
  · rw [if_neg hr]
    split
    · split
      · exact Dict.get?_set_of_ne _ _ hr
      · rfl
    · rfl

theorem get?_foldl_readRole (block : Json) (role : String) (rs : List String)
    (d : Dict String RoleObservation) : (rs.foldl (TupleCodec.readRole block) d).get? role =
      if role ∈ rs then (roleOf block role).or (d.get? role) else d.get? role := by
  induction rs generalizing d with
  | nil => simp
  | cons r rest ih =>
    rw [List.foldl_cons, ih, get?_readRole]
    by_cases hr : role = r
    · subst hr
      simp only [List.mem_cons_self, if_true]
      cases roleOf block role <;> simp
    · simp only [List.mem_cons, hr, false_or, if_false]

theorem get?_readBlock (block : Json) (role : String) : (TupleCodec.readBlock block).get? role =
    if role ∈ TupleCodec.roles then roleOf block role else none := by
  rw [TupleCodec.readBlock, get?_foldl_readRole, Dict.get?_empty, Option.or_none]

theorem lookup_roleMember (role name : String) : (t.roleMember role).reverse.lookup name =
    if name = role then
      match t.roles.get? role with
      | some o => some o.toJson
      | none => if role = "vp" then some .null else none
    else none := by
  rw [LoopTuple.roleMember]
  cases t.roles.get? role with
  | some o => exact lookup_cons_ite _ _ _ _
  | none =>
    simp only []
    split
    · rename_i hvp
      rw [hvp]
      exact lookup_cons_ite _ _ _ _
    · simp

theorem get_rolesBlock {role : String} (h : role ∈ TupleCodec.roles) :
    (Json.object (LoopTuple.writtenRoles.flatMap t.roleMember)).get role =
      match t.roles.get? role with
      | some o => some o.toJson
      | none => if role = "vp" then some .null else none := by
  rw [Json.get_object]
  simp only [LoopTuple.writtenRoles, List.flatMap_cons, List.flatMap_nil, List.append_nil,
    List.reverse_append, List.lookup_append, lookup_roleMember]
  simp only [TupleCodec.roles, List.mem_cons, List.not_mem_nil, or_false] at h
  rcases h with rfl | rfl | rfl | rfl | rfl <;> simp

theorem mem_roles_of_shape {role : String} {o : Ingestion.RoleObservation}
    (h : LoopJoiner.RoleShape role o) : role ∈ TupleCodec.roles := by
  rcases h with ⟨hrole, -⟩ | ⟨rfl, -⟩
  · simp only [LoopJoiner.numberRoles, List.mem_cons, List.not_mem_nil, or_false] at hrole
    rcases hrole with rfl | rfl | rfl | rfl <;> decide
  · decide

theorem get?_roles (h : Encodable t) (hw : WellTyped t) (role : String) :
    (TupleCodec.readBlock (.object (LoopTuple.writtenRoles.flatMap t.roleMember))).get? role =
      (t.roles.get? role).map (received role) := by
  rw [get?_readBlock]
  cases hget : t.roles.get? role with
  | some o =>
    have hshape := h.roles role o hget
    rw [if_pos (mem_roles_of_shape hshape), roleOf, get_rolesBlock (mem_roles_of_shape hshape),
      hget]
    have hobject : o.toJson.isObject = true := rfl
    simp only [Option.filter_some, hobject, if_true, Option.map_some,
      parseRole_observation hshape (hw.roles role o hget)]
  | none =>
    split
    · rename_i hrole
      rw [roleOf, get_rolesBlock hrole, hget]
      by_cases hvp : role = "vp"
      · simp [hvp, Json.isObject]
      · simp [hvp]
    · rfl

/-! ## The sample -/

def sampleOf (t : LoopTuple) : CplmNormalizedSample :=
  { loopId := some (CplmNormalizedSample.cleanId t.loopId)
    eventTsMs := t.eventTsMs
    ingestTsMs := JsonNode.asLong (some (Ingestion.longJson t.ingestTsMs)) 0
    pv := some t.pv
    sp := some t.sp
    op := some t.op
    vp := t.vp
    mode := t.mode
    quality := t.quality
    loopType := some t.loopType
    assetUuid := Ingestion.nonEmpty t.assetUuid
    site := Ingestion.nonEmpty (some t.site)
    dynamicClassOverride := JsonNode.nullableText
      ((t.extras.get? "dynamic_class").map Ingestion.doubleJson)
    schemaVersion := "1.1"
    bindingRevision := JsonNode.asLong (some (Ingestion.longJson t.bindingRevision)) 0
    gridSeconds := t.gridSeconds
    roles := TupleCodec.readBlock (.object (LoopTuple.writtenRoles.flatMap t.roleMember)) }

theorem get_contract (h : Encodable t) {name : String} (hname : kept name = true)
    (hroles : name ∉ ["roles", "grid_seconds", "binding_revision", "schema_version"]) :
    (message t).get name = t.contractMembers.reverse.lookup name := by
  simp only [List.mem_cons, List.not_mem_nil, or_false, not_or] at hroles
  refine get_message_of_kept h hname ?_
  rw [lookup_rolesMembers, if_neg hroles.1, if_neg hroles.2.1, if_neg hroles.2.2.1,
    if_neg hroles.2.2.2]

theorem readQuality_message (h : Encodable t) :
    CplmNormalizedSample.readQuality (message t) = t.quality := by
  have hget : (message t).get "quality" = some (.text t.quality) := by
    rw [get_contract h (by decide) (by decide), lookup_contractMembers]
    simp
  obtain ⟨q, hq⟩ := h.quality
  have htrim : (some (javaTrim t.quality)).filter (· ≠ "") = some t.quality := by
    rw [hq]
    cases q <;> decide
  rw [CplmNormalizedSample.readQuality, hget]
  simp only [JsonNode.nullableText, Json.asText, Option.map_some, htrim]

theorem readRest_message (h : Encodable t) (hw : WellTyped t) (s : CplmNormalizedSample) :
    CplmNormalizedSample.readRest (message t) s =
      { s with
        ingestTsMs := (sampleOf t).ingestTsMs
        vp := t.vp
        mode := t.mode
        quality := t.quality
        isValid := true
        loopType := some t.loopType
        assetUuid := Ingestion.nonEmpty t.assetUuid
        site := Ingestion.nonEmpty (some t.site)
        dynamicClassOverride := (sampleOf t).dynamicClassOverride
        schemaVersion := "1.1"
        bindingRevision := (sampleOf t).bindingRevision
        gridSeconds := t.gridSeconds
        roles := (sampleOf t).roles } := by
  have hvp : (message t).get "vp" = t.vp.map Ingestion.doubleJson := by
    rw [get_contract h (by decide) (by decide), lookup_contractMembers]
    simp
  have hmode : (message t).get "mode" = some (.text t.mode) := by
    rw [get_contract h (by decide) (by decide), lookup_contractMembers]
    simp
  have hloopType : (message t).get "loop_type" = some (.text t.loopType) := by
    rw [get_contract h (by decide) (by decide), lookup_contractMembers]
    simp
  have hsite : (message t).get "site" = (Ingestion.nonEmpty (some t.site)).map Json.text := by
    rw [get_contract h (by decide) (by decide), lookup_contractMembers]
    simp
  have hasset : (message t).get "asset_uuid" = (Ingestion.nonEmpty t.assetUuid).map Json.text := by
    rw [get_contract h (by decide) (by decide), lookup_contractMembers]
    simp
  have hingest : (message t).get "ingest_ts_ms" = some (Ingestion.longJson t.ingestTsMs) := by
    rw [get_contract h (by decide) (by decide), lookup_contractMembers]
    simp
  have holder (name : String) (hname : name ∈ ["isValid", "assetUuid", "dynamicClass"]) :
      (message t).get name = none := by
    simp only [List.mem_cons, List.not_mem_nil, or_false] at hname
    rcases hname with rfl | rfl | rfl <;>
      rw [get_contract h (by decide) (by decide), lookup_contractMembers] <;> simp
  have hdynamic : (message t).get "dynamic_class" =
      (t.extras.get? "dynamic_class").map Ingestion.doubleJson := by
    rw [get_message, lookup_rolesMembers, lookup_contractMembers]
    simp
  have hschema : (message t).get "schema_version" = some (.text "1.1") := by
    rw [get_message, lookup_rolesMembers]
    simp
  have hbinding : (message t).get "binding_revision" =
      some (Ingestion.longJson t.bindingRevision) := by
    rw [get_message, lookup_rolesMembers]
    simp
  have hgrid : (message t).get "grid_seconds" = some (Ingestion.longJson t.gridSeconds) := by
    rw [get_message, lookup_rolesMembers]
    simp
  have hgridValue : JsonNode.asInt (some (Ingestion.longJson t.gridSeconds)) 0 = t.gridSeconds :=
    asInt_longJson (by omega) hw.gridSeconds 0
  have hroles : (message t).get "roles" =
      some (.object (LoopTuple.writtenRoles.flatMap t.roleMember)) := by
    rw [get_message, lookup_rolesMembers]
    simp
  simp only [CplmNormalizedSample.readRest, TupleCodec.applyRoles, CplmNormalizedSample.either, hvp,
    hmode, hloopType, hsite, hasset, hingest, hdynamic, hschema, hbinding, hgrid, hroles,
    holder "isValid" (by decide), holder "assetUuid" (by decide), holder "dynamicClass" (by decide),
    readVp_doubleJson h.vp, readQuality_message h, Option.some_or, Option.or_none, asText_text,
    nullableText_map_text, Json.isObject, if_true, sampleOf]
  rw [hgridValue]
  rfl

theorem fromJson_message (h : Encodable t) (hw : WellTyped t) :
    CplmNormalizedSample.fromJson (message t) = sampleOf t := by
  have hloopId : (message t).get "loop_id" = some (.text t.loopId) := by
    rw [get_contract h (by decide) (by decide), lookup_contractMembers]
    simp
  have heventTs : (message t).get "event_ts_ms" = some (Ingestion.longJson t.eventTsMs) := by
    rw [get_contract h (by decide) (by decide), lookup_contractMembers]
    simp
  have hpv : (message t).get "pv" = some (Ingestion.doubleJson t.pv) := by
    rw [get_contract h (by decide) (by decide), lookup_contractMembers]
    simp
  have hsp : (message t).get "sp" = some (Ingestion.doubleJson t.sp) := by
    rw [get_contract h (by decide) (by decide), lookup_contractMembers]
    simp
  have hop : (message t).get "op" = some (Ingestion.doubleJson t.op) := by
    rw [get_contract h (by decide) (by decide), lookup_contractMembers]
    simp
  simp only [CplmNormalizedSample.fromJson, CplmNormalizedSample.either, hloopId, heventTs, hpv, hsp,
    hop, Option.some_or, isNumeric_doubleJson h.pv, isNumeric_doubleJson h.sp,
    isNumeric_doubleJson h.op, asDouble_doubleJson h.pv, asDouble_doubleJson h.sp,
    asDouble_doubleJson h.op, isFinite_of_measurement h.pv, isFinite_of_measurement h.sp,
    isFinite_of_measurement h.op, asLong_longJson hw.eventTsMs, and_self, not_true_eq_false,
    if_false, Json.asText]
  exact readRest_message h hw _

/-! ## The agreement -/

theorem isFinite_measurement (h : IsMeasurement d) : d.isFinite = true := by
  obtain ⟨q, rfl, -⟩ := h
  rfl

theorem toJson_of_encodable (h : Encodable t) : t.toJson = some (message t) := by
  have hall : t.numbers.all Double.isFinite = true := by
    rw [List.all_eq_true]
    intro v hv
    simp only [LoopTuple.numbers, List.mem_append, List.mem_cons, List.not_mem_nil, or_false,
      Option.mem_toList, List.mem_filterMap] at hv
    rcases hv with (((rfl | rfl | rfl) | hvp) | hextra) | ⟨role, -, hrole⟩
    · exact isFinite_measurement h.pv
    · exact isFinite_measurement h.sp
    · exact isFinite_measurement h.op
    · exact isFinite_measurement (h.vp v hvp)
    · obtain ⟨e, he, rfl⟩ := List.mem_map.mp hextra
      exact isFinite_measurement (h.extras e he).2
    · obtain ⟨o, ho, hvalue⟩ := Option.bind_eq_some_iff.mp hrole
      rcases h.roles role o ho with ⟨-, w, hw, hmeasured, -⟩ | ⟨-, hnone, -⟩
      · obtain rfl : w = v := Option.some.inj (hw.symm.trans hvalue)
        exact isFinite_measurement hmeasured
      · rw [hnone] at hvalue
        exact absurd hvalue (by simp)
  rw [LoopTuple.toJson, if_pos hall]
  rfl

theorem encodable_withoutExtras (h : Encodable t) : Encodable (withoutExtras t) :=
  ⟨h.pv, h.sp, h.op, h.vp, LoopJoiner.Bucket.empty, h.quality, h.roles⟩

theorem wellTyped_withoutExtras (h : WellTyped t) : WellTyped (withoutExtras t) :=
  ⟨h.eventTsMs, h.gridSeconds, h.roles⟩

theorem nullableText_doubleJson (h : IsMeasurement d) :
    JsonNode.nullableText (some (Ingestion.doubleJson d)) ≠ none := by
  obtain ⟨n, hn, -⟩ := doubleJson_of_measurement h
  rw [hn]
  simp [JsonNode.nullableText]

theorem sampleOf_eq_iff (h : Encodable t) : sampleOf t = sampleOf (withoutExtras t) ↔
    t.extras.get? "dynamic_class" = none := by
  constructor
  · intro heq
    have hoverride := congrArg CplmNormalizedSample.dynamicClassOverride heq
    cases hget : t.extras.get? "dynamic_class" with
    | none => rfl
    | some v =>
      simp only [sampleOf, withoutExtras, hget, Option.map_some, Dict.get?_empty,
        Option.map_none] at hoverride
      exact absurd hoverride (nullableText_doubleJson (h.extras.of_get? hget).2)
  · intro hget
    simp only [sampleOf, hget]
    rfl

theorem recovered_iff (h : Encodable t) (hw : WellTyped t) :
    Recovered t (sampleOf t) ↔ CplmNormalizedSample.cleanId t.loopId = t.loopId := by
  constructor
  · intro hrecovered
    exact Option.some.inj hrecovered.loopId
  · intro hclean
    exact ⟨rfl, rfl, by rw [sampleOf, hclean], rfl, rfl, rfl, rfl, rfl, rfl, rfl, rfl, rfl, rfl, rfl,
      get?_roles h hw⟩

/-- Every tuple that the joiner can build is read as it was written, and no extension is read as
anything else, exactly when its loop id is clean and no extension is called `dynamic_class`. -/
theorem tuple_agree_iff (fold : String → String) {j : LoopJoiner} (hj : Built fold j) (nowMs : ℤ)
    (cfg : Ingestion.LoopIngestSettings) {t : LoopTuple} (ht : t ∈ (LoopJoiner.tick j nowMs cfg).2)
    (hw : WellTyped t) : Agree t ↔ Unshadowed t := by
  have h := hj.encodable ht
  have h' := encodable_withoutExtras h
  have hread := fromJson_message h hw
  have hread' := fromJson_message h' (wellTyped_withoutExtras hw)
  constructor
  · rintro ⟨_, _, hwrite, hwrite', hrecovered, hsame⟩
    rw [toJson_of_encodable h, Option.some.injEq] at hwrite
    rw [toJson_of_encodable h', Option.some.injEq] at hwrite'
    rw [← hwrite, hread] at hrecovered
    rw [← hwrite, ← hwrite', hread, hread'] at hsame
    exact ⟨(recovered_iff h hw).mp hrecovered, (sampleOf_eq_iff h).mp hsame⟩
  · rintro ⟨hclean, hdynamic⟩
    refine ⟨_, _, toJson_of_encodable h, toJson_of_encodable h', ?_, ?_⟩
    · rw [hread]
      exact (recovered_iff h hw).mpr hclean
    · rw [hread, hread']
      exact (sampleOf_eq_iff h).mpr hdynamic

/-! ## A plant with one extension -/

/-- A configuration with one extension, mapped from the parameter `DC`. -/
def oneExtension (role : String) : LoopIngestConfig :=
  { topicTemplate := none
    gridSeconds := none
    futureSkewMaxSeconds := none
    paramRoles := some (Dict.empty.set "DC" (some role))
    modeValueMap := none
    registryRefreshSeconds := none
    qualityProtocol := none }

def plantLoop : Ingestion.RegistryLoop := ⟨"FIC10302", none, "HDPE", none, none, "FLOW"⟩

def goodValue (v : ℤ) : Ingestion.OtLoopPayload := ⟨some (.finite v), none, none, some "GOOD", 1000⟩

theorem pv_ne_mode : "pv" ≠ "mode" := by decide
theorem sp_ne_mode : "sp" ≠ "mode" := by decide
theorem op_ne_mode : "op" ≠ "mode" := by decide
theorem dynamicClass_ne_mode : "dynamic_class" ≠ "mode" := by decide

section MappedNumber

variable (role : String) (v : ℤ)

theorem member_of_role : tupleMembers.contains role = tupleMembers.contains role := rfl

theorem text_of_mode (hrole : role ≠ "mode") (h : role = "mode") :
    (none : Option String).isSome := absurd h hrole

theorem isSome_number (_ : role ≠ "mode") : (some (Double.finite v)).isSome := rfl

end MappedNumber

def mappedNumber (role : String) (v : ℤ) (hrole : role ≠ "mode") : Ingestion.MappedParameter where
  role
  isTupleMember := tupleMembers.contains role
  numericValue := some (.finite v)
  modeString := none
  isTupleMember_eq := member_of_role role
  modeString_isSome := text_of_mode role hrole
  numericValue_isSome := isSome_number role v

theorem tryMap_goodValue {cfg : Ingestion.LoopIngestSettings} {parameter role : String} {v : ℤ}
    (hrole : role ≠ "mode")
    (hget : (cfg.paramRoles.get? (toUpperInvariant parameter)).map
      (fun r => toLowerInvariant (trim r)) = some role) :
    Ingestion.LoopParameterMapper.tryMap toUpperInvariant parameter (goodValue v) cfg =
      .ok (mappedNumber role v hrole) := by
  obtain ⟨configured, hconfigured, hcanonical⟩ := Option.map_eq_some_iff.mp hget
  rw [Ingestion.LoopParameterMapper.tryMap, hconfigured]
  simp only [hcanonical, Ingestion.LoopParameterMapper.mapRole, dif_neg hrole]
  rfl

def afterValue (cfg : Ingestion.LoopIngestSettings) (j : LoopJoiner) (role : String) (v : ℤ)
    (hrole : role ≠ "mode") : LoopJoiner :=
  j.accept toUpperInvariant plantLoop "FCS1" (mappedNumber role v hrole) (goodValue v) cfg 1000

theorem built_afterValue {config : LoopIngestConfig} {j : LoopJoiner} {parameter role : String}
    {v : ℤ} (hj : Built toUpperInvariant j)
    (hvalid : Ingestion.DataSourceValidation.validateLoopIngest toUpperInvariant config = none)
    (hsmall : |v| < 2 ^ 53) (hrole : role ≠ "mode")
    (hget : ((config.resolve toUpperInvariant 1).paramRoles.get? (toUpperInvariant parameter)).map
      (fun r => toLowerInvariant (trim r)) = some role) :
    Built toUpperInvariant (afterValue (config.resolve toUpperInvariant 1) j role v hrole) := by
  refine .accept hj config hvalid 1 plantLoop "FCS1" parameter (goodValue v) ?_ _
    (tryMap_goodValue hrole hget) 1000
  intro d hd
  obtain rfl := Option.some.inj hd
  exact ⟨v, rfl, Double.ofInt_of_abs_lt hsmall⟩

def plantJoiner (role : String) (hrole : role ≠ "mode") : LoopJoiner :=
  let cfg := (oneExtension role).resolve toUpperInvariant 1
  afterValue cfg (afterValue cfg (afterValue cfg (afterValue cfg LoopJoiner.empty "pv" 50
    pv_ne_mode) "sp" 51 sp_ne_mode) "op" 40 op_ne_mode) role 7 hrole

theorem built_dynamicClass :
    Built toUpperInvariant (plantJoiner "dynamic_class" dynamicClass_ne_mode) := by
  have hvalid : Ingestion.DataSourceValidation.validateLoopIngest toUpperInvariant
      (oneExtension "dynamic_class") = none := by decide
  refine @built_afterValue _ _ "DC" _ _ (@built_afterValue _ _ "OP" _ _ (@built_afterValue _ _ "SP"
    _ _ (@built_afterValue _ _ "PV" _ _ .empty hvalid ?_ ?_ ?_) hvalid ?_ ?_ ?_) hvalid ?_ ?_ ?_)
    hvalid ?_ ?_ ?_
  all_goals decide

instance (n : ℤ) : Decidable (IsLong n) := inferInstanceAs (Decidable (_ ∧ _))

def wellTyped (t : LoopTuple) : Bool :=
  IsLong t.eventTsMs ∧ (t.gridSeconds : ℤ) < 2 ^ 31 ∧ ∀ e ∈ t.roles.entries,
    IsLong e.2.sampleTsMs ∧ IsLong e.2.verifiedTsMs ∧ IsLong e.2.ageMs

theorem wellTyped_iff : wellTyped t = true ↔ WellTyped t := by
  simp only [wellTyped, decide_eq_true_eq]
  constructor
  · rintro ⟨hevent, hgrid, hroles⟩
    exact ⟨hevent, hgrid, fun role o hget => hroles _ (Dict.get?_eq_some_iff.mp hget)⟩
  · intro h
    exact ⟨h.eventTsMs, h.gridSeconds, fun e he => h.roles e.1 e.2 (Dict.get?_eq_some_iff.mpr he)⟩

def plantTuples : List LoopTuple :=
  (LoopJoiner.tick (plantJoiner "dynamic_class" dynamicClass_ne_mode) 10000
    ((oneExtension "dynamic_class").resolve toUpperInvariant 1)).2

theorem exists_plantTuple : ∃ t ∈ plantTuples, WellTyped t ∧
    t.extras.get? "dynamic_class" = some (.finite 7) := by
  have hlength : plantTuples.length = 1 := by decide
  have hall : plantTuples.all (fun t => wellTyped t ∧
      t.extras.get? "dynamic_class" = some (.finite 7)) = true := by decide
  have hmem : plantTuples.head (List.ne_nil_of_length_pos (by omega)) ∈ plantTuples :=
    List.head_mem _
  have hfacts := List.all_eq_true.mp hall _ hmem
  rw [decide_eq_true_eq] at hfacts
  exact ⟨_, hmem, wellTyped_iff.mp hfacts.1, hfacts.2⟩

/-- A tuple of the plant. -/
theorem tuple_agree_iff_plant : ∃ t ∈ plantTuples, Agree t ↔ Unshadowed t := by
  obtain ⟨t, ht, hw, -⟩ := exists_plantTuple
  exact ⟨t, ht, tuple_agree_iff toUpperInvariant built_dynamicClass 10000
    ((oneExtension "dynamic_class").resolve toUpperInvariant 1) ht hw⟩

/-- A configuration with an extension called `dynamic_class` is accepted, and the value of the
extension is read as the override of the dynamic class. -/
theorem dynamic_class_shadowed :
    ¬ ∀ (fold : String → String) (j : LoopJoiner), Built fold j → ∀ (nowMs : ℤ)
      (cfg : Ingestion.LoopIngestSettings), ∀ t ∈ (LoopJoiner.tick j nowMs cfg).2,
        WellTyped t → Agree t := by
  intro h
  obtain ⟨t, ht, hw, hextra⟩ := exists_plantTuple
  have hencodable := built_dynamicClass.encodable ht
  obtain ⟨_, _, hwrite, hwrite', -, hsame⟩ := h toUpperInvariant _ built_dynamicClass 10000 _ t ht hw
  rw [toJson_of_encodable hencodable, Option.some.injEq] at hwrite
  rw [toJson_of_encodable (encodable_withoutExtras hencodable), Option.some.injEq] at hwrite'
  rw [← hwrite, ← hwrite', fromJson_message hencodable hw,
    fromJson_message (encodable_withoutExtras hencodable) (wellTyped_withoutExtras hw)] at hsame
  have hnone := (sampleOf_eq_iff hencodable).mp hsame
  rw [hextra] at hnone
  exact absurd hnone (by simp)

end OpenBridge.Samples
