import OpenBridge.Registry.CplmDynamicsParameterSetSupport

/-!
# Registry: what the envelopes of one loop change for another

The broadcast function of the streaming jobs and the reader of the bounded jobs keep the same
attributes of the metadata records.  The bare names are shared: a class pack or a version that an
envelope of one loop carries is in force for every loop.
-/

namespace OpenBridge.Registry

open OpenBridge.Foundation
open OpenBridge.Foundation.Dict (Update AgreeOn)
open OpenBridge.GateConfig (LoopRef)
open OpenBridge.GateConfig.BundleBroadcastHandler (isBundleRecord)
open CplmMetadataEnvelope CplmDynamicsParameterSetSupport

abbrev Record := Except String JsonNode

abbrev Attributes := Dict String String

def configPrefix : String := "gate-config:"

def configLookup (state : Attributes) : Lookup := fun key => state.get? (configPrefix ++ key)

/-- A job's documents, what it makes of a bundle record, and the bundle that it puts on a profile at a
decision time. -/
structure ProfileBroadcastFn (π : Type) extends ProfileDocuments π where
  handle : Json → Attributes → Attributes
  govern : Lookup → LoopRef → ℤ → LoopDynamicsProfile π → Except Thrown (LoopDynamicsProfile π)

namespace ProfileBroadcastFn

variable {π : Type} (F : ProfileBroadcastFn π)

/-- The envelope half of a record: the calls up to the exception, if there is one. -/
def applyEnvelope (attributes : Attributes) (root : JsonNode) : Attributes :=
  if isEnvelope root then Update.applyAll attributes (applyUpdate F.readTree root).calls
  else attributes

/-- `processBroadcastElement`: a bundle record goes to its handler, an envelope to its reader. -/
def processBroadcastElement (state : Attributes) (value : Record) : Attributes :=
  match value with
  | .error _ => state
  | .ok root =>
      match root.filter isBundleRecord with
      | some bundle => F.handle bundle state
      | none => F.applyEnvelope state root

def broadcast (state : Attributes) (records : List Record) : Attributes :=
  records.foldl F.processBroadcastElement state

/-- The registry half of `resolve`: where a document of the loop is malformed, the class pack of the
build. -/
def registryProfile (state : Attributes) (ref : LoopRef) :
    Except Thrown (LoopDynamicsProfile π) :=
  match CplmDynamicsParameterSetSupport.resolve F.toProfileDocuments ref state.get? with
  | .error (.illegalArgument _) => resolveDefault F.toProfileDocuments ref
  | r => r

/-- `resolve`, of a loop without a cached profile: every control record clears the cache. -/
def resolve (state : Attributes) (ref : LoopRef) (decisionTimeMs : ℤ) :
    Except Thrown (LoopDynamicsProfile π) := do
  let profile ← F.registryProfile state ref
  F.govern (configLookup state) ref decisionTimeMs profile

def readUpdate (lookup : Attributes) (update : Record) : Attributes :=
  match update with
  | .error _ => lookup
  | .ok root => F.applyEnvelope lookup root

/-- `lookupFrom`: the attributes of a bounded job. -/
def lookupFrom (updates : List Record) : Attributes := updates.foldl F.readUpdate Dict.empty

def boundedProfile (updates : List Record) (ref : LoopRef) :
    Except Thrown (LoopDynamicsProfile π) :=
  CplmDynamicsParameterSetSupport.resolve F.toProfileDocuments ref (F.lookupFrom updates).get?

/-! ## The records of a scope -/

def isMetadata (value : Record) : Bool :=
  match value with
  | .error _ => true
  | .ok root => (root.filter isBundleRecord).isNone

def ofScope (scope : String) (value : Record) : Bool :=
  match value with
  | .error _ => false
  | .ok root => CplmMetadataEnvelope.ofScope F.readTree scope root

def attributeNames (value : Record) : List String :=
  match value with
  | .error _ => []
  | .ok root => CplmMetadataEnvelope.attributeNames F.readTree root

def DifferInScope (scope : String) (rs rs' : List Record) : Prop :=
  rs.filter (fun r => !F.ofScope scope r) = rs'.filter fun r => !F.ofScope scope r

/-- The keys that the resolution of a loop reads: those of its registry profile, and those of the
configuration. -/
def Reads (ref : LoopRef) (key : String) : Prop :=
  key ∈ keys ref ∨ startsWith key configPrefix = true

instance (ref : LoopRef) (key : String) : Decidable (Reads ref key) :=
  inferInstanceAs (Decidable (_ ∨ _))

/-! ## One record, and a sequence of them -/

variable {F} {ref : LoopRef} {scope : String}

theorem applyEnvelope_agree {K : String → Prop} {s t : Attributes} (root : JsonNode)
    (h : AgreeOn K s t) : AgreeOn K (F.applyEnvelope s root) (F.applyEnvelope t root) := by
  unfold applyEnvelope
  split
  · exact Update.AgreeOn.applyAll _ h
  · exact h

theorem applyEnvelope_hidden {K : String → Prop} {root : JsonNode}
    (hscope : CplmMetadataEnvelope.ofScope F.readTree scope root = true)
    (hnames : ∀ name ∈ CplmMetadataEnvelope.attributeNames F.readTree root, ¬ K name)
    (howns : ∀ key, K key → Owns scope key = false) (s : Attributes) :
    AgreeOn K (F.applyEnvelope s root) s := by
  unfold applyEnvelope
  split
  · refine Update.agreeOn_applyAll (fun c hc key hK => ?_) s
    cases ht : c.touches key with
    | false => rfl
    | true =>
      rcases touches_of_ofScope hscope hc ht with hname | hown
      · exact absurd hK (hnames key hname)
      · rw [howns key hK] at hown
        cases hown
  · exact fun _ _ => rfl

theorem processBroadcastElement_eq {r : Record} (hr : isMetadata r = true) (s : Attributes) :
    F.processBroadcastElement s r = F.readUpdate s r := by
  cases r with
  | error e => rfl
  | ok root =>
    have hnone : root.filter isBundleRecord = none := Option.isNone_iff_eq_none.mp hr
    simp only [processBroadcastElement, hnone, readUpdate]

theorem readUpdate_agree {K : String → Prop} {s t : Attributes} (r : Record)
    (h : AgreeOn K s t) : AgreeOn K (F.readUpdate s r) (F.readUpdate t r) := by
  cases r with
  | error e => exact h
  | ok root => exact applyEnvelope_agree root h

theorem foldl_readUpdate_agree {K : String → Prop} {rs rs' : List Record}
    (hsame : F.DifferInScope scope rs rs')
    (hnames : ∀ r ∈ rs ++ rs', F.ofScope scope r = true → ∀ name ∈ F.attributeNames r, ¬ K name)
    (howns : ∀ key, K key → Owns scope key = false) (s : Attributes) :
    AgreeOn K (rs.foldl F.readUpdate s) (rs'.foldl F.readUpdate s) := by
  refine Unwinding.runs_related _ (fun _ _ _ => rfl) (fun _ _ h k hk => (h k hk).symm)
    (fun _ _ _ h h' k hk => (h k hk).trans (h' k hk)) (fun _ _ r h => readUpdate_agree r h) hsame
    (fun r hr hv t => ?_) s
  have hscope : F.ofScope scope r = true := by simpa using hv
  cases r with
  | error e => cases hscope
  | ok root => exact applyEnvelope_hidden hscope (hnames _ hr hscope) howns t

theorem broadcast_eq {rs : List Record} (h : ∀ r ∈ rs, isMetadata r = true) (s : Attributes) :
    F.broadcast s rs = rs.foldl F.readUpdate s := by
  induction rs generalizing s with
  | nil => rfl
  | cons r rest ih =>
    have hstep := processBroadcastElement_eq (F := F) (h r List.mem_cons_self) s
    unfold broadcast at ih ⊢
    rw [List.foldl_cons, List.foldl_cons, hstep]
    exact ih (fun x hx => h x (List.mem_cons_of_mem r hx)) _

theorem registryProfile_congr {s t : Attributes} (h : ∀ k ∈ keys ref, s.get? k = t.get? k) :
    F.registryProfile s ref = F.registryProfile t ref := by
  unfold registryProfile
  rw [CplmDynamicsParameterSetSupport.resolve_congr h]

theorem resolve_of_agree {s t : Attributes} (h : AgreeOn (Reads ref) s t) (decisionTimeMs : ℤ) :
    F.resolve s ref decisionTimeMs = F.resolve t ref decisionTimeMs := by
  have hconfig : configLookup s = configLookup t := by
    funext key
    refine h _ (Or.inr ?_)
    unfold startsWith
    rw [String.toList_append]
    exact decide_eq_true (List.prefix_append _ _)
  unfold resolve
  rw [registryProfile_congr fun k hk => h k (Or.inl hk), hconfig]

/-! ## Scopes without a colon -/

theorem takeWhile_scope {x r : List Char} (hx : ':' ∉ x) :
    (x ++ ':' :: r).takeWhile (· ≠ ':') = x := by
  have hall : ∀ c ∈ x, decide (c ≠ ':') = true := by
    rintro c hc
    refine decide_eq_true ?_
    rintro rfl
    exact hx hc
  rw [List.takeWhile_append_of_pos hall]
  simp

theorem eq_of_owns {x y : String} (hscope : ':' ∉ scope.toList) (hx : ':' ∉ x.toList)
    (h : Owns scope (scopedKey x y) = true) : x = scope := by
  unfold Owns at h
  have hkey : (scopedKey x y).toList = x.toList ++ ':' :: y.toList := by
    simp [scopedKey, String.toList_append]
  rcases of_decide_eq_true h with heq | hpre
  · refine absurd ?_ hscope
    rw [← heq, hkey]
    simp
  · unfold startsWith at hpre
    obtain ⟨r, hr⟩ := of_decide_eq_true hpre
    rw [hkey, String.toList_append, List.append_assoc] at hr
    refine String.toList_injective ?_
    rw [← takeWhile_scope (r := y.toList) hx, ← hr]
    exact takeWhile_scope hscope

theorem eq_of_owns_of_no_colon {key : String} (hkey : ':' ∉ key.toList)
    (h : Owns scope key = true) : key = scope := by
  unfold Owns at h
  rcases of_decide_eq_true h with heq | hpre
  · exact heq
  · unfold startsWith at hpre
    obtain ⟨r, hr⟩ := of_decide_eq_true hpre
    refine absurd ?_ hkey
    rw [← hr, String.toList_append]
    simp

def attributePrefix : String := "cplm."

theorem not_owns_of_id {key : String} (hkey : Reads ref key) (hscope : ':' ∉ scope.toList)
    (hloop : ∀ l ∈ ref.loopId, l ≠ scope ∧ ':' ∉ l.toList)
    (hasset : ∀ a ∈ ref.assetUuid, a ≠ scope ∧ ':' ∉ a.toList)
    (hname : startsWith scope attributePrefix = false) (hconfig : scope ≠ "gate-config") :
    Owns scope key = false := by
  have hattr : ∀ attr y, startsWith attr attributePrefix = true → ':' ∉ attr.toList →
      Owns scope (scopedKey attr y) = false := by
    intro attr y hpre hcolon
    refine Bool.eq_false_iff.mpr fun h => ?_
    rw [← eq_of_owns hscope hcolon h, hpre] at hname
    cases hname
  have hbare : ∀ attr, startsWith attr attributePrefix = true → ':' ∉ attr.toList →
      Owns scope attr = false := by
    intro attr hpre hcolon
    refine Bool.eq_false_iff.mpr fun h => ?_
    rw [← eq_of_owns_of_no_colon hcolon h, hpre] at hname
    cases hname
  have hid : ∀ id y, id ≠ scope ∧ ':' ∉ id.toList → Owns scope (scopedKey id y) = false :=
    fun id y hid => Bool.eq_false_iff.mpr fun h => hid.1 (eq_of_owns hscope hid.2 h)
  have hloopKeys : ∀ l ∈ ref.loopId, ∀ attr, startsWith attr attributePrefix = true →
      ':' ∉ attr.toList → key ∈ loopKeys l attr → Owns scope key = false := by
    intro l hl attr hpre hcolon hk
    rcases List.mem_pair.mp hk with rfl | rfl
    · exact hid l attr (hloop l hl)
    · exact hattr attr l hpre hcolon
  rcases hkey with hkey | hkey
  · unfold keys at hkey
    simp only [List.mem_append, Option.mem_toList] at hkey
    rcases hkey with ((hk | hk) | hk) | hk
    · obtain ⟨asset, ha, rfl⟩ := Option.map_eq_some_iff.mp hk
      exact hid asset _ (hasset asset (Option.mem_filter_iff.mp ha).1)
    · cases hl : ref.loopId with
      | none =>
        rw [hl] at hk
        cases hk
      | some l =>
        rw [hl] at hk
        rcases List.mem_append.mp hk with hk | hk
        · rcases List.mem_append.mp hk with hk | hk
          · exact hloopKeys l hl attrOverride (by decide) (by decide) hk
          · exact hloopKeys l hl attrEngineering (by decide) (by decide) hk
        · exact hloopKeys l hl attrLoopModel (by decide) (by decide) hk
    · cases hc : classOf ref.loopId ref.loopType with
      | error e =>
        rw [hc] at hk
        cases hk
      | ok cls =>
        rw [hc] at hk
        obtain rfl := List.mem_singleton.mp hk
        cases cls <;> exact hbare _ (by decide) (by decide)
    · rcases List.mem_pair.mp hk with rfl | rfl
      · exact hbare _ (by decide) (by decide)
      · exact hbare _ (by decide) (by decide)
  · unfold startsWith at hkey
    obtain ⟨r, hr⟩ := of_decide_eq_true hkey
    have hkey : key = scopedKey "gate-config" (String.ofList r) := by
      refine String.toList_injective ?_
      rw [← hr]
      simp [scopedKey, configPrefix, String.toList_append]
    rw [hkey]
    exact hid _ _ ⟨hconfig.symm, by decide⟩

/-! ## The isolation of loops -/

theorem resolve_isolated {rs rs' : List Record} (hrs : ∀ r ∈ rs ++ rs', isMetadata r = true)
    (hsame : F.DifferInScope scope rs rs') (howns : ∀ key, Reads ref key → Owns scope key = false)
    (hnames : ∀ r ∈ rs ++ rs', F.ofScope scope r = true →
      ∀ name ∈ F.attributeNames r, ¬ Reads ref name) :
    (∀ state t, F.resolve (F.broadcast state rs) ref t = F.resolve (F.broadcast state rs') ref t) ∧
      F.boundedProfile rs ref = F.boundedProfile rs' ref := by
  have hleft : ∀ r ∈ rs, isMetadata r = true := fun r hr => hrs r (List.mem_append_left rs' hr)
  have hright : ∀ r ∈ rs', isMetadata r = true := fun r hr => hrs r (List.mem_append_right rs hr)
  have hagree := fun s => foldl_readUpdate_agree hsame hnames howns s
  constructor
  · intro state t
    rw [broadcast_eq hleft, broadcast_eq hright]
    exact resolve_of_agree (hagree state) t
  · exact CplmDynamicsParameterSetSupport.resolve_congr fun k hk =>
      hagree Dict.empty k (Or.inl hk)

theorem registryProfile_eq_boundedProfile {rs : List Record}
    (hrs : ∀ r ∈ rs, isMetadata r = true)
    (hparse : ∀ m, F.boundedProfile rs ref ≠ .error (.illegalArgument m)) :
    F.registryProfile (F.broadcast Dict.empty rs) ref = F.boundedProfile rs ref := by
  unfold registryProfile boundedProfile lookupFrom at *
  rw [broadcast_eq hrs]
  split
  · rename_i m hm
    exact absurd hm (hparse m)
  · rfl

/-- The envelopes of a loop or an asset change nothing for a loop that reads none of the names they
carry and no key of that scope; and the streaming and the bounded jobs read the same. -/
theorem loops_isolated (F : ProfileBroadcastFn π) :
    (∀ scope ref rs rs', (∀ r ∈ rs ++ rs', isMetadata r = true) → F.DifferInScope scope rs rs' →
      (∀ key, Reads ref key → Owns scope key = false) →
      (∀ r ∈ rs ++ rs', F.ofScope scope r = true → ∀ name ∈ F.attributeNames r, ¬ Reads ref name) →
      (∀ state t,
        F.resolve (F.broadcast state rs) ref t = F.resolve (F.broadcast state rs') ref t) ∧
        F.boundedProfile rs ref = F.boundedProfile rs' ref) ∧
      ∀ rs ref, (∀ r ∈ rs, isMetadata r = true) →
        (∀ m, F.boundedProfile rs ref ≠ .error (.illegalArgument m)) →
        F.registryProfile (F.broadcast Dict.empty rs) ref = F.boundedProfile rs ref :=
  ⟨fun _ _ _ _ hrs hsame howns hnames => resolve_isolated hrs hsame howns hnames,
    fun _ _ hrs hparse => registryProfile_eq_boundedProfile hrs hparse⟩

/-! ## Two loops of a plant -/

def plantPack (cls : LoopClass) : LoopDynamicsProfile Unit where
  loopClass := cls
  profileSource := .UNKNOWN
  dynamicsProfileVersion := "2.0.0"
  calculationVersion := "3.0.0"
  dynamicClass := .fastSelfReg
  serviceObjective := .TIGHT
  integrating := false
  classificationSource := "PRESET_FROM_LOOP_TYPE"
  topology := "UNKNOWN"
  commandPath := "UNKNOWN"
  acquisitionMode := "PERIODIC"
  acquisitionGridS := F64.ofInt 0
  opEngMin := F64.ofInt 0
  opEngMax := F64.ofInt 100
  pvEngMin := F64.ofInt 0
  pvEngMax := F64.ofInt 100
  pvRangeDeclared := false
  opRangeDeclared := false
  rest := ()

def fractionRange : String := "\x7b\"opEngMin\":0,\"opEngMax\":1\x7d"

/-- A job that reads the range above and no other document, and that has no bundle. -/
def plantFn : ProfileBroadcastFn Unit where
  readTree := fun text =>
    if text = fractionRange then
      .ok (some (.object [("opEngMin", .number (.integral 0)), ("opEngMax", .number (.integral 1))]))
    else .error "Unrecognized token"
  pack := plantPack
  parse := fun _ _ => .error (.illegalArgument "profile JSON does not parse")
  handle := fun _ state => state
  govern := fun _ _ _ profile => .ok profile

def parameterSet (calcInstanceId name value : String) : Record :=
  .ok (some (.object [("calcInstanceId", .text calcInstanceId),
    ("parameters", .array [.object [("name", .text name), ("value", .text value)]])]))

def tombstone (key : String) : Record :=
  .ok (some (.object [("__tombstone", .bool true), ("key", .text key)]))

def temperatureLoop : LoopRef := ⟨some "TIC-2", some "TEMP", some "asset-2", none⟩

theorem temperatureLoop_owns {key : String} (h : Reads temperatureLoop key) :
    Owns "FIC-1" key = false :=
  not_owns_of_id h (by decide) (by simp [temperatureLoop]) (by simp [temperatureLoop])
    (by decide) (by decide)

/-- A malformed override of a flow loop, or its tombstone, changes nothing for a temperature loop with
a declared range. -/
theorem loops_isolated_plant :
    plantFn.boundedProfile [parameterSet "TIC-2" attrEngineering fractionRange,
        parameterSet "FIC-1" attrOverride "not a profile"] temperatureLoop =
      plantFn.boundedProfile [parameterSet "TIC-2" attrEngineering fractionRange,
        tombstone "FIC-1"] temperatureLoop ∧
      plantFn.registryProfile (plantFn.broadcast Dict.empty
        [parameterSet "TIC-2" attrEngineering fractionRange]) temperatureLoop =
      plantFn.boundedProfile [parameterSet "TIC-2" attrEngineering fractionRange]
        temperatureLoop := by
  have hother : plantFn.ofScope "FIC-1" (parameterSet "TIC-2" attrEngineering fractionRange) =
      false := by decide
  have hset : plantFn.ofScope "FIC-1" (parameterSet "FIC-1" attrOverride "not a profile") =
      true := by decide
  have htombstone : plantFn.ofScope "FIC-1" (tombstone "FIC-1") = true := by decide
  constructor
  · refine ((loops_isolated plantFn).1 "FIC-1" temperatureLoop _ _ ?_ ?_
      (fun key => temperatureLoop_owns) ?_).2
    · decide
    · unfold DifferInScope
      simp only [List.filter_cons, List.filter_nil, hother, hset, htombstone]
      rfl
    · decide
  · refine (loops_isolated plantFn).2 _ _ (by decide) fun m hm => ?_
    have hok : (plantFn.boundedProfile [parameterSet "TIC-2" attrEngineering fractionRange]
        temperatureLoop).isOk = true := by decide
    rw [hm] at hok
    cases hok

/-- A version in the parameter set of a flow loop becomes the version of a temperature loop, and the
tombstone of one loop removes the range of another whose id continues its own after a colon. -/
theorem version_crosses_loops :
    plantFn.ofScope "FIC-1" (parameterSet "FIC-1" attrProfileVersion "9") = true ∧
      isMetadata (parameterSet "FIC-1" attrProfileVersion "9") = true ∧
      (plantFn.resolve (plantFn.broadcast Dict.empty []) temperatureLoop 0).map
        LoopDynamicsProfile.dynamicsProfileVersion = .ok "2.0.0" ∧
      (plantFn.resolve (plantFn.broadcast Dict.empty
        [parameterSet "FIC-1" attrProfileVersion "9"]) temperatureLoop 0).map
        LoopDynamicsProfile.dynamicsProfileVersion = .ok "9" ∧
      (plantFn.resolve (plantFn.broadcast Dict.empty
        [parameterSet "FIC-1:aux" attrEngineering fractionRange])
          ⟨some "FIC-1:aux", none, none, none⟩ 0).map
        LoopDynamicsProfile.opEngMax = .ok (F64.ofInt 1) ∧
      (plantFn.resolve (plantFn.broadcast Dict.empty
        [parameterSet "FIC-1:aux" attrEngineering fractionRange, tombstone "FIC-1"])
          ⟨some "FIC-1:aux", none, none, none⟩ 0).map
        LoopDynamicsProfile.opEngMax = .ok (F64.ofInt 100) := by
  decide +kernel

end ProfileBroadcastFn

end OpenBridge.Registry
