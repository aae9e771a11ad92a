import OpenBridge.GateConfig.ProfileBroadcastFn
import OpenBridge.GateConfig.PropertyAgreement
import OpenBridge.Foundation.Compaction

/-!
# Gate configuration: applying what was acknowledged

`validate` checks the resolved properties and the names that the layers use; `apply` reads the
values of the layers.  A bundle is applied exactly where its layers can be read, and what validation
has checked can be read.
-/

namespace OpenBridge.GateConfig

open OpenBridge.Foundation
open OpenBridge.GateConfig.BundleProfileMapper

namespace EffectiveBundleSelector

open OpenBridge.ControlPlane.BundleEnvelope.Publication (ofSite samples valid_samples received)

def settings (b : GateConfigBundle) : List (String × Json) :=
  (b.layerContents ["SITE", "PROFILE", "LOOP"]).flatMap fun content =>
    content.entries.filter fun e => isSet e.2

/-- The field of a setter holds the value of the last setting that writes it. -/
def FieldHolds (es : List (String × Json)) (p : CplmLoopDynamicsProfile) (s : Setter) : Prop :=
  ∃ pre last post s' value, es = pre ++ last :: post ∧ setter last.1 = some s' ∧
    s'.field = s.field ∧ (∀ later ∈ post, ∀ t, setter later.1 = some t → t.field ≠ s.field) ∧
    s'.read last.2 last.1 = .ok value ∧ p.values s'.field = value

/-- The response job has the number that the last setting of a property gives. -/
def ResponseHolds (es : List (String × Json)) (p : CplmLoopDynamicsProfile) (property : String) :
    Prop :=
  ∃ pre n post numbers, es = pre ++ (property, .number n) :: post ∧
    (∀ later ∈ post, later.1 ≠ property) ∧ p.bundleResponseValues = some numbers ∧
    numbers.get? property = some n.toDouble

/-- A property is mapped: its field or its response value holds what was set last. -/
def Mapped (es : List (String × Json)) (p : CplmLoopDynamicsProfile) (property : String) : Prop :=
  (∃ s, setter property = some s ∧ FieldHolds es p s) ∨
    (property ∈ responseProperties ∧ ResponseHolds es p property)

def Supported (property : String) : Prop :=
  isProfileProperty property = true ∨ property ∈ responseProperties

def resolvedValue (b : GateConfigBundle) (property : String) : JsonNode :=
  ((b.bundle.get "resolved").path "properties").path property

/-- A setting that the build can take: by its setter, or as a number of the response job. -/
def Readable (e : String × Json) : Prop :=
  (∀ s, setter e.1 = some s → reads (sourceType s.field) e.2 = true) ∧
    (e.1 ∈ responseProperties → e.2.isNumber = true)

def Literal (e : String × Json) : Prop :=
  ∀ s, setter e.1 = some s → sourceType s.field = .integer → e.2.isNumber = true →
    e.2.isIntegralNumber = true

/-! ## The profile -/

def writeSetting (p : CplmLoopDynamicsProfile) (e : String × Json) :
    Except String CplmLoopDynamicsProfile :=
  match setter e.1 with
  | some s => BundleProfileMapper.set p s e.1 e.2
  | none => .ok p

theorem not_response_of_setter {property : String} (h : isProfileProperty property = true) :
    property ∉ responseProperties := by
  have hall : ∀ q ∈ responseProperties, isProfileProperty q = false := by decide
  intro hresponse
  rw [hall property hresponse] at h
  cases h

theorem entries_profileValues (content : Dict String Json) :
    (profileValues content).entries = content.entries.filter fun e =>
      isSet e.2 ∧ e.1 ∉ responseProperties ∧ isProfileProperty e.1 := by
  have hempty : ∀ e ∈ content.entries, e.1 ∉ (Dict.empty : Dict String Json).keys := by simp
  exact Dict.entries_foldl_set content.nodupKeys hempty

theorem applyProperty_eq_writeSetting (p : CplmLoopDynamicsProfile) {e : String × Json}
    (hset : isSet e.2 = true) (hprofile : isProfileProperty e.1 = true) :
    applyProperty p e.1 e.2 = writeSetting p e := by
  have hnull : ¬ e.2.isNull = true := by
    intro hnull
    unfold isSet at hset
    rw [hnull] at hset
    cases hset
  obtain ⟨s, hs⟩ := Option.isSome_iff_exists.mp hprofile
  unfold applyProperty writeSetting
  rw [if_neg hnull, hs]

theorem writeSetting_of_not_profile (p : CplmLoopDynamicsProfile) {e : String × Json}
    (h : isProfileProperty e.1 = false) : writeSetting p e = .ok p := by
  have hnone : setter e.1 = none := Option.isNone_iff_eq_none.mp (Option.isSome_eq_false_iff.mp h)
  unfold writeSetting
  rw [hnone]

theorem apply_profileValues (p : CplmLoopDynamicsProfile) (content : Dict String Json) :
    BundleProfileMapper.apply p (profileValues content) =
      (content.entries.filter fun e => isSet e.2).foldlM writeSetting p := by
  unfold BundleProfileMapper.apply
  rw [entries_profileValues]
  induction content.entries generalizing p with
  | nil => rfl
  | cons e rest ih =>
    rw [List.filter_cons, List.filter_cons]
    cases hset : isSet e.2 with
    | false =>
      simp only [Bool.false_eq_true, false_and, decide_false, if_false]
      exact ih p
    | true =>
      cases hprofile : isProfileProperty e.1 with
      | false =>
        simp only [Bool.false_eq_true, and_false, decide_false, if_false, if_true]
        rw [ih p, List.foldlM_cons, writeSetting_of_not_profile p hprofile]
        rfl
      | true =>
        have hresponse := not_response_of_setter hprofile
        simp only [hresponse, not_false_eq_true, and_self, decide_true, if_true]
        rw [List.foldlM_cons, List.foldlM_cons, applyProperty_eq_writeSetting p hset hprofile]
        congr 1
        funext p'
        exact ih p'

theorem overlay_eq (p : CplmLoopDynamicsProfile) (contents : List (Dict String Json)) :
    overlay p contents =
      (contents.flatMap fun content => content.entries.filter fun e => isSet e.2).foldlM
        writeSetting p := by
  unfold overlay
  induction contents generalizing p with
  | nil => rfl
  | cons content rest ih =>
    rw [List.foldlM_cons, List.flatMap_cons, List.foldlM_append, apply_profileValues]
    congr 1
    funext p'
    exact ih p'

/-- Every field that the settings write holds the value of the last one. -/
def Held (es : List (String × Json)) (p : CplmLoopDynamicsProfile) : Prop :=
  ∀ e ∈ es, ∀ s, setter e.1 = some s → FieldHolds es p s

def ReadableBy (es : List (String × Json)) : Prop :=
  ∀ e ∈ es, ∀ s, setter e.1 = some s → (s.read e.2 e.1).isOk = true

theorem Held.skip {es : List (String × Json)} {p : CplmLoopDynamicsProfile} (h : Held es p)
    {e : String × Json} (he : setter e.1 = none) : Held (es ++ [e]) p := by
  intro e' he' s hs
  rcases List.mem_append.mp he' with hmem | hmem
  · obtain ⟨pre, last, post, s', value, rfl, hlast, hfield, hlater, hread, hvalue⟩ := h e' hmem s hs
    refine ⟨pre, last, post ++ [e], s', value, by simp, hlast, hfield, ?_, hread, hvalue⟩
    intro later hmem t ht
    rcases List.mem_append.mp hmem with hmem | hmem
    · exact hlater later hmem t ht
    · obtain rfl := List.mem_singleton.mp hmem
      rw [he] at ht
      cases ht
  · obtain rfl := List.mem_singleton.mp hmem
    rw [he] at hs
    cases hs

theorem Held.write {es : List (String × Json)} {p : CplmLoopDynamicsProfile} (h : Held es p)
    {e : String × Json} {s : Setter} {value : s.field.Value} (he : setter e.1 = some s)
    (hread : s.read e.2 e.1 = .ok value) :
    Held (es ++ [e]) { p with values := Function.update p.values s.field value } := by
  intro e' he' t ht
  by_cases hfield : t.field = s.field
  · refine ⟨es, e, [], s, value, rfl, he, hfield.symm, by simp, hread, ?_⟩
    exact Function.update_self _ _ _
  · rcases List.mem_append.mp he' with hmem | hmem
    · obtain ⟨pre, last, post, s', value', rfl, hlast, hsame, hlater, hread', hvalue⟩ :=
        h e' hmem t ht
      refine ⟨pre, last, post ++ [e], s', value', by simp, hlast, hsame, ?_, hread', ?_⟩
      · intro later hmem u hu
        rcases List.mem_append.mp hmem with hmem | hmem
        · exact hlater later hmem u hu
        · obtain rfl := List.mem_singleton.mp hmem
          rw [he] at hu
          obtain rfl := Option.some.inj hu
          exact Ne.symm hfield
      · have hne : s'.field ≠ s.field := hsame ▸ hfield
        rw [← hvalue]
        exact Function.update_of_ne hne _ _
    · obtain rfl := List.mem_singleton.mp hmem
      rw [he] at ht
      obtain rfl := Option.some.inj ht
      exact absurd rfl hfield

theorem foldlM_writeSetting_concat (p : CplmLoopDynamicsProfile) (es : List (String × Json))
    (e : String × Json) : (es ++ [e]).foldlM writeSetting p =
      (es.foldlM writeSetting p).bind fun q => writeSetting q e := by
  rw [List.foldlM_append]
  change (es.foldlM writeSetting p).bind (fun q => [e].foldlM writeSetting q) = _
  congr 1
  funext q
  rw [List.foldlM_cons]
  exact bind_pure _

theorem of_foldlM_writeSetting {p p' : CplmLoopDynamicsProfile} {es : List (String × Json)}
    (h : es.foldlM writeSetting p = .ok p') : ReadableBy es ∧ Held es p' := by
  induction es using List.reverseRecOn generalizing p' with
  | nil => exact ⟨by simp [ReadableBy], by simp [Held]⟩
  | append_singleton init e ih =>
    rw [foldlM_writeSetting_concat] at h
    cases hinit : init.foldlM writeSetting p with
    | error message =>
      rw [hinit] at h
      cases h
    | ok q =>
      rw [hinit] at h
      obtain ⟨hreadable, hheld⟩ := ih hinit
      have hwrite : writeSetting q e = .ok p' := h
      unfold writeSetting at hwrite
      split at hwrite
      · rename_i s hs
        unfold BundleProfileMapper.set at hwrite
        cases hread : s.read e.2 e.1 with
        | error message =>
          rw [hread] at hwrite
          cases hwrite
        | ok value =>
          rw [hread] at hwrite
          obtain rfl := Except.ok.inj hwrite
          refine ⟨?_, hheld.write hs hread⟩
          intro e' he' t ht
          rcases List.mem_append.mp he' with hmem | hmem
          · exact hreadable e' hmem t ht
          · obtain rfl := List.mem_singleton.mp hmem
            rw [hs] at ht
            obtain rfl := Option.some.inj ht
            rw [hread]
            rfl
      · rename_i hs
        obtain rfl := Except.ok.inj hwrite
        refine ⟨?_, hheld.skip hs⟩
        intro e' he' t ht
        rcases List.mem_append.mp he' with hmem | hmem
        · exact hreadable e' hmem t ht
        · obtain rfl := List.mem_singleton.mp hmem
          rw [hs] at ht
          cases ht

theorem foldlM_writeSetting_of_readable {es : List (String × Json)} (h : ReadableBy es)
    (p : CplmLoopDynamicsProfile) : ∃ p', es.foldlM writeSetting p = .ok p' := by
  induction es generalizing p with
  | nil => exact ⟨p, rfl⟩
  | cons e rest ih =>
    have hrest : ReadableBy rest := fun e' he' => h e' (List.mem_cons_of_mem _ he')
    rw [List.foldlM_cons]
    cases hs : setter e.1 with
    | none =>
      have hwrite : writeSetting p e = .ok p := by
        unfold writeSetting
        rw [hs]
      rw [hwrite]
      exact ih hrest p
    | some s =>
      have hread := h e List.mem_cons_self s hs
      cases hvalue : s.read e.2 e.1 with
      | error message =>
        rw [hvalue] at hread
        cases hread
      | ok value =>
        have hwrite : writeSetting p e =
            .ok { p with values := Function.update p.values s.field value } := by
          unfold writeSetting BundleProfileMapper.set
          rw [hs]
          dsimp only
          rw [hvalue]
          rfl
        rw [hwrite]
        exact ih hrest _

/-! ## The response job -/

theorem getLast?_of_last {es pre post : List (String × Json)} {e : String × Json}
    (hes : es = pre ++ e :: post) (hlast : ∀ later ∈ post, later.1 ≠ e.1) :
    (es.filter (·.1 = e.1)).getLast? = some e := by
  have hfilter := @Compaction.filter_key_of_last (String × Json) String _ Prod.fst e pre post hlast
  rw [hes, hfilter, List.getLast?_concat]

theorem responseValues_eq (contents : List (Dict String Json)) :
    contents.foldl responseValues Dict.empty =
      (contents.flatMap fun content => content.entries.filter fun e => isSet e.2).foldl
        (fun d e => if e.1 ∈ responseProperties then d.set e.1 e.2 else d) Dict.empty := by
  have hlayer : ∀ (content d : Dict String Json), responseValues d content =
      (content.entries.filter fun e => isSet e.2).foldl
        (fun d e => if e.1 ∈ responseProperties then d.set e.1 e.2 else d) d := by
    intro content
    unfold responseValues
    induction content.entries with
    | nil => exact fun _ => rfl
    | cons e rest ih =>
      intro d
      rw [List.foldl_cons, List.filter_cons]
      cases hset : isSet e.2 with
      | false =>
        simp only [Bool.false_eq_true, false_and, if_false]
        exact ih d
      | true =>
        simp only [true_and, if_true]
        rw [List.foldl_cons]
        exact ih _
  generalize (Dict.empty : Dict String Json) = d
  induction contents generalizing d with
  | nil => rfl
  | cons content rest ih =>
    rw [List.foldl_cons, List.flatMap_cons, List.foldl_append, hlayer]
    exact ih _

theorem get?_responseValues {es : List (String × Json)} {property : String}
    (h : property ∈ responseProperties) :
    (es.foldl (fun d e => if e.1 ∈ responseProperties then d.set e.1 e.2 else d)
        (Dict.empty : Dict String Json)).get? property =
      (es.filter (·.1 = property)).getLast?.map Prod.snd := by
  have hfilter : (es.filter fun e => e.1 ∈ responseProperties).filter (·.1 = property) =
      es.filter (·.1 = property) := by
    rw [List.filter_filter]
    refine List.filter_congr fun e _ => ?_
    by_cases he : e.1 = property
    · simp [he, h]
    · simp [he]
  rw [Dict.get?_foldl_set, hfilter, Dict.get?_empty]
  cases (es.filter (·.1 = property)).getLast? <;> rfl

theorem get?_foldl_number {es : List (String × Json)} {property : String} {n : JsonNumber}
    (hn : (es.map Prod.fst).Nodup) (h : (property, .number n) ∈ es) :
    (es.foldl (fun d e =>
        match e.2 with
        | .number n => d.set e.1 n.toDouble
        | _ => d) (Dict.empty : Dict String Double)).get? property = some n.toDouble := by
  induction es using List.reverseRecOn with
  | nil => cases h
  | append_singleton init e ih =>
    rw [List.map_append, List.nodup_append] at hn
    obtain ⟨hinit, -, hdisjoint⟩ := hn
    rw [List.foldl_append, List.foldl_cons, List.foldl_nil]
    rcases List.mem_append.mp h with hmem | hmem
    · have hne : property ≠ e.1 :=
        hdisjoint property (List.mem_map.mpr ⟨_, hmem, rfl⟩) e.1 (by simp)
      split
      · rw [Dict.get?_set_of_ne _ _ hne]
        exact ih hinit hmem
      · exact ih hinit hmem
    · obtain rfl := List.mem_singleton.mp hmem
      exact Dict.get?_set_self _ _ _

theorem responseHolds_of_last {es pre post : List (String × Json)} {property : String}
    {n : JsonNumber} (p : CplmLoopDynamicsProfile) (h : property ∈ responseProperties)
    (hes : es = pre ++ (property, .number n) :: post) (hlast : ∀ later ∈ post, later.1 ≠ property)
    (hp : p.bundleResponseValues = numericValues
      (es.foldl (fun d e => if e.1 ∈ responseProperties then d.set e.1 e.2 else d) Dict.empty)) :
    ResponseHolds es p property := by
  have hget := @get?_responseValues es _ h
  rw [getLast?_of_last hes hlast] at hget
  generalize es.foldl (fun d e => if e.1 ∈ responseProperties then d.set e.1 e.2 else d)
    (Dict.empty : Dict String Json) = g12 at hget hp
  have hmem : (property, .number n) ∈ g12.entries := Dict.get?_eq_some_iff.mp hget
  refine ⟨pre, n, post, _, hes, hlast, ?_, get?_foldl_number g12.nodupKeys hmem⟩
  rw [hp]
  unfold numericValues
  exact if_neg (List.ne_nil_of_mem hmem)

/-! ## What validation has checked -/

theorem not_isReset_of_isSet {v : Json} (h : isSet v = true) :
    v.isNull = false ∧ isReset v = false := by
  unfold isSet at h
  rw [Bool.and_eq_true] at h
  exact ⟨by simpa using h.1, by simpa using h.2⟩

theorem checkProperty_of_validate {b : GateConfigBundle} {jobName property : String} {v : Json}
    (hvalid : b.validate jobName = .ok []) (hv : resolvedValue b property = some v) :
    GateConfigBundle.checkProperty property v = none := by
  have hproperties : GateConfigBundle.propertyReasons
      ((b.bundle.get "resolved").path "properties") = [] := by
    unfold GateConfigBundle.validate at hvalid
    cases hhash : b.recomputedHash with
    | error message =>
      rw [hhash] at hvalid
      cases hvalid
    | ok recomputed =>
      rw [hhash] at hvalid
      have hreasons := Except.ok.inj hvalid
      rw [List.append_eq_nil_iff, List.append_eq_nil_iff, List.append_eq_nil_iff] at hreasons
      exact hreasons.1.1.2
  unfold resolvedValue at hv
  unfold GateConfigBundle.propertyReasons at hproperties
  split at hproperties
  · rename_i members hmembers
    rw [hmembers] at hv
    have hget : (Json.readFields members).get? property = some v := hv
    obtain ⟨hchecks, -⟩ := List.append_eq_nil_iff.mp hproperties
    exact List.filterMap_eq_nil_iff.mp hchecks (property, v) (Dict.get?_eq_some_iff.mp hget)
  · cases hproperties

theorem readable_of_validate {b : GateConfigBundle} {jobName : String} {e : String × Json}
    (hvalid : b.validate jobName = .ok []) (hset : isSet e.2 = true) (hliteral : Literal e)
    (hresolved : resolvedValue b e.1 = some e.2) : Readable e := by
  have hcheck := checkProperty_of_validate hvalid hresolved
  obtain ⟨hnull, hreset⟩ := not_isReset_of_isSet hset
  constructor
  · intro s hs
    exact reads_of_checkProperty hs hnull hreset (hliteral s hs) hcheck
  · intro hresponse
    exact isNumber_of_checkProperty hresponse hnull hreset hcheck

theorem isSet_of_mem_settings {b : GateConfigBundle} {e : String × Json} (h : e ∈ settings b) :
    isSet e.2 = true := by
  obtain ⟨content, -, he⟩ := List.mem_flatMap.mp h
  simpa using (List.mem_filter.mp he).2

/-! ## The overlay of a bundle -/

theorem values_of_foldlM_writeSetting {p p' : CplmLoopDynamicsProfile} {es : List (String × Json)}
    {f : ProfileField} (h : es.foldlM writeSetting p = .ok p')
    (hf : ∀ e ∈ es, ∀ s, setter e.1 = some s → s.field ≠ f) : p'.values f = p.values f := by
  induction es generalizing p with
  | nil =>
    obtain rfl := Except.ok.inj h
    rfl
  | cons e rest ih =>
    have hrest := fun e' he' => hf e' (List.mem_cons_of_mem _ he')
    rw [List.foldlM_cons] at h
    cases hwrite : writeSetting p e with
    | error message =>
      rw [hwrite] at h
      cases h
    | ok q =>
      rw [hwrite] at h
      rw [ih h hrest]
      unfold writeSetting at hwrite
      split at hwrite
      · rename_i s hs
        unfold BundleProfileMapper.set at hwrite
        cases hread : s.read e.2 e.1 with
        | error message =>
          rw [hread] at hwrite
          cases hwrite
        | ok value =>
          rw [hread] at hwrite
          obtain rfl := Except.ok.inj hwrite
          exact Function.update_of_ne (hf e List.mem_cons_self s hs).symm _ _
      · obtain rfl := Except.ok.inj hwrite
        rfl

theorem apply_eq (p : CplmLoopDynamicsProfile) (s : Selected) (b : GateConfigBundle) :
    apply p { s with bundle := some b } =
      ((settings b).foldlM writeSetting p).map fun overlaid => { overlaid with
        bundleHash := some b.hash
        bundleEpoch := s.epoch
        bundleEffectiveFromMs := s.effectiveFromMs
        bundleChangeClass := s.changeClass
        bundleResponseValues := numericValues ((settings b).foldl
          (fun d e => if e.1 ∈ responseProperties then d.set e.1 e.2 else d) Dict.empty) } := by
  unfold apply settings
  rw [← overlay_eq, ← responseValues_eq]
  dsimp only
  cases overlay p (b.layerContents ["SITE", "PROFILE", "LOOP"]) <;> rfl

theorem mapped_of_readable {es : List (String × Json)} {p : CplmLoopDynamicsProfile}
    (hheld : Held es p) (hreadable : ∀ e ∈ es, Readable e)
    (hp : p.bundleResponseValues = numericValues
      (es.foldl (fun d e => if e.1 ∈ responseProperties then d.set e.1 e.2 else d) Dict.empty)) :
    ∀ e ∈ es, Supported e.1 → Mapped es p e.1 := by
  intro e he hsupported
  rcases hsupported with hprofile | hresponse
  · obtain ⟨s, hs⟩ := Option.isSome_iff_exists.mp hprofile
    exact Or.inl ⟨s, hs, hheld e he s hs⟩
  · have hexists : ∃ pre last post, es = pre ++ last :: post ∧ last.1 = e.1 ∧
        ∀ later ∈ post, later.1 ≠ last.1 := Compaction.exists_last ⟨e, he, rfl⟩
    obtain ⟨pre, last, post, hes, hkey, hlast⟩ := hexists
    have hmem : last ∈ es := hes ▸ List.mem_append_right pre List.mem_cons_self
    obtain ⟨property, v⟩ := last
    obtain rfl : property = e.1 := hkey
    have hnumber := (hreadable _ hmem).2 hresponse
    cases v with
    | number n => exact Or.inr ⟨hresponse, responseHolds_of_last p hresponse hes hlast hp⟩
    | null | bool | text | array | object => cases hnumber

/-- A bundle that a worker acknowledges is applied: the properties that the build supports are
mapped, and no other field changes, where the settings that validation has not seen as resolved
values can be read. -/
theorem acknowledged_bundle_applied {b : GateConfigBundle} {jobName : String}
    (hvalid : b.validate jobName = .ok []) (hliteral : ∀ e ∈ settings b, Literal e)
    (hunchecked : ∀ e ∈ settings b, resolvedValue b e.1 ≠ some e.2 → Readable e)
    (p : CplmLoopDynamicsProfile) (s : Selected) :
    ∃ p', apply p { s with bundle := some b } = .ok p' ∧
      (∀ e ∈ settings b, Supported e.1 → Mapped (settings b) p' e.1) ∧
      ∀ f, (∀ e ∈ settings b, ∀ t, setter e.1 = some t → t.field ≠ f) →
        p'.values f = p.values f := by
  have hreadable : ∀ e ∈ settings b, Readable e := by
    intro e he
    by_cases hresolved : resolvedValue b e.1 = some e.2
    · exact readable_of_validate hvalid (isSet_of_mem_settings he) (hliteral e he) hresolved
    · exact hunchecked e he hresolved
  have hby : ReadableBy (settings b) := fun e he t ht => by
    rw [isOk_read ht]
    exact (hreadable e he).1 t ht
  obtain ⟨overlaid, hfold⟩ := foldlM_writeSetting_of_readable hby p
  obtain ⟨-, hheld⟩ := of_foldlM_writeSetting hfold
  refine ⟨_, by rw [apply_eq, hfold]; rfl, ?_, ?_⟩
  · exact mapped_of_readable hheld hreadable rfl
  · intro f hf
    have hframe := values_of_foldlM_writeSetting hfold hf
    exact hframe

/-! ## Two acknowledged bundles -/

def unsetValue : (k : ProfileField.Kind) → k.Value
  | .number => (none : Option Double)
  | .integer => (0 : ℤ)
  | .role => GateRole.supporting

def classPack : CplmLoopDynamicsProfile where
  gateProfileId := some "LIQUID_LEVEL"
  values f := unsetValue f.kind
  bundleHash := none
  bundleEpoch := 0
  bundleEffectiveFromMs := 0
  bundleChangeClass := none
  bundleResponseValues := none

def samplesBundle : GateConfigBundle := (samples "PREPARE" 0).received

theorem settings_samplesBundle :
    settings samplesBundle = [("G5.min_samples_per_period", .number (.integral 5))] := rfl

theorem samples_bundle_applied :
    samplesBundle.validate "cplm-long-window" = .ok [] ∧
      ∃ p', apply classPack { (default : Selected) with bundle := some samplesBundle } = .ok p' ∧
        (∀ e ∈ settings samplesBundle, Supported e.1 → Mapped (settings samplesBundle) p' e.1) ∧
        ∀ f, (∀ e ∈ settings samplesBundle, ∀ t, setter e.1 = some t → t.field ≠ f) →
          p'.values f = classPack.values f := by
  have hvalid : samplesBundle.validate "cplm-long-window" = .ok [] := valid_samples _ 0
  refine ⟨hvalid, acknowledged_bundle_applied hvalid ?_ ?_ classPack default⟩
  · rw [settings_samplesBundle]
    intro e he t _ _ _
    obtain rfl := List.mem_singleton.mp he
    rfl
  · rw [settings_samplesBundle]
    intro e he hne
    obtain rfl := List.mem_singleton.mp he
    exact absurd rfl hne

def floorBundle : GateConfigBundle :=
  (ofSite "b-floor" "1f7844da7550f20f42616035e86de5573fdd6b5e0ce704853d40636bcf981f1f"
    "G0.min_samples" "PREPARE" 0).received

/-- A bundle with a property that the build does not support is acknowledged, and the property is
not mapped. -/
theorem unsupported_property_not_mapped :
    ¬ ∀ (b : GateConfigBundle) (jobName : String) (p : CplmLoopDynamicsProfile) (s : Selected),
      b.validate jobName = .ok [] →
        ∃ p', apply p { s with bundle := some b } = .ok p' ∧
          ∀ e ∈ settings b, Mapped (settings b) p' e.1 := by
  intro h
  have hvalid : floorBundle.validate "cplm-long-window" = .ok [] := by decide +kernel
  obtain ⟨p', -, hmapped⟩ := h floorBundle "cplm-long-window" classPack default hvalid
  have hset : ("G0.min_samples", .number (.integral 5)) ∈ settings floorBundle :=
    List.mem_singleton.mpr rfl
  rcases hmapped _ hset with ⟨s, hs, -⟩ | ⟨hresponse, -⟩
  · have hnone : isProfileProperty "G0.min_samples" = false := by decide
    unfold isProfileProperty at hnone
    rw [hs] at hnone
    cases hnone
  · exact absurd hresponse (by decide)

end EffectiveBundleSelector

end OpenBridge.GateConfig
