import OpenBridge.Foundation.Json

/-!
# Gate configuration: the merge of the layers

`EffectiveConfigResolver.Resolve` of the service: the layers of a bundle from the factory's to the
regime's, a value for every property of the catalogue, and the layer it comes from.
-/

namespace OpenBridge.GateConfig.EffectiveConfigResolver

open OpenBridge.Foundation

structure ConfigLayer where
  kind : String
  ref : Option String
  content : Json

def order : List String := ["FACTORY", "SITE", "PROFILE", "LOOP", "REGIME"]

/-- `Array.IndexOf(Order, kind)`. -/
def indexOf (kind : String) : ℤ :=
  match order.idxOf? kind with
  | some i => i
  | none => -1

/-- `Result`; `hash` is that of the resolved properties. -/
structure Result where
  properties : Dict String Json
  sources : Dict String String
  errors : List String
  hash : String

/-- The value is the text `RESET_TO_INHERITED`. -/
def isReset : Json → Bool
  | .text s => s = "RESET_TO_INHERITED"
  | _ => false

def isNull : Json → Bool
  | .null => true
  | _ => false

def overrides (v : Json) : Bool := !isReset v && !isNull v

/-- `TryGetProperty` of an object: of a repeated name the last one counts. -/
def tryGetProperty (content : Json) (name : String) : Option Json :=
  match content with
  | .object members => members.reverse.lookup name
  | _ => none

structure Pass where
  values : Dict String (Json × String)
  errors : List String

section Pass

variable (catalogue : List String) (layers : List ConfigLayer) (kind : String)

def lowerLayers : List ConfigLayer :=
  (layers.filter fun l => indexOf l.kind < indexOf kind).mergeSort fun a b =>
    indexOf a.kind ≤ indexOf b.kind

def fallTo (name : String) (values : Dict String (Json × String)) (lower : ConfigLayer) :
    Dict String (Json × String) :=
  match tryGetProperty lower.content name with
  | some lv => if overrides lv then values.set name (lv, lower.kind) else values
  | none => values

def fallBack (name : String) (values : Dict String (Json × String)) :
    Dict String (Json × String) :=
  (lowerLayers layers kind).foldl (fallTo name) (values.erase name)

def property (s : Pass) (p : String × Json) : Pass :=
  if p.1 ∉ catalogue then
    { s with errors := s.errors ++
        ["'" ++ p.1 ++ "' is not a catalogue property (" ++ kind ++ " layer)"] }
  else if isReset p.2 then { s with values := fallBack layers kind p.1 s.values }
  else if isNull p.2 then
    { s with errors := s.errors ++ ["'" ++ p.1 ++ "' is null in the " ++ kind ++
        " layer: a layer may set a value or RESET_TO_INHERITED, never null"] }
  else { s with values := s.values.set p.1 (p.2, kind) }

def layer (s : Pass) (l : ConfigLayer) : Pass :=
  match l.content with
  | .object members => members.foldl (property catalogue layers kind) s
  | _ => { s with errors := s.errors ++
      ["LAYER_CONTENT_INVALID: " ++ kind ++ " layer content must be an object"] }

def ofKind (s : Pass) : Pass :=
  (layers.filter fun l => l.kind = kind).foldl (layer catalogue layers kind) s

end Pass

def pass (catalogue : List String) (layers : List ConfigLayer) : Pass :=
  order.foldl (fun s kind => ofKind catalogue layers kind s) ⟨Dict.empty, []⟩

/-- `counts.GetValueOrDefault(kind)`. -/
def countOf (layers : List ConfigLayer) (kind : String) : ℕ :=
  (layers.filter fun l => l.kind = kind).length

def ambiguous (layers : List ConfigLayer) : List String :=
  (if 1 < countOf layers "PROFILE" then
    ["PROFILE_AMBIGUOUS: a bundle resolves exactly one profile layer, got " ++
      toString (countOf layers "PROFILE")] else []) ++
  (if 1 < countOf layers "REGIME" then
    ["REGIME_AMBIGUOUS: a bundle resolves exactly one regime layer, got " ++
      toString (countOf layers "REGIME")] else [])

def unknownKinds (layers : List ConfigLayer) : List String :=
  (layers.filter fun l => indexOf l.kind < 0).map fun l =>
    "LAYER_KIND_UNKNOWN: '" ++ l.kind ++ "' is not one of " ++ ", ".intercalate order

def properties (catalogue : List String) (values : Dict String (Json × String)) :
    Dict String Json × Dict String String :=
  catalogue.foldl (fun r name =>
    match values.get? name with
    | some v => (r.1.set name v.1, r.2.set name v.2)
    | none => (r.1.set name .null, r.2.set name "NO_VALUE")) (Dict.empty, Dict.empty)

def resolve (sha256 : Dict String Json → String) (catalogue : List String)
    (layers : List ConfigLayer) : Result :=
  if ambiguous layers ++ unknownKinds layers ≠ [] then
    ⟨Dict.empty, Dict.empty, ambiguous layers ++ unknownKinds layers, ""⟩
  else
    let s := pass catalogue layers
    let r := properties catalogue s.values
    ⟨r.1, r.2, s.errors, sha256 r.1⟩

/-! ## What the merge is for -/

/-- The layer sets the property: its entry is neither absent nor a reset nor null. -/
def Sets (l : ConfigLayer) (name : String) : Prop :=
  ∃ v, tryGetProperty l.content name = some v ∧ overrides v = true

/-- The value of the highest layer that sets the property, with the kind of the layer. -/
def Gives (layers : List ConfigLayer) (name : String) : Option (Json × String) → Prop
  | some (v, source) => ∃ l ∈ layers, l.kind = source ∧ tryGetProperty l.content name = some v ∧
      overrides v = true ∧ ∀ l' ∈ layers, indexOf l.kind < indexOf l'.kind → ¬ Sets l' name
  | none => ∀ l ∈ layers, ¬ Sets l name

/-- A layer that can be merged: of a known kind, with an object of catalogue properties, none null. -/
def WellFormed (catalogue : List String) (l : ConfigLayer) : Prop :=
  l.kind ∈ order ∧ ∃ members, l.content = .object members ∧
    ∀ p ∈ members, p.1 ∈ catalogue ∧ isNull p.2 = false

variable {catalogue : List String} {layers layers' : List ConfigLayer} {kind name : String}

theorem Gives.congr (h : ∀ l, l ∈ layers ↔ l ∈ layers') {r : Option (Json × String)}
    (hgives : Gives layers name r) : Gives layers' name r := by
  cases r with
  | none => exact fun l hl => hgives l ((h l).mpr hl)
  | some r =>
    obtain ⟨l, hl, hkind, hvalue, hsets, hhighest⟩ := hgives
    exact ⟨l, (h l).mp hl, hkind, hvalue, hsets, fun l' hl' => hhighest l' ((h l').mpr hl')⟩

theorem Gives.append_not {x : ConfigLayer} {r : Option (Json × String)}
    (h : Gives layers name r) (hx : ¬ Sets x name) : Gives (layers ++ [x]) name r := by
  cases r with
  | none =>
    intro l hl
    rcases List.mem_append.mp hl with hl | hl
    · exact h l hl
    · rwa [List.mem_singleton.mp hl]
  | some r =>
    obtain ⟨l, hl, hkind, hvalue, hsets, hhighest⟩ := h
    refine ⟨l, List.mem_append_left _ hl, hkind, hvalue, hsets, fun l' hl' hlt => ?_⟩
    rcases List.mem_append.mp hl' with hl' | hl'
    · exact hhighest l' hl' hlt
    · rwa [List.mem_singleton.mp hl']

theorem gives_append {x : ConfigLayer} {v : Json} (hv : tryGetProperty x.content name = some v)
    (hsets : overrides v = true) (hle : ∀ l ∈ layers, indexOf l.kind ≤ indexOf x.kind) :
    Gives (layers ++ [x]) name (some (v, x.kind)) := by
  refine ⟨x, List.mem_append_right _ List.mem_cons_self, rfl, hv, hsets, fun l' hl' hlt => ?_⟩
  rcases List.mem_append.mp hl' with hl' | hl'
  · exact absurd hlt (not_lt.mpr (hle l' hl'))
  · rw [List.mem_singleton.mp hl'] at hlt
    exact absurd hlt (lt_irrefl _)

/-! ## The errors -/

theorem errors_foldl {α : Type} {f : Pass → α → Pass} {ok : α → Prop} {l : List α}
    (h : ∀ s, ∀ x ∈ l, (f s x).errors = [] ↔ s.errors = [] ∧ ok x) (s : Pass) :
    (l.foldl f s).errors = [] ↔ s.errors = [] ∧ ∀ x ∈ l, ok x := by
  induction l generalizing s with
  | nil => simp
  | cons x rest ih =>
    rw [List.foldl_cons, ih fun s y hy => h s y (List.mem_cons_of_mem _ hy),
      h s x List.mem_cons_self, List.forall_mem_cons, and_assoc]

theorem errors_property (s : Pass) (p : String × Json) :
    (property catalogue layers kind s p).errors = [] ↔
      s.errors = [] ∧ p.1 ∈ catalogue ∧ isNull p.2 = false := by
  unfold property
  split
  · rename_i hname
    refine iff_of_false ?_ fun h => hname h.2.1
    dsimp only
    exact List.append_ne_nil_of_right_ne_nil _ (List.cons_ne_nil _ _)
  · rename_i hname
    split
    · rename_i hreset
      have hvalue : isNull p.2 = false := by
        cases hp : p.2 with
        | text s => rfl
        | _ => rw [hp] at hreset; cases hreset
      exact ⟨fun h => ⟨h, not_not.mp hname, hvalue⟩, And.left⟩
    · split
      · rename_i hnull
        refine iff_of_false ?_ fun h => by rw [h.2.2] at hnull; cases hnull
        exact List.append_ne_nil_of_right_ne_nil _ (List.cons_ne_nil _ _)
      · rename_i hnull
        exact ⟨fun h => ⟨h, not_not.mp hname, Bool.eq_false_iff.mpr hnull⟩, And.left⟩

theorem errors_layer (s : Pass) (l : ConfigLayer) :
    (layer catalogue layers kind s l).errors = [] ↔
      s.errors = [] ∧ ∃ members, l.content = .object members ∧
        ∀ p ∈ members, p.1 ∈ catalogue ∧ isNull p.2 = false := by
  unfold layer
  split
  · rename_i members hcontent
    rw [errors_foldl fun s p _ => errors_property s p, hcontent]
    refine and_congr_right fun _ => ⟨fun h => ⟨members, rfl, h⟩, ?_⟩
    rintro ⟨members', heq, h⟩
    obtain rfl := Json.object.inj heq
    exact h
  · rename_i hcontent
    refine iff_of_false (List.append_ne_nil_of_right_ne_nil _ (List.cons_ne_nil _ _)) ?_
    rintro ⟨-, members, heq, -⟩
    exact hcontent members heq

theorem errors_ofKind (s : Pass) (kind : String) :
    (ofKind catalogue layers kind s).errors = [] ↔
      s.errors = [] ∧ ∀ l ∈ layers.filter fun l => l.kind = kind, ∃ members,
        l.content = .object members ∧ ∀ p ∈ members, p.1 ∈ catalogue ∧ isNull p.2 = false :=
  errors_foldl (fun s l _ => errors_layer s l) s

theorem errors_pass : (pass catalogue layers).errors = [] ↔ ∀ l ∈ layers, l.kind ∈ order →
    ∃ members, l.content = .object members ∧
      ∀ p ∈ members, p.1 ∈ catalogue ∧ isNull p.2 = false := by
  unfold pass
  rw [errors_foldl fun s kind _ => errors_ofKind s kind]
  constructor
  · rintro ⟨-, h⟩ l hl hkind
    exact h l.kind hkind l (List.mem_filter.mpr ⟨hl, decide_eq_true rfl⟩)
  · refine fun h => ⟨rfl, fun kind hkind l hl => ?_⟩
    obtain ⟨hl, hsame⟩ := List.mem_filter.mp hl
    exact h l hl ((of_decide_eq_true hsame).symm ▸ hkind)

theorem indexOf_nonneg_iff : 0 ≤ indexOf kind ↔ kind ∈ order := by
  unfold indexOf
  rw [← List.isSome_idxOf?]
  split
  · rename_i i h
    rw [h]
    exact iff_of_true (Int.natCast_nonneg i) rfl
  · rename_i h
    rw [h]
    exact iff_of_false (by decide) Bool.false_ne_true

theorem countOf_le (hnodup : (layers.map ConfigLayer.kind).Nodup) (kind : String) :
    countOf layers kind ≤ 1 := by
  have hcount := List.nodup_iff_count_le_one.mp hnodup kind
  unfold countOf
  rw [List.count, List.countP_map, List.countP_eq_length_filter] at hcount
  refine le_trans (le_of_eq (congrArg _ (List.filter_congr fun l _ => ?_))) hcount
  rw [Function.comp_apply, beq_eq_decide]

theorem ambiguous_eq_nil (hnodup : (layers.map ConfigLayer.kind).Nodup) : ambiguous layers = [] := by
  unfold ambiguous
  rw [if_neg (not_lt.mpr (countOf_le hnodup _)), if_neg (not_lt.mpr (countOf_le hnodup _))]
  rfl

theorem unknownKinds_eq_nil : unknownKinds layers = [] ↔ ∀ l ∈ layers, l.kind ∈ order := by
  unfold unknownKinds
  rw [List.map_eq_nil_iff, List.filter_eq_nil_iff]
  refine forall₂_congr fun l _ => ?_
  rw [decide_eq_true_eq, not_lt, indexOf_nonneg_iff]

theorem errors_resolve (sha256 : Dict String Json → String)
    (hnodup : (layers.map ConfigLayer.kind).Nodup) :
    (resolve sha256 catalogue layers).errors = [] ↔ ∀ l ∈ layers, WellFormed catalogue l := by
  unfold resolve
  rw [ambiguous_eq_nil hnodup, List.nil_append]
  split
  · rename_i hunknown
    refine iff_of_false hunknown fun h => hunknown ?_
    exact unknownKinds_eq_nil.mpr fun l hl => (h l hl).1
  · rename_i hknown
    rw [not_not, unknownKinds_eq_nil] at hknown
    dsimp only
    rw [errors_pass]
    constructor
    · exact fun h l hl => ⟨hknown l hl, h l hl (hknown l hl)⟩
    · exact fun h l hl _ => (h l hl).2

/-! ## The values -/

theorem get?_fallTo (values : Dict String (Json × String)) (l : ConfigLayer) (n : String) :
    (∀ m ≠ n, (fallTo n values l).get? m = values.get? m) ∧
      ((∃ v, tryGetProperty l.content n = some v ∧ overrides v = true ∧
          (fallTo n values l).get? n = some (v, l.kind)) ∨
        (¬ Sets l n ∧ (fallTo n values l).get? n = values.get? n)) := by
  unfold fallTo
  split
  · rename_i lv hlv
    split
    · rename_i hsets
      exact ⟨fun m hm => Dict.get?_set_of_ne _ _ hm, .inl ⟨lv, hlv, hsets, Dict.get?_set_self _ _ _⟩⟩
    · rename_i hnot
      refine ⟨fun m _ => rfl, .inr ⟨?_, rfl⟩⟩
      rintro ⟨v, hv, hsets⟩
      obtain rfl := Option.some.inj (hlv.symm.trans hv)
      exact hnot hsets
  · rename_i hnone
    refine ⟨fun m _ => rfl, .inr ⟨?_, rfl⟩⟩
    rintro ⟨v, hv, -⟩
    rw [hnone] at hv
    cases hv

theorem gives_foldl_fallTo {l : List ConfigLayer}
    (hsorted : l.Pairwise fun a b => indexOf a.kind ≤ indexOf b.kind)
    (values : Dict String (Json × String)) (n : String) (hstart : values.get? n = none) :
    (∀ m ≠ n, (l.foldl (fallTo n) values).get? m = values.get? m) ∧
      Gives l n ((l.foldl (fallTo n) values).get? n) := by
  induction l using List.reverseRecOn with
  | nil =>
    rw [List.foldl_nil, hstart]
    exact ⟨fun m _ => rfl, fun l hl => absurd hl List.not_mem_nil⟩
  | append_singleton l x ih =>
    obtain ⟨hl, -, hle⟩ := List.pairwise_append.mp hsorted
    obtain ⟨hothers, hgives⟩ := ih hl
    rw [List.foldl_concat]
    obtain ⟨hframe, hset⟩ := get?_fallTo (l.foldl (fallTo n) values) x n
    refine ⟨fun m hm => (hframe m hm).trans (hothers m hm), ?_⟩
    rcases hset with ⟨v, hv, hsets, heq⟩ | ⟨hnot, heq⟩
    · rw [heq]
      exact gives_append hv hsets fun y hy => hle y hy x List.mem_cons_self
    · rw [heq]
      exact hgives.append_not hnot

theorem mem_lowerLayers {l : ConfigLayer} :
    l ∈ lowerLayers layers kind ↔ l ∈ layers ∧ indexOf l.kind < indexOf kind := by
  unfold lowerLayers
  rw [List.mem_mergeSort, List.mem_filter, decide_eq_true_eq]

theorem pairwise_lowerLayers :
    (lowerLayers layers kind).Pairwise fun a b => indexOf a.kind ≤ indexOf b.kind := by
  have hmerge := @List.pairwise_mergeSort _ (fun a b : ConfigLayer =>
    decide (indexOf a.kind ≤ indexOf b.kind))
    (fun a b c hab hbc => by simp only [decide_eq_true_eq] at *; omega)
    (fun a b => by simp only [Bool.or_eq_true, decide_eq_true_eq]; omega)
    (layers.filter fun l => indexOf l.kind < indexOf kind)
  exact hmerge.imp fun h => of_decide_eq_true h

theorem gives_fallBack (values : Dict String (Json × String)) (n : String) :
    (∀ m ≠ n, (fallBack layers kind n values).get? m = values.get? m) ∧
      Gives (lowerLayers layers kind) n ((fallBack layers kind n values).get? n) := by
  obtain ⟨hframe, hgives⟩ := gives_foldl_fallTo pairwise_lowerLayers (values.erase n) n
    (by rw [Dict.get?_erase, if_pos rfl])
  refine ⟨fun m hm => (hframe m hm).trans ?_, hgives⟩
  rw [Dict.get?_erase, if_neg hm]

/-- After some members of a layer: the last entry of a property counts, over what the layers below
give. -/
def AfterMembers (layers : List ConfigLayer) (kind : String) (members : List (String × Json))
    (name : String) (r : Option (Json × String)) : Prop :=
  match members.reverse.lookup name with
  | some v =>
      if overrides v = true then r = some (v, kind)
      else Gives (lowerLayers layers kind) name r
  | none => Gives (lowerLayers layers kind) name r

theorem afterMembers_property {s : Pass} {members : List (String × Json)} {p : String × Json}
    (h : ∀ n, AfterMembers layers kind members n (s.values.get? n)) (hname : p.1 ∈ catalogue)
    (hvalue : isNull p.2 = false) (n : String) :
    AfterMembers layers kind (members ++ [p]) n
      ((property catalogue layers kind s p).values.get? n) := by
  have hlookup : (members ++ [p]).reverse.lookup n =
      if n = p.1 then some p.2 else members.reverse.lookup n := by
    rw [List.reverse_append, List.reverse_singleton, List.singleton_append, List.lookup_cons]
    split
    · rename_i heq
      rw [if_pos (eq_of_beq heq)]
    · rename_i hne
      exact (if_neg (ne_of_beq_false hne)).symm
  unfold AfterMembers
  rw [hlookup]
  rcases Bool.eq_false_or_eq_true (isReset p.2) with hreset | hset
  · have hnot : overrides p.2 ≠ true := by
      unfold overrides
      rw [hreset]
      exact Bool.false_ne_true
    obtain ⟨hframe, hgives⟩ := @gives_fallBack layers kind s.values p.1
    have hnext : (property catalogue layers kind s p).values =
        fallBack layers kind p.1 s.values := by
      unfold property
      rw [if_neg (not_not.mpr hname), if_pos hreset]
    rw [hnext]
    rcases eq_or_ne n p.1 with rfl | hne
    · rw [if_pos rfl]
      dsimp only
      rw [if_neg hnot]
      exact hgives
    · rw [if_neg hne, hframe n hne]
      exact h n
  · have hoverrides : overrides p.2 = true := by
      unfold overrides
      rw [hvalue, hset]
      rfl
    have hnext : (property catalogue layers kind s p).values = s.values.set p.1 (p.2, kind) := by
      unfold property
      rw [if_neg (not_not.mpr hname), hset, hvalue]
      rfl
    rw [hnext]
    rcases eq_or_ne n p.1 with rfl | hne
    · rw [if_pos rfl]
      dsimp only
      rw [if_pos hoverrides]
      exact Dict.get?_set_self _ _ _
    · rw [if_neg hne, Dict.get?_set_of_ne _ _ hne]
      exact h n

theorem gives_layer {s : Pass} {l : ConfigLayer} (hkind : l.kind = kind)
    (h : ∀ n, Gives (lowerLayers layers kind) n (s.values.get? n))
    (hl : WellFormed catalogue l) (n : String) :
    Gives (lowerLayers layers kind ++ [l]) n
      ((layer catalogue layers kind s l).values.get? n) := by
  obtain ⟨-, members, hcontent, hok⟩ := hl
  have hmembers : ∀ n, AfterMembers layers kind members n
      ((members.foldl (property catalogue layers kind) s).values.get? n) := by
    clear hcontent
    induction members using List.reverseRecOn with
    | nil => exact h
    | append_singleton members p ih =>
      intro n
      rw [List.foldl_concat]
      have hp := hok p (List.mem_append_right _ List.mem_cons_self)
      exact afterMembers_property (ih fun q hq => hok q (List.mem_append_left _ hq)) hp.1 hp.2 n
  have hlayer : layer catalogue layers kind s l =
      members.foldl (property catalogue layers kind) s := by
    unfold layer
    rw [hcontent]
  have hget : tryGetProperty l.content n = members.reverse.lookup n := by rw [hcontent]; rfl
  have hafter := hmembers n
  rw [hlayer]
  unfold AfterMembers at hafter
  rw [← hget] at hafter
  split at hafter
  · rename_i v hv
    split at hafter
    · rename_i hsets
      rw [hafter, ← hkind]
      exact gives_append hv hsets fun y hy => le_of_lt (mem_lowerLayers.mp hy).2
    · rename_i hnot
      refine hafter.append_not ?_
      rintro ⟨v', hv', hsets⟩
      obtain rfl := Option.some.inj (hv.symm.trans hv')
      exact hnot hsets
  · rename_i hnone
    refine hafter.append_not ?_
    rintro ⟨v', hv', -⟩
    rw [hnone] at hv'
    cases hv'

def Below (layers : List ConfigLayer) (i : ℤ) (s : Pass) : Prop :=
  ∀ n, Gives (layers.filter fun l => indexOf l.kind < i) n (s.values.get? n)

theorem eq_of_indexOf_eq {a b : String} (ha : a ∈ order) (h : indexOf a = indexOf b) : a = b := by
  have hb : b ∈ order := by
    rw [← indexOf_nonneg_iff, ← h, indexOf_nonneg_iff]
    exact ha
  have hall : ∀ a ∈ order, ∀ b ∈ order, indexOf a = indexOf b → a = b := by decide
  exact hall a ha b hb h

theorem below_ofKind {s : Pass} (hnodup : (layers.map ConfigLayer.kind).Nodup)
    (hok : ∀ l ∈ layers, WellFormed catalogue l) (hkind : kind ∈ order)
    (h : Below layers (indexOf kind) s) :
    Below layers (indexOf kind + 1) (ofKind catalogue layers kind s) := by
  have hlower : ∀ n, Gives (lowerLayers layers kind) n (s.values.get? n) := fun n =>
    (h n).congr fun l => by rw [mem_lowerLayers, List.mem_filter, decide_eq_true_eq]
  have hsame (l : ConfigLayer) (hl : l ∈ layers) : indexOf l.kind = indexOf kind ↔ l.kind = kind :=
    ⟨fun heq => (eq_of_indexOf_eq hkind heq.symm).symm, congrArg indexOf⟩
  have hcount := countOf_le hnodup kind
  unfold countOf at hcount
  intro n
  unfold ofKind
  rcases hfilter : layers.filter (fun l => l.kind = kind) with _ | ⟨l, rest⟩
  · rw [hfilter]
    refine (h n).congr fun l => ?_
    rw [List.mem_filter, List.mem_filter, decide_eq_true_eq, decide_eq_true_eq]
    refine and_congr_right fun hl => ?_
    have hne : l.kind ≠ kind := fun heq =>
      List.filter_eq_nil_iff.mp hfilter l hl (decide_eq_true heq)
    have hindex := (hsame l hl).not.mpr hne
    omega
  · have hrest : rest = [] := by
      rw [hfilter, List.length_cons] at hcount
      exact List.length_eq_zero_iff.mp (by omega)
    subst hrest
    rw [hfilter]
    have hmem : l ∈ layers.filter fun l => l.kind = kind := by
      rw [hfilter]
      exact List.mem_cons_self
    obtain ⟨hl, hlkind⟩ := List.mem_filter.mp hmem
    have hlkind := of_decide_eq_true hlkind
    refine (gives_layer hlkind hlower (hok l hl) n).congr fun l' => ?_
    rw [List.mem_append, mem_lowerLayers, List.mem_singleton, List.mem_filter, decide_eq_true_eq]
    constructor
    · rintro (⟨hl', hlt⟩ | rfl)
      · exact ⟨hl', by omega⟩
      · exact ⟨hl, by rw [hlkind]; omega⟩
    · rintro ⟨hl', hlt⟩
      rcases lt_or_eq_of_le (Int.lt_add_one_iff.mp hlt) with hlt | heq
      · exact .inl ⟨hl', hlt⟩
      · right
        have hmem' : l' ∈ layers.filter fun l => l.kind = kind :=
          List.mem_filter.mpr ⟨hl', decide_eq_true ((hsame l' hl').mp heq)⟩
        rw [hfilter] at hmem'
        exact List.mem_singleton.mp hmem'

theorem gives_pass (hnodup : (layers.map ConfigLayer.kind).Nodup)
    (hok : ∀ l ∈ layers, WellFormed catalogue l) (n : String) :
    Gives layers n ((pass catalogue layers).values.get? n) := by
  have hstart : Below layers 0 ⟨Dict.empty, []⟩ := fun n l hl => by
    obtain ⟨hl, hneg⟩ := List.mem_filter.mp hl
    have hpos := indexOf_nonneg_iff.mpr (hok l hl).1
    exact absurd (of_decide_eq_true hneg) (not_lt.mpr hpos)
  have hfactory := below_ofKind hnodup hok (show "FACTORY" ∈ order by decide) hstart
  have hsite := below_ofKind hnodup hok (show "SITE" ∈ order by decide) hfactory
  have hprofile := below_ofKind hnodup hok (show "PROFILE" ∈ order by decide) hsite
  have hloop := below_ofKind hnodup hok (show "LOOP" ∈ order by decide) hprofile
  have hregime := below_ofKind hnodup hok (show "REGIME" ∈ order by decide) hloop
  refine (hregime n).congr fun l => ?_
  rw [List.mem_filter, decide_eq_true_eq]
  refine ⟨And.left, fun hl => ⟨hl, ?_⟩⟩
  have hbound : ∀ kind ∈ order, indexOf kind < indexOf "REGIME" + 1 := by decide
  exact hbound _ (hok l hl).1

theorem get?_properties (values : Dict String (Json × String)) (hname : name ∈ catalogue) :
    (properties catalogue values).1.get? name =
        some ((values.get? name).elim .null Prod.fst) ∧
      (properties catalogue values).2.get? name =
        some ((values.get? name).elim "NO_VALUE" Prod.snd) := by
  unfold properties
  induction catalogue using List.reverseRecOn with
  | nil => exact absurd hname List.not_mem_nil
  | append_singleton names x ih =>
    rw [List.foldl_concat]
    rcases eq_or_ne name x with rfl | hne
    · split
      · rename_i v hv
        rw [hv]
        exact ⟨Dict.get?_set_self _ _ _, Dict.get?_set_self _ _ _⟩
      · rename_i hnone
        rw [hnone]
        exact ⟨Dict.get?_set_self _ _ _, Dict.get?_set_self _ _ _⟩
    · have hrest := ih ((List.mem_append.mp hname).resolve_right fun h =>
        hne (List.mem_singleton.mp h))
      split
      · rw [Dict.get?_set_of_ne _ _ hne, Dict.get?_set_of_ne _ _ hne]
        exact hrest
      · rw [Dict.get?_set_of_ne _ _ hne, Dict.get?_set_of_ne _ _ hne]
        exact hrest

/-! ## The order of the list -/

section Order

variable (hnodup : (layers.map ConfigLayer.kind).Nodup) (hperm : layers'.Perm layers)

include hnodup hperm in
theorem filter_kind_eq (kind : String) :
    layers'.filter (fun l => l.kind = kind) = layers.filter (fun l => l.kind = kind) := by
  have hcount := countOf_le hnodup kind
  have hfilter := hperm.filter fun l => decide (l.kind = kind)
  unfold countOf at hcount
  rcases hlist : layers.filter (fun l => decide (l.kind = kind)) with _ | ⟨l, rest⟩
  · rw [hlist] at hfilter ⊢
    exact hfilter.eq_nil
  · rw [hlist] at hfilter hcount ⊢
    obtain rfl : rest = [] := List.length_eq_zero_iff.mp (by simpa using hcount)
    exact List.perm_singleton.mp hfilter

include hnodup hperm in
theorem lowerLayers_eq (hknown : ∀ l ∈ layers, l.kind ∈ order) (kind : String) :
    lowerLayers layers' kind = lowerLayers layers kind := by
  have hsorted (ls : List ConfigLayer) :
      (lowerLayers ls kind).Pairwise fun a b => indexOf a.kind ≤ indexOf b.kind := pairwise_lowerLayers
  refine List.Perm.eq_of_pairwise (fun a b ha hb hab hba => ?_) (hsorted layers') (hsorted layers) ?_
  · have ha := hperm.mem_iff.mp (mem_lowerLayers.mp ha).1
    have hb := (mem_lowerLayers.mp hb).1
    have hkind := eq_of_indexOf_eq (hknown a ha) (le_antisymm hab hba)
    exact List.inj_on_of_nodup_map hnodup ha hb hkind
  · exact (List.mergeSort_perm _ _).trans ((hperm.filter _).trans (List.mergeSort_perm _ _).symm)

include hnodup hperm in
theorem pass_eq (hknown : ∀ l ∈ layers, l.kind ∈ order) :
    pass catalogue layers' = pass catalogue layers := by
  have hproperty (kind : String) : property catalogue layers' kind = property catalogue layers kind := by
    funext s p
    unfold property fallBack
    rw [lowerLayers_eq hnodup hperm hknown]
  have hlayer (kind : String) : layer catalogue layers' kind = layer catalogue layers kind := by
    funext s l
    unfold layer
    rw [hproperty]
  have hkind : ofKind catalogue layers' = ofKind catalogue layers := by
    funext kind s
    unfold ofKind
    rw [hlayer, filter_kind_eq hnodup hperm]
  unfold pass
  rw [hkind]

end Order

def twoLayers (site : Json) : List ConfigLayer :=
  [⟨"FACTORY", none, .object [("G2.band", .bool true)]⟩, ⟨"SITE", none, .object [("G2.band", site)]⟩]

end OpenBridge.GateConfig.EffectiveConfigResolver
