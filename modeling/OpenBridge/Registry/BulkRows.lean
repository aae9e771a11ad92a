import OpenBridge.Registry.BulkWrites

/-!
# Registry: one row, written either way

A row that a batch writes on its own is written as `ActivateAsync` would write it, apart from the
engineering column, where the model it declares is whole or the stored one is no explicit model.
-/

namespace OpenBridge.Registry

open OpenBridge.Foundation

namespace CpmLoopRegistryService

open LoopModelDimensions

variable {p : Platform} {r : CpmLoopActivateRequest}

/-! ## The model of a row -/

theorem acquisition_resolve (loopType : String) (model : Option CpmLoopModel) (stored : Option Resolved) :
    (resolve loopType model stored).acquisition =
      (model.bind CpmLoopModel.acquisition).getD (baseline loopType stored).acquisition := by
  unfold resolve
  dsimp only
  cases model with
  | none => rfl
  | some m =>
    dsimp only
    split
    · rename_i hempty
      unfold CpmLoopModel.isEmpty at hempty
      rw [Option.bind_some, (of_decide_eq_true hempty).2.2.2.2.2]
      rfl
    · rfl

def declared (r : CpmLoopActivateRequest) : Option CpmLoopModel := r.model.filter fun m => ¬ m.isEmpty

/-- A stored explicit model that a bulk update leaves as an update on its own would: what the request
does not declare is that of the preset, and where it declares nothing the acquisition contract is
written as it is read. -/
def KeepsModel (r : CpmLoopActivateRequest) (m : ModelColumns) : Prop :=
  let preset := presetFor r.loopType
  match declared r with
  | none => acquisitionJson (readAcquisition m.acquisition) = some m.acquisition
  | some d =>
      (isNullOrWhiteSpace d.serviceFamily → m.serviceFamily = preset.serviceFamily) ∧
        (isNullOrWhiteSpace d.dynamicClass → m.dynamicClass = preset.dynamicClass) ∧
        (isNullOrWhiteSpace d.objectiveType → m.objectiveType = preset.objectiveType) ∧
        (isNullOrWhiteSpace d.topology → m.topology = preset.topology) ∧
        (isNullOrWhiteSpace d.commandPath → m.commandPath = preset.commandPath) ∧
        (d.acquisition = none →
          acquisitionJson (readAcquisition m.acquisition) = acquisitionJson preset.acquisition)

theorem resolve_of_declared_none (h : declared r = none) (stored : Option Resolved) :
    resolve r.loopType r.model stored = baseline r.loopType stored := by
  unfold declared at h
  unfold resolve
  dsimp only
  cases hmodel : r.model with
  | none => rfl
  | some m =>
    rw [hmodel, Option.filter_some] at h
    split at h
    · cases h
    · rename_i hempty
      rw [decide_eq_true_eq, not_not] at hempty
      dsimp only
      rw [if_pos hempty]

theorem resolve_of_declared {d : CpmLoopModel} (h : declared r = some d) (stored : Option Resolved) :
    resolve r.loopType r.model stored =
      { serviceFamily := pickOptional d.serviceFamily (baseline r.loopType stored).serviceFamily
        dynamicClass := pickOptional d.dynamicClass (baseline r.loopType stored).dynamicClass
        objectiveType := pick d.objectiveType (baseline r.loopType stored).objectiveType
        topology := pick d.topology (baseline r.loopType stored).topology
        commandPath := pick d.commandPath (baseline r.loopType stored).commandPath
        acquisition := d.acquisition.getD (baseline r.loopType stored).acquisition
        classificationSource := .explicit } := by
  unfold declared at h
  obtain ⟨hmodel, hempty⟩ := Option.filter_eq_some_iff.mp h
  unfold resolve
  dsimp only
  rw [hmodel]
  dsimp only
  rw [if_neg (of_decide_eq_true hempty)]

theorem pick_congr {value : Option String} {a b : String} (h : isNullOrWhiteSpace value → a = b) :
    pick value a = pick value b := by
  unfold pick
  split
  · rename_i hblank
    exact h hblank
  · rfl

theorem pickOptional_congr {value a b : Option String} (h : isNullOrWhiteSpace value → a = b) :
    pickOptional value a = pickOptional value b := by
  unfold pickOptional
  split
  · rename_i hblank
    exact h hblank
  · rfl

theorem mergeModel_of_explicit {m : ModelColumns} (h : m.classificationSource = .explicit)
    (x : ModelColumns) : mergeModel m x = m := by
  obtain ⟨family, dyn, objective, topology, path, acquisition, source⟩ := m
  obtain rfl : source = .explicit := h
  rfl

theorem mergeModel_of_stored_preset {m x : ModelColumns} (h : m.classificationSource = .presetFromLoopType)
    (hx : x.classificationSource = .presetFromLoopType) : mergeModel m x = m := by
  obtain ⟨family, dyn, objective, topology, path, acquisition, source⟩ := m
  obtain rfl : source = .presetFromLoopType := h
  unfold mergeModel
  rw [hx]
  rfl

theorem mergeModel_of_stored_explicit {m x : ModelColumns}
    (h : m.classificationSource = .presetFromLoopType) (hx : x.classificationSource = .explicit) :
    mergeModel m x = x := by
  obtain ⟨family, dyn, objective, topology, path, acquisition, source⟩ := x
  obtain rfl : source = .explicit := hx
  unfold mergeModel
  rw [h]
  rfl

theorem ofResolved_resolve {x m : ModelColumns}
    (hkept : x.classificationSource = .explicit → KeepsModel r x)
    (hm : ModelColumns.ofResolved (bulkModel r) = some m) :
    ModelColumns.ofResolved (resolve r.loopType r.model (some x.fromRow)) = some (mergeModel m x) := by
  have hsource : m.classificationSource = (bulkModel r).classificationSource := by
    obtain ⟨acquisition, -, rfl⟩ := Option.map_eq_some_iff.mp hm
    rfl
  unfold bulkModel at hm hsource
  cases hx : x.classificationSource with
  | presetFromLoopType =>
    have hbase : baseline r.loopType (some x.fromRow) = baseline r.loopType none := by
      unfold baseline ModelColumns.fromRow
      dsimp only
      rw [hx]
      exact if_neg nofun
    have hresolve : resolve r.loopType r.model (some x.fromRow) = resolve r.loopType r.model none := by
      unfold resolve
      rw [hbase]
    rw [hresolve, hm]
    cases hms : m.classificationSource with
    | presetFromLoopType => rw [mergeModel_of_stored_preset hms hx]
    | explicit => rw [mergeModel_of_explicit hms]
  | explicit =>
    have hbase : baseline r.loopType (some x.fromRow) = x.fromRow := if_pos hx
    have hkept := hkept hx
    unfold KeepsModel at hkept
    dsimp only at hkept
    cases hdeclared : declared r with
    | none =>
      rw [hdeclared] at hkept
      rw [resolve_of_declared_none hdeclared] at hsource ⊢
      rw [hbase]
      rw [mergeModel_of_stored_explicit hsource hx]
      unfold ModelColumns.ofResolved ModelColumns.fromRow
      dsimp only
      rw [hkept, Option.map_some]
    | some d =>
      rw [hdeclared] at hkept
      obtain ⟨hfamily, hclass, hobjective, htopology, hpath, hacquisition⟩ := hkept
      rw [resolve_of_declared hdeclared] at hsource hm ⊢
      rw [hbase]
      rw [mergeModel_of_explicit hsource, ← hm]
      unfold ModelColumns.ofResolved ModelColumns.fromRow
      dsimp only
      rw [pickOptional_congr hfamily, pickOptional_congr hclass, pick_congr hobjective,
        pick_congr htopology, pick_congr hpath]
      have hjson : acquisitionJson (d.acquisition.getD (readAcquisition x.acquisition)) =
          acquisitionJson (d.acquisition.getD (presetFor r.loopType).acquisition) := by
        cases had : d.acquisition with
        | none => exact hacquisition had
        | some a => rfl
      rw [hjson]
      rfl

/-! ## One row, written either way -/

theorem fits_ofResolved {d : Resolved} (h : InContract d) {m : ModelColumns}
    (hm : ModelColumns.ofResolved d = some m) : m.fits = true := by
  obtain ⟨acquisition, -, rfl⟩ := Option.map_eq_some_iff.mp hm
  exact decide_eq_true ⟨h.serviceFamily, h.dynamicClass, h.objectiveType, h.topology, h.commandPath⟩

theorem fits_mergeModel {m x : ModelColumns} (hm : m.fits = true) (hx : x.fits = true) :
    (mergeModel m x).fits = true := by
  cases hms : m.classificationSource with
  | explicit =>
    rw [mergeModel_of_explicit hms]
    exact hm
  | presetFromLoopType =>
    cases hxs : x.classificationSource with
    | presetFromLoopType =>
      rw [mergeModel_of_stored_preset hms hxs]
      exact hm
    | explicit =>
      rw [mergeModel_of_stored_explicit hms hxs]
      exact hx

def idsOf (registry : List RegistryRow) : List String := registry.map RegistryRow.loopId

structure Stored (p : Platform) (registry : List RegistryRow) : Prop where
  ids : (idsOf registry).Nodup
  lower : ∀ a ∈ idsOf registry, ∀ b ∈ idsOf registry, p.lower a = p.lower b → a = b
  fits : ∀ x ∈ registry, x.model.fits = true

theorem ofResolved_eq_none {stored : Option Resolved}
    (h : ModelColumns.ofResolved (bulkModel r) = none) :
    ModelColumns.ofResolved (resolve r.loopType r.model stored) = none := by
  unfold ModelColumns.ofResolved bulkModel at h
  unfold ModelColumns.ofResolved
  rw [Option.map_eq_none_iff, acquisition_resolve] at h ⊢
  cases hmodel : r.model.bind CpmLoopModel.acquisition with
  | none =>
    rw [hmodel] at h
    have hdefault : acquisitionJson CpmAcquisition.default ≠ none := nofun
    exact absurd h hdefault
  | some a =>
    rw [hmodel] at h
    exact h

theorem bind_comm_map {α β γ : Type} (a : Option α) (b : Option β) (f : α → β → γ) :
    (b.bind fun y => a.map fun x => f x y) = a.bind fun x => b.map fun y => f x y := by
  cases a with
  | none => cases b with
    | none => rfl
    | some y => rfl
  | some x => cases b with
    | none => rfl
    | some y => rfl

theorem write_eq_writeChunk {s : Tables} (hs : Stored p s.registry)
    (hvalid : validate p r = .ok ())
    (hkept : ∀ x ∈ s.registry, x.loopId = r.loopId → x.model.classificationSource = .explicit →
      KeepsModel r x.model) :
    write p mergeEngineering s r = writeChunk p s [r] := by
  rw [writeChunk_single]
  unfold write rowOf
  cases hc : proposedOf r with
  | none => rfl
  | some c =>
    cases hm : ModelColumns.ofResolved (bulkModel r) with
    | none =>
      simp only [Option.bind_eq_bind, Option.bind_some, ofResolved_eq_none hm, Option.bind_none]
    | some m =>
      have hfits : m.fits = true := fits_ofResolved (inContract_resolve (of_validate hvalid).1) hm
      have hid : c.loopId = r.loopId := loopId_of_proposedOf hvalid hc
      simp only [Option.bind_eq_bind, Option.bind_some, if_pos hfits]
      cases hfind : s.registry.find? fun x => x.loopId = r.loopId with
      | none =>
        have hnew : r.loopId ∉ s.registry.map RegistryRow.loopId := by
          intro hmem
          obtain ⟨x, hx, hxid⟩ := List.mem_map.mp hmem
          exact List.find?_eq_none.mp hfind x hx (decide_eq_true hxid)
        have hown : ModelColumns.ofResolved (resolve r.loopType r.model none) = some m := hm
        rw [Option.map_none, hown, Option.bind_some]
        simp only [if_pos hfits]
        have hupsert : upsert p s.registry (c.insert m) (c.update mergeEngineering m) =
            upsert p s.registry (c.insert m) (bulkUpdate c m) := by
          unfold upsert
          have hcid : (c.insert m).loopId = r.loopId := hid
          rw [hcid, if_neg hnew, if_neg hnew]
        rw [hupsert]
        exact bind_comm_map _ _ _
      | some x =>
        have hx := List.mem_of_find?_eq_some hfind
        have hxid := List.find?_some hfind
        rw [decide_eq_true_eq] at hxid
        rw [Option.map_some, ofResolved_resolve (hkept x hx hxid) hm, Option.bind_some]
        simp only [if_pos (fits_mergeModel hfits (hs.fits x hx))]
        have hupsert : upsert p s.registry (c.insert (mergeModel m x.model))
              (c.update mergeEngineering (mergeModel m x.model)) =
            upsert p s.registry (c.insert m) (bulkUpdate c m) := by
          have hmem : c.loopId ∈ s.registry.map RegistryRow.loopId :=
            List.mem_map.mpr ⟨x, hx, hxid.trans hid.symm⟩
          unfold upsert
          have hcid : ∀ m : ModelColumns, (c.insert m).loopId = c.loopId := fun _ => rfl
          rw [hcid, hcid, if_pos hmem, if_pos hmem]
          refine congrArg some (List.map_congr_left fun y hy => ?_)
          split
          · rename_i hyid
            obtain rfl : y = x := List.inj_on_of_nodup_map hs.ids hy hx (hyid.trans (hid.trans hxid.symm))
            rfl
          · rfl
        rw [hupsert]
        exact bind_comm_map _ _ _

/-! ## What a write leaves -/

theorem ids_upsert {registry registry' : List RegistryRow} {row : RegistryRow}
    {update : RegistryRow → RegistryRow} (hupdate : ∀ x, (update x).loopId = x.loopId)
    (h : upsert p registry row update = some registry') :
    (row.loopId ∈ idsOf registry ∧ idsOf registry' = idsOf registry) ∨
      (row.loopId ∉ idsOf registry ∧ (∀ a ∈ idsOf registry, p.lower a ≠ p.lower row.loopId) ∧
        idsOf registry' = idsOf registry ++ [row.loopId]) := by
  unfold upsert at h
  split at h
  · rename_i hmem
    obtain rfl := Option.some.inj h
    refine .inl ⟨hmem, ?_⟩
    unfold idsOf
    rw [List.map_map]
    refine List.map_congr_left fun x _ => ?_
    rw [Function.comp_apply]
    split
    · exact hupdate x
    · rfl
  · rename_i hnew
    split at h
    · cases h
    · rename_i hlower
      obtain rfl := Option.some.inj h
      refine .inr ⟨hnew, fun a ha heq => ?_, ?_⟩
      · obtain ⟨x, hx, rfl⟩ := List.mem_map.mp ha
        exact hlower ⟨x, hx, heq⟩
      · exact List.map_append

theorem stored_upsert {registry registry' : List RegistryRow} {row : RegistryRow}
    {update : RegistryRow → RegistryRow} (hs : Stored p registry) (hrow : row.model.fits = true)
    (hupdate : ∀ x, (update x).loopId = x.loopId) (hfits : ∀ x, (update x).model.fits = true)
    (h : upsert p registry row update = some registry') :
    Stored p registry' ∧ ∀ id, id ∈ idsOf registry' ↔ id = row.loopId ∨ id ∈ idsOf registry := by
  have hrows : ∀ x ∈ registry', x.model.fits = true := by
    unfold upsert at h
    split at h
    · obtain rfl := Option.some.inj h
      refine List.forall_mem_map.mpr fun x hx => ?_
      split
      · exact hfits x
      · exact hs.fits x hx
    · split at h
      · cases h
      · obtain rfl := Option.some.inj h
        exact List.forall_mem_append.mpr ⟨hs.fits, List.forall_mem_singleton.mpr hrow⟩
  rcases ids_upsert hupdate h with ⟨hmem, hids⟩ | ⟨hnew, hlower, hids⟩
  · refine ⟨⟨hids ▸ hs.ids, hids ▸ hs.lower, hrows⟩, fun id => ?_⟩
    rw [hids]
    constructor
    · exact Or.inr
    · rintro (rfl | hid)
      · exact hmem
      · exact hid
  · refine ⟨⟨?_, ?_, hrows⟩, fun id => ?_⟩
    · rw [hids]
      exact hs.ids.append (List.nodup_singleton _) (List.disjoint_singleton.mpr hnew)
    · rw [hids]
      intro a ha b hb heq
      rcases List.mem_append.mp ha with ha | ha
      · rcases List.mem_append.mp hb with hb | hb
        · exact hs.lower a ha b hb heq
        · rw [List.mem_singleton.mp hb] at heq
          exact absurd heq (hlower a ha)
      · rw [List.mem_singleton.mp ha] at heq ⊢
        rcases List.mem_append.mp hb with hb | hb
        · exact absurd heq.symm (hlower b hb)
        · exact (List.mem_singleton.mp hb).symm
    · rw [hids, List.mem_append, List.mem_singleton, or_comm]

theorem write_spec {rule : EngineeringRule} {s t : Tables} (hs : Stored p s.registry)
    (hvalid : validate p r = .ok ()) (h : write p rule s r = some t) :
    Stored p t.registry ∧
      ∀ id, id ∈ idsOf t.registry ↔ id = r.loopId ∨ id ∈ idsOf s.registry := by
  unfold write at h
  obtain ⟨c, hc, h⟩ := Option.bind_eq_some_iff.mp h
  obtain ⟨m, hm, h⟩ := Option.bind_eq_some_iff.mp h
  obtain ⟨tags, -, h⟩ := Option.bind_eq_some_iff.mp h
  split at h
  · rename_i hfits
    obtain ⟨registry, hregistry, rfl⟩ := Option.map_eq_some_iff.mp h
    have hid : (c.insert m).loopId = r.loopId := loopId_of_proposedOf hvalid hc
    have hupdate : ∀ x, (c.update rule m x).loopId = x.loopId := fun _ => rfl
    rw [← hid]
    exact stored_upsert hs hfits hupdate (fun _ => hfits) hregistry
  · cases h

end CpmLoopRegistryService

end OpenBridge.Registry
