import OpenBridge.Ingestion.DataSourceValidation
import OpenBridge.Ingestion.Emission

/-!
# Ingestion: the tuples that can be built

The joiners that values from accepted configurations, and the values saved by such joiners, can lead
to.
-/

namespace OpenBridge.Ingestion

open OpenBridge.Foundation
open DataSourceValidation (PermittedRole)

/-- A finite double: the parser refuses a payload whose number is not finite (`NON_FINITE`). -/
def IsMeasurement (d : Double) : Prop := ∃ q, d = .finite q ∧ Double.ofRat q = .finite q

structure IsExtension (role : String) : Prop where
  permitted : PermittedRole role
  notMember : role ∉ tupleMembers

namespace LoopJoiner

variable (fold : String → String)

/-- A joiner after values mapped under accepted configurations, values saved by such a joiner, and
ticks. -/
inductive Built : LoopJoiner → Prop where
  | empty : Built empty
  | accept {j : LoopJoiner} (h : Built j) (config : LoopIngestConfig)
      (valid : DataSourceValidation.validateLoopIngest fold config = none) (bindingRevision : ℤ)
      (loop : RegistryLoop) (sourceFcs parameter : String) (payload : OtLoopPayload)
      (finite : ∀ d, payload.numericValue = some d → IsMeasurement d) (mapped : MappedParameter)
      (map : LoopParameterMapper.tryMap fold parameter payload
        (config.resolve fold bindingRevision) = .ok mapped) (nowMs : ℤ) :
      Built (accept fold j loop sourceFcs mapped payload (config.resolve fold bindingRevision) nowMs)
  | seed {j saved : LoopJoiner} (h : Built j) (hsaved : Built saved) (row : LoopStateSnapshot)
      (mem : row ∈ saved.stateSnapshot) (loop : RegistryLoop) (cfg : LoopIngestSettings)
      (nowMs : ℤ) : Built (seed fold j loop (seedRowOf row) cfg nowMs)
  | tick {j : LoopJoiner} (h : Built j) (nowMs : ℤ) (cfg : LoopIngestSettings) :
      Built (tick j nowMs cfg).1

/-- Every entry has a name that satisfies `P` and a measurement, under `value`. -/
def Bucket {μ : Type} (P : String → Prop) (value : μ → Double) (d : Dict String μ) : Prop :=
  ∀ e ∈ d.entries, P e.1 ∧ IsMeasurement (value e.2)

structure Writable (st : LoopState) : Prop where
  members : Bucket (· ∈ numberRoles) (·.value) st.members
  extras : Bucket IsExtension (·.value) st.extras

variable {fold} {P : String → Prop}

theorem Bucket.empty {μ : Type} {value : μ → Double} : Bucket P value Dict.empty :=
  fun _ he => absurd he (List.not_mem_nil)

theorem Bucket.set {μ : Type} {value : μ → Double} {d : Dict String μ} {role : String} {m : μ}
    (h : Bucket P value d) (hrole : P role) (hm : IsMeasurement (value m)) :
    Bucket P value (d.set role m) := by
  intro e he
  rcases Dict.mem_entries_set he with rfl | he
  · exact ⟨hrole, hm⟩
  · exact h e he

theorem Bucket.mapValues {μ ν : Type} {value : μ → Double} {value' : ν → Double} {f : μ → ν}
    {d : Dict String μ} (h : Bucket P value d) (hf : ∀ m, value' (f m) = value m) :
    Bucket P value' (d.mapValues f) := by
  intro e he
  rw [Dict.entries_mapValues, List.mem_map] at he
  obtain ⟨e', he', rfl⟩ := he
  rw [hf]
  exact h e' he'

theorem Bucket.seedBucket {bucket : Dict String Member} {seeds : Dict String SavedMember}
    (h : Bucket P (·.value) bucket) (hseeds : Bucket P (·.value) seeds) :
    Bucket P (·.value) (seedBucket bucket seeds) := by
  have hfold : ∀ (es : List (String × SavedMember)) (b : Dict String Member),
      (∀ e ∈ es, P e.1 ∧ IsMeasurement e.2.value) → Bucket P (·.value) b →
        Bucket P (·.value) (es.foldl seedEntry b) := by
    intro es
    induction es with
    | nil => exact fun b _ hb => hb
    | cons e rest ih =>
      intro b hes hb
      obtain ⟨hrole, hvalue⟩ := hes e List.mem_cons_self
      refine ih _ (fun e' he' => hes e' (List.mem_cons_of_mem _ he')) ?_
      rw [seedEntry]
      split
      · split
        · exact hb
        · exact hb.set hrole hvalue
      · exact hb.set hrole hvalue
  exact hfold seeds.entries bucket hseeds h

/-! ## Steps -/

theorem writable_newLoopState (loop : RegistryLoop) (nowMs : ℤ) (cfg : LoopIngestSettings) :
    Writable (newLoopState loop nowMs cfg) :=
  ⟨Bucket.empty, Bucket.empty⟩

def AllWritable (j : LoopJoiner) : Prop := ∀ key st, j.loops.get? key = some st → Writable st

theorem AllWritable.stateFor {j : LoopJoiner} (h : AllWritable j) (loop : RegistryLoop) (nowMs : ℤ)
    (cfg : LoopIngestSettings) : Writable (stateFor fold j loop nowMs cfg) := by
  rw [LoopJoiner.stateFor]
  cases hget : j.loops.get? (fold loop.loopId) with
  | none => exact writable_newLoopState loop nowMs cfg
  | some st => exact h _ st hget

theorem AllWritable.set {j : LoopJoiner} (h : AllWritable j) {key : String} {st : LoopState}
    (hst : Writable st) {loops : Dict String LoopState} (hloops : loops = j.loops.set key st) :
    ∀ key' st', loops.get? key' = some st' → Writable st' := by
  intro key' st' hget
  rw [hloops, Dict.get?_set] at hget
  split at hget
  · obtain rfl := Option.some.inj hget
    exact hst
  · exact h key' st' hget

theorem mem_numberRoles_of_member {role : String} (h : tupleMembers.contains role = true)
    (hmode : role ≠ "mode") : role ∈ numberRoles := by
  have hmem : role ∈ tupleMembers := List.contains_iff_mem.mp h
  simp only [tupleMembers, List.mem_cons, List.not_mem_nil, or_false] at hmem
  simp only [numberRoles, List.mem_cons, List.not_mem_nil, or_false]
  tauto

theorem Writable.acceptState {st : LoopState} (h : Writable st) {loop : RegistryLoop}
    {sourceFcs : String} {mapped : MappedParameter} {payload : OtLoopPayload}
    {cfg : LoopIngestSettings} (hrole : PermittedRole mapped.role)
    (hvalue : ∀ d, mapped.numericValue = some d → IsMeasurement d) :
    Writable (acceptState st loop sourceFcs mapped payload cfg) := by
  simp only [LoopJoiner.acceptState]
  split
  · exact ⟨h.members, h.extras⟩
  · rename_i hmode
    have hmeasured : IsMeasurement (mapped.number hmode) :=
      hvalue _ (Option.some_get (mapped.numericValue_isSome hmode)).symm
    split
    · rename_i hmember
      rw [mapped.isTupleMember_eq] at hmember
      exact ⟨h.members.set (mem_numberRoles_of_member hmember hmode) hmeasured, h.extras⟩
    · rename_i hmember
      rw [mapped.isTupleMember_eq] at hmember
      exact ⟨h.members, h.extras.set ⟨hrole, fun hmem =>
        hmember (List.contains_iff_mem.mpr hmem)⟩ hmeasured⟩

theorem Writable.seedState {st : LoopState} (h : Writable st) {loop : RegistryLoop} {row : SeedRow}
    (hmembers : Bucket (· ∈ numberRoles) (·.value) row.members)
    (hextras : Bucket IsExtension (·.value) row.extras) : Writable (seedState st loop row) := by
  have hvalues : Writable (seedValues st loop row) :=
    ⟨h.members.seedBucket hmembers, h.extras.seedBucket hextras⟩
  have hmode : Writable (seedMode (seedValues st loop row) row) := by
    rw [seedMode]
    split
    · exact hvalues
    · split
      · exact ⟨hvalues.members, hvalues.extras⟩
      · exact hvalues
  rw [LoopJoiner.seedState, raiseWatermark]
  split
  · exact ⟨hmode.members, hmode.extras⟩
  · exact hmode

theorem Writable.tickState {st : LoopState} (h : Writable st) (nowMs : ℤ)
    (cfg : LoopIngestSettings) : Writable (tickState st nowMs cfg) := by
  rw [LoopJoiner.tickState]
  split
  · exact h
  all_goals exact ⟨h.members, h.extras⟩

theorem Built.writable {j : LoopJoiner} (h : Built fold j) : AllWritable j := by
  induction h with
  | empty => exact fun key st hget => absurd hget (by simp [LoopJoiner.empty])
  | accept _ config valid bindingRevision loop sourceFcs parameter payload finite mapped map nowMs
      ih =>
    obtain ⟨hrole, hnumber⟩ := DataSourceValidation.permitted_of_tryMap valid map
    exact ih.set ((ih.stateFor loop nowMs _).acceptState hrole (hnumber ▸ finite)) rfl
  | seed _ _ row mem loop cfg nowMs ih ihsaved =>
    obtain ⟨st, hst, rfl⟩ := List.mem_map.mp mem
    obtain ⟨e, he, rfl⟩ := List.mem_map.mp hst
    have hsaved := ihsaved e.1 e.2 (Dict.get?_eq_some_iff.mpr he)
    have hmembers : Bucket (· ∈ numberRoles) (·.value) (seedRowOf (snapshotOf e.2)).members :=
      hsaved.members.mapValues fun _ => rfl
    have hextras : Bucket IsExtension (·.value) (seedRowOf (snapshotOf e.2)).extras :=
      hsaved.extras.mapValues fun _ => rfl
    exact ih.set ((ih.stateFor loop nowMs cfg).seedState hmembers hextras) rfl
  | tick _ nowMs cfg ih =>
    intro key st hget
    simp only [LoopJoiner.tick, Dict.get?_mapValues] at hget
    obtain ⟨st', hst', rfl⟩ := Option.map_eq_some_iff.mp hget
    exact (ih key st' hst').tickState nowMs cfg

/-! ## Tuples -/

def RoleShape (role : String) (o : RoleObservation) : Prop :=
  (role ∈ numberRoles ∧ ∃ v, o.value = some v ∧ IsMeasurement v ∧ o.stringValue = none) ∨
    (role = "mode" ∧ o.value = none ∧ o.stringValue.isSome = true)

structure Encodable (t : LoopTuple) : Prop where
  pv : IsMeasurement t.pv
  sp : IsMeasurement t.sp
  op : IsMeasurement t.op
  vp : ∀ v, t.vp = some v → IsMeasurement v
  extras : Bucket IsExtension (fun v => v) t.extras
  quality : ∃ q : NormalizedQuality, t.quality = q.name
  roles : ∀ role o, t.roles.get? role = some o → RoleShape role o

theorem Bucket.of_get? {μ : Type} {value : μ → Double} {d : Dict String μ} {role : String} {m : μ}
    (h : Bucket P value d) (hget : d.get? role = some m) : P role ∧ IsMeasurement (value m) :=
  h (role, m) (Dict.get?_eq_some_iff.mp hget)

theorem roleShape_of_buildRoles {st : LoopState} (h : Writable st) {tupleTs heldBefore : ℤ}
    {role : String} {o : RoleObservation}
    (hget : (buildRoles st tupleTs heldBefore).get? role = some o) : RoleShape role o := by
  have hmember (hm : (st.members.mapValues (observeMember · tupleTs heldBefore)).get? role =
      some o) : RoleShape role o := by
    rw [Dict.get?_mapValues] at hm
    obtain ⟨m, hfound, rfl⟩ := Option.map_eq_some_iff.mp hm
    obtain ⟨hrole, hvalue⟩ := h.members.of_get? hfound
    exact Or.inl ⟨hrole, m.value, rfl, hvalue, rfl⟩
  rw [buildRoles] at hget
  split at hget
  · exact hmember hget
  · rw [Dict.get?_set] at hget
    split at hget
    · rename_i hrole
      obtain rfl := Option.some.inj hget
      exact Or.inr ⟨hrole, rfl, rfl⟩
    · exact hmember hget

theorem encodable_of_tickTuple {st : LoopState} (h : Writable st) {nowMs : ℤ}
    {cfg : LoopIngestSettings} {t : LoopTuple} (ht : tickTuple st nowMs cfg = some t) :
    Encodable t := by
  obtain ⟨req, hreq, rfl⟩ := tickTuple_eq_some ht
  obtain ⟨hpv, hsp, hop⟩ := requiredMembers_eq_some (tickVerdict_eq_emit hreq).1
  refine ⟨(h.members.of_get? hpv).2, (h.members.of_get? hsp).2, (h.members.of_get? hop).2, ?_,
    h.extras.mapValues fun _ => rfl, ⟨_, rfl⟩, fun role o hget => roleShape_of_buildRoles h hget⟩
  intro v hv
  obtain ⟨m, hm, rfl⟩ := Option.map_eq_some_iff.mp hv
  exact (h.members.of_get? hm).2

theorem Built.encodable {j : LoopJoiner} (h : Built fold j) {nowMs : ℤ} {cfg : LoopIngestSettings}
    {t : LoopTuple} (ht : t ∈ (LoopJoiner.tick j nowMs cfg).2) : Encodable t := by
  obtain ⟨st, hst, htuple⟩ := List.mem_filterMap.mp ht
  obtain ⟨e, he, rfl⟩ := List.mem_map.mp hst
  exact encodable_of_tickTuple (h.writable e.1 e.2 (Dict.get?_eq_some_iff.mpr he)) htuple

end LoopJoiner

end OpenBridge.Ingestion
