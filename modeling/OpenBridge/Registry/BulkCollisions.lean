import OpenBridge.Registry.BulkRows

/-!
# Registry: collisions in a batch

The ids that a batch knows are the stored ones and those of the rows it has let through, so the rows
that it lets through are those that the requests in order would accept, and rows that fail later.
-/

namespace OpenBridge.Registry

open OpenBridge.Foundation

namespace CpmLoopRegistryService

variable (p : Platform)

/-! ## What a batch is asked of -/

def isValid (r : CpmLoopActivateRequest) : Bool := (validate p r).isOk

def isLocated (r : CpmLoopActivateRequest) : Bool :=
  (locationErrorOf p r).isNone ∨ r.allowUnmodelledLocation

def isWritable (r : CpmLoopActivateRequest) : Bool := (rowOf r).isSome ∧ (tagRowsOf r).isSome

def isGood (r : CpmLoopActivateRequest) : Bool := isValid p r ∧ isLocated p r ∧ isWritable r

def Twins (a b : String) : Prop :=
  a ≠ b ∧ (p.toLowerInvariant a = p.toLowerInvariant b ∨ safeNode p a = safeNode p b)

instance (a b : String) : Decidable (Twins p a b) := inferInstanceAs (Decidable (_ ∧ _))

/-- The stored model of a request keeps what the request does not declare. -/
def KeepsStored (s : Tables) (r : CpmLoopActivateRequest) : Prop :=
  ∀ x ∈ s.registry, x.loopId = r.loopId → x.model.classificationSource = .explicit → KeepsModel r x.model

/-- What is asked of the stored rows and of a list of requests. -/
structure Regular (s : Tables) (requests : List CpmLoopActivateRequest) : Prop where
  /-- The constraints of the tables hold. -/
  stored : Stored p s.registry
  /-- No two stored ids share a historian node. -/
  nodes : ∀ a ∈ idsOf s.registry, ∀ b ∈ idsOf s.registry, safeNode p a = safeNode p b → a = b
  /-- The database and the runtime agree on which ids differ in case only. -/
  casing : ∀ a ∈ idsOf s.registry ++ requests.map CpmLoopActivateRequest.loopId,
    ∀ b ∈ idsOf s.registry ++ requests.map CpmLoopActivateRequest.loopId,
      (p.lower a = p.lower b ↔ p.toLowerInvariant a = p.toLowerInvariant b)
  /-- Requests for one id are all good or all not, and their locations are all modelled or all not. -/
  alike : ∀ r ∈ requests, ∀ r' ∈ requests, r.loopId = r'.loopId →
    isGood p r = isGood p r' ∧ (locationErrorOf p r).isNone = (locationErrorOf p r').isNone
  /-- No request that fails when it is written comes before a good one for a twin of its id. -/
  late : requests.Pairwise fun r r' => isValid p r = true → isLocated p r = true →
    isWritable r = false → isGood p r' = true → ¬ Twins p r.loopId r'.loopId
  /-- No threshold profile is the word of a topology. -/
  profiles : ProfilesApart requests
  /-- A request that declares a part of a model does not come to a stored explicit one that the preset
  would change. -/
  models : Machine.Always (activateStep p mergeEngineering)
    (fun t r => isGood p r = true → KeepsStored t r) s requests

variable {p}
variable {r : CpmLoopActivateRequest} {rule : EngineeringRule}

/-! ## One step -/

theorem validate_of_isValid (h : isValid p r = true) : validate p r = .ok () := by
  unfold isValid at h
  cases hvalidate : validate p r with
  | ok u => rfl
  | error message =>
    rw [hvalidate] at h
    cases h

/-- A stored id that is not that of a request, with its lower case or its node. -/
def Collides (p : Platform) (registry : List RegistryRow) (id : String) : Prop :=
  ∃ y ∈ idsOf registry, y ≠ id ∧ (p.lower y = p.lower id ∨ safeNode p y = safeNode p id)

instance (registry : List RegistryRow) (id : String) : Decidable (Collides p registry id) :=
  inferInstanceAs (Decidable (∃ y ∈ _, _))

theorem collides_of_existingCasing {s : Tables} {loopId id : String}
    (h : existingCasing p s loopId = some id) : Collides p s.registry loopId := by
  have hid := List.find?_some h
  rw [decide_eq_true_eq] at hid
  exact ⟨id, List.mem_of_find?_eq_some h, hid.2, .inl hid.1⟩

theorem collides_of_nodeClash {s : Tables} {loopId id : String}
    (h : nodeClash p s loopId = some id) : Collides p s.registry loopId := by
  have hid := List.find?_some h
  rw [decide_eq_true_eq] at hid
  exact ⟨id, List.mem_of_find?_eq_some h, hid.1, .inr hid.2⟩

theorem not_collides {s : Tables} {loopId : String} (hcasing : existingCasing p s loopId = none)
    (hnode : nodeClash p s loopId = none) : ¬ Collides p s.registry loopId := by
  rintro ⟨y, hy, hne, hlower | hsafe⟩
  · exact List.find?_eq_none.mp hcasing y hy (decide_eq_true ⟨hlower, hne⟩)
  · exact List.find?_eq_none.mp hnode y hy (decide_eq_true ⟨hne, hsafe⟩)

theorem activateStep_of_located {s : Tables} (hvalidate : validate p r = .ok ())
    (hlocated : locationErrorOf p r = none ∨ r.allowUnmodelledLocation = true) :
    activateStep p rule s r = if ¬ Collides p s.registry r.loopId then
      ((write p rule s r).getD s, [(write p rule s r).isSome]) else (s, [false]) := by
  unfold activateStep activateBy
  cases hcasing : existingCasing p s r.loopId with
  | some id =>
    rw [if_neg (not_not.mpr (collides_of_existingCasing hcasing))]
    cases hlocation : locationErrorOf p r <;> simp_all
  | none =>
    cases hnode : nodeClash p s r.loopId with
    | some id =>
      rw [if_neg (not_not.mpr (collides_of_nodeClash hnode))]
      cases hlocation : locationErrorOf p r <;> simp_all
    | none =>
      rw [if_pos (not_collides hcasing hnode)]
      cases write p rule s r with
      | some t => cases hlocation : locationErrorOf p r <;> simp_all
      | none => cases hlocation : locationErrorOf p r <;> simp_all

theorem activateStep_eq (s : Tables) : activateStep p rule s r =
    if isValid p r = true ∧ isLocated p r = true ∧ ¬ Collides p s.registry r.loopId then
      ((write p rule s r).getD s, [(write p rule s r).isSome])
    else (s, [false]) := by
  cases hvalidate : validate p r with
  | error message =>
    unfold activateStep activateBy isValid
    rw [hvalidate]
    exact (if_neg fun h => Bool.false_ne_true h.1).symm
  | ok u =>
    have hvalid : isValid p r = true := congrArg Except.isOk hvalidate
    by_cases hlocated : isLocated p r = true
    · have hlocation := of_decide_eq_true hlocated
      rw [Option.isNone_iff_eq_none] at hlocation
      rw [activateStep_of_located hvalidate hlocation]
      exact if_congr ⟨fun h => ⟨hvalid, hlocated, h⟩, fun h => h.2.2⟩ rfl rfl
    · rw [if_neg fun h => hlocated h.2.1]
      unfold isLocated at hlocated
      cases hlocation : locationErrorOf p r with
      | none => simp [hlocation] at hlocated
      | some err =>
        unfold activateStep activateBy
        simp_all

theorem write_of_not_writable (hvalid : validate p r = .ok ()) (h : isWritable r = false) (s : Tables) :
    write p rule s r = none := by
  refine Option.eq_none_iff_forall_ne_some.mpr fun t ht => Bool.false_ne_true (h.symm.trans ?_)
  unfold write at ht
  obtain ⟨c, hc, ht⟩ := Option.bind_eq_some_iff.mp ht
  obtain ⟨m, hm, ht⟩ := Option.bind_eq_some_iff.mp ht
  obtain ⟨tags, htags, -⟩ := Option.bind_eq_some_iff.mp ht
  cases hown : ModelColumns.ofResolved (bulkModel r) with
  | none =>
    rw [ofResolved_eq_none hown] at hm
    cases hm
  | some m' =>
    have hfits := fits_ofResolved (LoopModelDimensions.inContract_resolve (of_validate hvalid).1) hown
    have hrow : rowOf r = some (c, m') := by
      unfold rowOf
      rw [hc, hown]
      exact if_pos hfits
    unfold isWritable
    rw [hrow, htags]
    exact decide_eq_true ⟨rfl, rfl⟩

theorem activateStep_of_not_good (h : isGood p r = false) (s : Tables) :
    activateStep p rule s r = (s, [false]) := by
  rw [activateStep_eq]
  split
  · rename_i hpasses
    have hwritable : isWritable r = false := by
      refine Bool.eq_false_iff.mpr fun hwritable => Bool.false_ne_true (h.symm.trans ?_)
      exact decide_eq_true ⟨hpasses.1, hpasses.2.1, hwritable⟩
    rw [write_of_not_writable (validate_of_isValid hpasses.1) hwritable]
    rfl
  · rfl

theorem activateStep_of_collides {s : Tables} (h : Collides p s.registry r.loopId) :
    activateStep p rule s r = (s, [false]) := by
  rw [activateStep_eq, if_neg fun hpasses => hpasses.2.2 h]

theorem activateStep_of_good {s : Tables} (hs : Stored p s.registry) (hgood : isGood p r = true)
    (hkeeps : KeepsStored s r) (hfree : ¬ Collides p s.registry r.loopId) :
    ∃ t, writeChunk p s [r] = some t ∧ activateStep p mergeEngineering s r = (t, [true]) := by
  obtain ⟨hvalid, hlocated, hwritable⟩ := of_decide_eq_true hgood
  have hvalidate := validate_of_isValid hvalid
  rw [activateStep_eq, if_pos ⟨hvalid, hlocated, hfree⟩, write_eq_writeChunk hs hvalidate hkeeps,
    writeChunk_single]
  obtain ⟨hrow, htags⟩ := of_decide_eq_true hwritable
  obtain ⟨e, he⟩ := Option.isSome_iff_exists.mp hrow
  obtain ⟨tags, htags⟩ := Option.isSome_iff_exists.mp htags
  have hid := loopId_of_rowOf hvalidate he
  have hupsert : ∃ registry, upsert p s.registry (e.1.insert e.2) (bulkUpdate e.1 e.2) = some registry := by
    unfold upsert
    split
    · exact ⟨_, rfl⟩
    · rename_i hnew
      split
      · rename_i hlower
        obtain ⟨x, hx, hlower⟩ := hlower
        have hinsert : (e.1.insert e.2).loopId = r.loopId := hid
        rw [hinsert] at hlower hnew
        have hmem : x.loopId ∈ idsOf s.registry := List.mem_map_of_mem hx
        exact absurd ⟨x.loopId, hmem, fun heq => hnew (heq ▸ hmem), .inl hlower⟩ hfree
      · exact ⟨_, rfl⟩
  obtain ⟨registry, hregistry⟩ := hupsert
  rw [he, Option.bind_some, hregistry, Option.bind_some, htags]
  exact ⟨_, rfl, rfl⟩

/-! ## The ids that a batch knows -/

structure Knows (p : Platform) (k : KnownIds) (held : String → Prop) : Prop where
  lower : ∀ key id, k.byLowerId.get? key = some id ↔ held id ∧ p.toLowerInvariant id = key
  node : ∀ key id, k.byHistorianNode.get? key = some id ↔ held id ∧ safeNode p id = key

theorem Knows.congr {k : KnownIds} {held held' : String → Prop} (h : Knows p k held)
    (hheld : ∀ id, held id ↔ held' id) : Knows p k held' :=
  ⟨fun key id => (h.lower key id).trans (and_congr_left' (hheld id)),
    fun key id => (h.node key id).trans (and_congr_left' (hheld id))⟩

theorem Knows.not_twins {k : KnownIds} {held : String → Prop} (h : Knows p k held) {a b : String}
    (ha : held a) (hb : held b) : ¬ Twins p a b := by
  rintro ⟨hne, hlower | hnode⟩
  · have hget := (h.lower _ a).mpr ⟨ha, hlower⟩
    rw [(h.lower _ b).mpr ⟨hb, rfl⟩] at hget
    exact hne (Option.some.inj hget).symm
  · have hget := (h.node _ a).mpr ⟨ha, hnode⟩
    rw [(h.node _ b).mpr ⟨hb, rfl⟩] at hget
    exact hne (Option.some.inj hget).symm

theorem knows_empty : Knows p ⟨Dict.empty, Dict.empty⟩ fun _ => False :=
  ⟨fun _ _ => ⟨nofun, fun h => h.1.elim⟩, fun _ _ => ⟨nofun, fun h => h.1.elim⟩⟩

theorem Knows.add {k : KnownIds} {held : String → Prop} (h : Knows p k held) {id : String}
    (hfree : ∀ a, held a → ¬ Twins p a id) : Knows p (k.add p id) fun a => a = id ∨ held a := by
  unfold KnownIds.add tryAdd
  refine ⟨fun key a => ?_, fun key a => ?_⟩
  · dsimp only
    rw [Dict.get?_set]
    split
    · rename_i hkey
      subst hkey
      constructor
      · intro heq
        obtain rfl := Option.some.inj heq
        exact ⟨.inl rfl, rfl⟩
      · rintro ⟨rfl | ha, hlower⟩
        · rfl
        · exact congrArg some (Decidable.not_not.mp fun hne => hfree a ha ⟨Ne.symm hne, .inl hlower⟩)
    · rename_i hkey
      rw [h.lower]
      constructor
      · exact fun ha => ⟨.inr ha.1, ha.2⟩
      · rintro ⟨rfl | ha, hlower⟩
        · exact absurd hlower.symm hkey
        · exact ⟨ha, hlower⟩
  · dsimp only
    split
    · rename_i hcontains
      obtain ⟨b, hb⟩ := Option.isSome_iff_exists.mp hcontains
      obtain ⟨hheld, hnode⟩ := (h.node _ b).mp hb
      obtain rfl : b = id := Decidable.not_not.mp fun hne => hfree b hheld ⟨hne, .inr hnode⟩
      rw [h.node]
      exact and_congr_left' ⟨.inr, fun ha => ha.elim (fun heq => heq ▸ hheld) id⟩
    · rename_i hcontains
      rw [Dict.get?_set]
      split
      · rename_i hkey
        subst hkey
        constructor
        · intro heq
          obtain rfl := Option.some.inj heq
          exact ⟨.inl rfl, rfl⟩
        · rintro ⟨rfl | ha, hnode⟩
          · rfl
          · exact congrArg some (Decidable.not_not.mp fun hne => hfree a ha ⟨Ne.symm hne, .inr hnode⟩)
      · rename_i hkey
        rw [h.node]
        constructor
        · exact fun ha => ⟨.inr ha.1, ha.2⟩
        · rintro ⟨rfl | ha, hnode⟩
          · exact absurd hnode.symm hkey
          · exact ⟨ha, hnode⟩

theorem knows_knownIds {s : Tables}
    (h : ∀ a ∈ idsOf s.registry, ∀ b ∈ idsOf s.registry, ¬ Twins p a b) :
    Knows p (knownIds p s) fun id => id ∈ idsOf s.registry := by
  have hfold : ∀ ids : List String, (∀ a ∈ ids, ∀ b ∈ ids, ¬ Twins p a b) →
      Knows p (ids.foldl (KnownIds.add p) ⟨Dict.empty, Dict.empty⟩) fun id => id ∈ ids := by
    intro ids
    induction ids using List.reverseRecOn with
    | nil => exact fun _ => knows_empty.congr fun _ => ⟨False.elim, List.not_mem_nil⟩
    | append_singleton ids id ih =>
      intro hids
      rw [List.foldl_append, List.foldl_cons, List.foldl_nil]
      have hheld := ih fun a ha b hb => hids a (List.mem_append_left _ ha) b (List.mem_append_left _ hb)
      refine (hheld.add fun a ha => hids a (List.mem_append_left _ ha) id
        (List.mem_append_right _ List.mem_cons_self)).congr fun a => ?_
      rw [List.mem_append, List.mem_singleton, or_comm]
  exact hfold _ h

theorem collideRow_eq {k : KnownIds} {held : String → Prop} (h : Knows p k held) (v : Sieve)
    (r : CpmLoopActivateRequest) :
    ((∃ a, held a ∧ Twins p a r.loopId) ∧
        ∃ outcomes, collideRow p (k, v) r = (k, { v with outcomes := outcomes })) ∨
      ((∀ a, held a → ¬ Twins p a r.loopId) ∧
        collideRow p (k, v) r = (k.add p r.loopId, { v with rows := v.rows ++ [r] })) := by
  unfold collideRow
  dsimp only
  cases hlower : (k.byLowerId.get? (p.toLowerInvariant r.loopId)).filter (· ≠ r.loopId) with
  | some casing =>
    obtain ⟨hget, hne⟩ := Option.filter_eq_some_iff.mp hlower
    obtain ⟨hheld, heq⟩ := (h.lower _ _).mp hget
    exact .inl ⟨⟨casing, hheld, of_decide_eq_true hne, .inl heq⟩, _, rfl⟩
  | none =>
    dsimp only
    cases hnode : (k.byHistorianNode.get? (safeNode p r.loopId)).filter (· ≠ r.loopId) with
    | some clash =>
      obtain ⟨hget, hne⟩ := Option.filter_eq_some_iff.mp hnode
      obtain ⟨hheld, heq⟩ := (h.node _ _).mp hget
      exact .inl ⟨⟨clash, hheld, of_decide_eq_true hne, .inr heq⟩, _, rfl⟩
    | none =>
      refine .inr ⟨?_, rfl⟩
      rintro a ha ⟨hne, heq | heq⟩
      · rw [(h.lower _ a).mpr ⟨ha, heq⟩, Option.filter_some, if_pos (decide_eq_true hne)] at hlower
        cases hlower
      · rw [(h.node _ a).mpr ⟨ha, heq⟩, Option.filter_some, if_pos (decide_eq_true hne)] at hnode
        cases hnode

/-! ## The rows that are checked -/

theorem writeChunk_of_not_writable (h : isWritable r = false) (s : Tables) : writeChunk p s [r] = none := by
  rw [writeChunk_single]
  cases hrow : rowOf r with
  | none => rfl
  | some e =>
    cases htags : tagRowsOf r with
    | none =>
      rw [Option.bind_some]
      cases upsert p s.registry (e.1.insert e.2) (bulkUpdate e.1 e.2) with
      | none => rfl
      | some registry => rfl
    | some tags =>
      unfold isWritable at h
      rw [hrow, htags] at h
      exact absurd (decide_eq_true ⟨rfl, rfl⟩) (Bool.eq_false_iff.mp h)

theorem bulkRow_of_some {w : Written} {t : Tables} (h : writeChunk p w.tables [r] = some t) :
    bulkRow p w r = { tables := t, sieve := { w.sieve with rows := w.sieve.rows ++ [r] } } := by
  unfold bulkRow
  rw [h]

theorem bulkRow_of_none {w : Written} (h : writeChunk p w.tables [r] = none) :
    (bulkRow p w r).tables = w.tables ∧ (bulkRow p w r).sieve.rows = w.sieve.rows := by
  unfold bulkRow
  rw [h]
  exact ⟨rfl, rfl⟩

/-- The batch after some rows, whose ids are among some, against the state that the requests leave. -/
structure Matches (p : Platform) (among : List String) (s : Tables) (rows : List CpmLoopActivateRequest)
    (t : Tables) (acc : KnownIds × Sieve) : Prop where
  stored : Stored p t.registry
  within : ∀ id ∈ idsOf t.registry, id ∈ among
  held : ∃ held, Knows p acc.1 held ∧ (∀ id ∈ idsOf t.registry, held id) ∧
    ∀ id, held id → id ∈ idsOf t.registry ∨ ∃ w ∈ rows, w.loopId = id ∧ isWritable w = false
  tables : ∀ outcomes, (acc.2.rows.foldl (bulkRow p) ⟨s, outcomes, []⟩).tables = t
  written : ∀ outcomes, ∀ q ∈ (acc.2.rows.foldl (bulkRow p) ⟨s, outcomes, []⟩).sieve.rows,
    q ∈ rows ∧ isGood p q = true ∧ q.loopId ∈ idsOf t.registry
  reported : ∀ outcomes, ∀ q ∈ rows, isGood p q = true → q.loopId ∈ idsOf t.registry → q.loopId ∈
    (acc.2.rows.foldl (bulkRow p) ⟨s, outcomes, []⟩).sieve.rows.map CpmLoopActivateRequest.loopId

theorem collides_iff {among : List String} {t : Tables} {id : String}
    (hcasing : ∀ a ∈ among, ∀ b ∈ among, (p.lower a = p.lower b ↔
      p.toLowerInvariant a = p.toLowerInvariant b))
    (hwithin : ∀ id ∈ idsOf t.registry, id ∈ among) (hid : id ∈ among) :
    Collides p t.registry id ↔ ∃ y ∈ idsOf t.registry, Twins p y id := by
  refine exists_congr fun y => and_congr_right fun hy => and_congr_right fun _ => ?_
  exact or_congr_left (hcasing y (hwithin y hy) id hid)

section Step

variable {among : List String} {s t : Tables} {rows : List CpmLoopActivateRequest}
  {acc : KnownIds × Sieve}

theorem Matches.refused (h : Matches p among s rows t acc)
    (hcasing : ∀ a ∈ among, ∀ b ∈ among, (p.lower a = p.lower b ↔
      p.toLowerInvariant a = p.toLowerInvariant b))
    (hid : r.loopId ∈ among)
    (hlate : ∀ w ∈ rows, isWritable w = false → isGood p r = true → ¬ Twins p w.loopId r.loopId)
    {held : String → Prop} (hknows : Knows p acc.1 held) (hids : ∀ id ∈ idsOf t.registry, held id)
    (hheld : ∀ id, held id → id ∈ idsOf t.registry ∨ ∃ w ∈ rows, w.loopId = id ∧ isWritable w = false)
    {a : String} (ha : held a) (htwins : Twins p a r.loopId) (outcomes : Dict String CpmBulkActivateItem) :
    Matches p among s (rows ++ [r]) (activateStep p mergeEngineering t r).1
      (acc.1, { acc.2 with outcomes := outcomes }) := by
  have hstep : (activateStep p mergeEngineering t r).1 = t := by
    cases hgood : isGood p r with
    | false => rw [activateStep_of_not_good hgood]
    | true =>
      have hcollides : Collides p t.registry r.loopId := by
        rw [collides_iff hcasing h.within hid]
        rcases hheld a ha with ha | ⟨w, hw, rfl, hwritable⟩
        · exact ⟨a, ha, htwins⟩
        · exact absurd htwins (hlate w hw hwritable hgood)
      rw [activateStep_of_collides hcollides]
  rw [hstep]
  refine ⟨h.stored, h.within, ⟨held, hknows, hids, fun id hid => ?_⟩, h.tables, ?_, ?_⟩
  · refine (hheld id hid).imp_right ?_
    rintro ⟨w, hw, hrest⟩
    exact ⟨w, List.mem_append_left _ hw, hrest⟩
  · exact fun outcomes q hq => (h.written outcomes q hq).imp_left (List.mem_append_left _)
  · intro outcomes q hq hgood hmem
    rcases List.mem_append.mp hq with hq | hq
    · exact h.reported outcomes q hq hgood hmem
    · rw [List.mem_singleton.mp hq] at hmem
      exact absurd htwins (hknows.not_twins ha (hids _ hmem))

theorem Matches.passed (h : Matches p among s rows t acc)
    (hcasing : ∀ a ∈ among, ∀ b ∈ among, (p.lower a = p.lower b ↔
      p.toLowerInvariant a = p.toLowerInvariant b))
    (hid : r.loopId ∈ among) (hvalid : isValid p r = true) (hlocated : isLocated p r = true)
    (hkeeps : isGood p r = true → KeepsStored t r) {held : String → Prop} (hknows : Knows p acc.1 held)
    (hids : ∀ id ∈ idsOf t.registry, held id)
    (hheld : ∀ id, held id → id ∈ idsOf t.registry ∨ ∃ w ∈ rows, w.loopId = id ∧ isWritable w = false)
    (hfree : ∀ a, held a → ¬ Twins p a r.loopId) :
    Matches p among s (rows ++ [r]) (activateStep p mergeEngineering t r).1
      (acc.1.add p r.loopId, { acc.2 with rows := acc.2.rows ++ [r] }) := by
  have hfold : ∀ outcomes, (acc.2.rows ++ [r]).foldl (bulkRow p) ⟨s, outcomes, []⟩ =
      bulkRow p (acc.2.rows.foldl (bulkRow p) ⟨s, outcomes, []⟩) r := by
    intro outcomes
    rw [List.foldl_append, List.foldl_cons, List.foldl_nil]
  cases hgood : isGood p r with
  | false =>
    have hwritable : isWritable r = false := by
      refine Bool.eq_false_iff.mpr fun hwritable => Bool.false_ne_true (hgood.symm.trans ?_)
      exact decide_eq_true ⟨hvalid, hlocated, hwritable⟩
    have hrow : ∀ outcomes, (bulkRow p (acc.2.rows.foldl (bulkRow p) ⟨s, outcomes, []⟩) r).tables =
          (acc.2.rows.foldl (bulkRow p) ⟨s, outcomes, []⟩).tables ∧
        (bulkRow p (acc.2.rows.foldl (bulkRow p) ⟨s, outcomes, []⟩) r).sieve.rows =
          (acc.2.rows.foldl (bulkRow p) ⟨s, outcomes, []⟩).sieve.rows := by
      exact fun outcomes => bulkRow_of_none (writeChunk_of_not_writable hwritable _)
    rw [activateStep_of_not_good hgood]
    refine ⟨h.stored, h.within, ⟨_, hknows.add hfree, fun id hid => .inr (hids id hid), ?_⟩, ?_, ?_, ?_⟩
    · rintro id (rfl | hid)
      · exact .inr ⟨r, List.mem_append_right _ List.mem_cons_self, rfl, hwritable⟩
      · refine (hheld id hid).imp_right ?_
        rintro ⟨w, hw, hrest⟩
        exact ⟨w, List.mem_append_left _ hw, hrest⟩
    · intro outcomes
      rw [hfold, (hrow outcomes).1]
      exact h.tables outcomes
    · intro outcomes
      rw [hfold, (hrow outcomes).2]
      exact fun q hq => (h.written outcomes q hq).imp_left (List.mem_append_left _)
    · intro outcomes q hq hqgood hmem
      rw [hfold, (hrow outcomes).2]
      rcases List.mem_append.mp hq with hq | hq
      · exact h.reported outcomes q hq hqgood hmem
      · rw [List.mem_singleton.mp hq, hgood] at hqgood
        cases hqgood
  | true =>
    have hcollides : ¬ Collides p t.registry r.loopId := by
      rw [collides_iff hcasing h.within hid]
      rintro ⟨y, hy, htwins⟩
      exact hfree y (hids y hy) htwins
    obtain ⟨t', hwrite, hstep⟩ := activateStep_of_good h.stored hgood (hkeeps hgood) hcollides
    have hvalidate := validate_of_isValid hvalid
    have hown := (write_eq_writeChunk h.stored hvalidate (hkeeps hgood)).trans hwrite
    obtain ⟨hstored, hids'⟩ := write_spec h.stored hvalidate hown
    have hrow : ∀ outcomes, (bulkRow p (acc.2.rows.foldl (bulkRow p) ⟨s, outcomes, []⟩) r).tables = t' ∧
        (bulkRow p (acc.2.rows.foldl (bulkRow p) ⟨s, outcomes, []⟩) r).sieve.rows =
          (acc.2.rows.foldl (bulkRow p) ⟨s, outcomes, []⟩).sieve.rows ++ [r] := by
      intro outcomes
      rw [bulkRow_of_some (by rw [h.tables outcomes]; exact hwrite)]
      exact ⟨rfl, rfl⟩
    rw [hstep]
    refine ⟨hstored, ?_, ⟨_, hknows.add hfree, ?_, ?_⟩, ?_, ?_, ?_⟩
    · intro id hmem
      rcases (hids' id).mp hmem with rfl | hmem
      · exact hid
      · exact h.within id hmem
    · exact fun id hmem => ((hids' id).mp hmem).imp_right (hids id)
    · rintro id (rfl | hmem)
      · exact .inl ((hids' _).mpr (.inl rfl))
      · rcases hheld id hmem with hmem | ⟨w, hw, hrest⟩
        · exact .inl ((hids' id).mpr (.inr hmem))
        · exact .inr ⟨w, List.mem_append_left _ hw, hrest⟩
    · intro outcomes
      rw [hfold]
      exact (hrow outcomes).1
    · intro outcomes q hq
      rw [hfold, (hrow outcomes).2, List.mem_append, List.mem_singleton] at hq
      rcases hq with hq | rfl
      · obtain ⟨hqrow, hqgood, hmem⟩ := h.written outcomes q hq
        exact ⟨List.mem_append_left _ hqrow, hqgood, (hids' _).mpr (.inr hmem)⟩
      · exact ⟨List.mem_append_right _ List.mem_cons_self, hgood, (hids' _).mpr (.inl rfl)⟩
    · intro outcomes q hq hqgood hmem
      rw [hfold, (hrow outcomes).2, List.map_append, List.mem_append]
      rcases (hids' _).mp hmem with heq | hmem
      · exact .inr (heq ▸ List.mem_cons_self)
      · rcases List.mem_append.mp hq with hq | hq
        · exact .inl (h.reported outcomes q hq hqgood hmem)
        · exact .inr (List.mem_map_of_mem hq)

theorem Matches.step (h : Matches p among s rows t acc)
    (hcasing : ∀ a ∈ among, ∀ b ∈ among, (p.lower a = p.lower b ↔
      p.toLowerInvariant a = p.toLowerInvariant b))
    (hid : r.loopId ∈ among) (hvalid : isValid p r = true) (hlocated : isLocated p r = true)
    (hlate : ∀ w ∈ rows, isWritable w = false → isGood p r = true → ¬ Twins p w.loopId r.loopId)
    (hkeeps : isGood p r = true → KeepsStored t r) :
    Matches p among s (rows ++ [r]) (activateStep p mergeEngineering t r).1 (collideRow p acc r) := by
  obtain ⟨held, hknows, hids, hheld⟩ := h.held
  rcases collideRow_eq hknows acc.2 r with ⟨⟨a, ha, htwins⟩, outcomes, hrow⟩ | ⟨hfree, hrow⟩
  · rw [show acc = (acc.1, acc.2) from rfl, hrow]
    exact h.refused hcasing hid hlate hknows hids hheld ha htwins outcomes
  · rw [show acc = (acc.1, acc.2) from rfl, hrow]
    exact h.passed hcasing hid hvalid hlocated hkeeps hknows hids hheld hfree

end Step

theorem matches_run {among : List String} {s : Tables} {rows : List CpmLoopActivateRequest}
    (hstored : Stored p s.registry) (hwithin : ∀ id ∈ idsOf s.registry, id ∈ among)
    (happart : ∀ a ∈ idsOf s.registry, ∀ b ∈ idsOf s.registry, ¬ Twins p a b)
    (hcasing : ∀ a ∈ among, ∀ b ∈ among, (p.lower a = p.lower b ↔
      p.toLowerInvariant a = p.toLowerInvariant b))
    (hrows : ∀ r ∈ rows, isValid p r = true ∧ isLocated p r = true ∧ r.loopId ∈ among)
    (hlate : rows.Pairwise fun w r =>
      isWritable w = false → isGood p r = true → ¬ Twins p w.loopId r.loopId)
    (hkeeps : Machine.Always (activateStep p mergeEngineering)
      (fun t r => isGood p r = true → KeepsStored t r) s rows)
    (outcomes : Dict String CpmBulkActivateItem) :
    Matches p among s rows (Machine.stateAfter (activateStep p mergeEngineering) s rows)
      (rows.foldl (collideRow p) (knownIds p s, ⟨outcomes, []⟩)) := by
  induction rows using List.reverseRecOn with
  | nil =>
    exact ⟨hstored, hwithin, ⟨_, knows_knownIds happart, fun _ hid => hid, fun _ hid => .inl hid⟩,
      fun _ => rfl, fun _ => List.forall_mem_nil _, fun _ => List.forall_mem_nil _⟩
  | append_singleton rows r ih =>
    rw [List.pairwise_append] at hlate
    rw [Machine.always_concat] at hkeeps
    have hmatches := ih (fun q hq => hrows q (List.mem_append_left _ hq)) hlate.1 hkeeps.1
    obtain ⟨hvalid, hlocated, hid⟩ := hrows r (List.mem_append_right _ List.mem_cons_self)
    rw [Machine.stateAfter_concat, List.foldl_append, List.foldl_cons, List.foldl_nil]
    exact hmatches.step hcasing hid hvalid hlocated
      (fun w hw => hlate.2.2 w hw r List.mem_cons_self) hkeeps.2

end CpmLoopRegistryService

end OpenBridge.Registry
