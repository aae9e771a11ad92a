import OpenBridge.Ingestion.LoopJoiner

/-!
# Ingestion: what the joiner emits

The history of a run says which source timestamp each role of a loop has now, and which timestamps
the loop must never publish again.

Every fact about a run is carried by `Kept`, the relation between a loop's state and the history.
-/

namespace OpenBridge.Ingestion

open OpenBridge.Foundation

namespace LoopJoiner

variable (fold : String → String)

/-! ## The history of a run -/

inductive Sighting where
  /-- a value from the wire, which is always taken -/
  | live (tsMs : ℤ)
  /-- a value from the state store, which is taken when it is newer -/
  | saved (tsMs : ℤ)

def savedTs (role : String) (row : SeedRow) : Option ℤ :=
  if role = "mode" then row.modeToken.map fun _ => row.modeTsMs
  else (row.members.get? role).map (·.tsMs)

/-- What the call says about the role of the loop stored under `key`. -/
def sighting (key role : String) : Call → Option Sighting
  | .seed loop row _ _ =>
      if fold loop.loopId = key then (savedTs role row).map .saved else none
  | .accept loop _ mapped payload _ _ =>
      if fold loop.loopId = key ∧ mapped.role = role then some (.live payload.tsMs) else none
  | .tick _ _ => none

def sight (current : Option ℤ) : Option Sighting → Option ℤ
  | none => current
  | some (.live ts) => some ts
  | some (.saved ts) => some (current.elim ts (max · ts))

def currentTs (key role : String) (calls : List Call) : Option ℤ :=
  calls.foldl (fun current call => sight current (sighting fold key role call)) none

def seededWatermark (key : String) : Call → Option ℤ
  | .seed loop row _ _ => if fold loop.loopId = key then some row.lastEmittedTsMs else none
  | _ => none

def seededWatermarks (key : String) (calls : List Call) : List ℤ :=
  calls.filterMap (seededWatermark fold key)

def ofLoop (key : String) (t : LoopTuple) : Bool := fold t.loopId = key

def emitted (key : String) (calls : List Call) : List LoopTuple :=
  (Machine.outputs (step fold) empty calls).filter (ofLoop fold key)

def emittedTs (key : String) (calls : List Call) : List ℤ :=
  (emitted fold key calls).map (·.eventTsMs)

@[simp] theorem currentTs_concat (key role : String) (calls : List Call) (c : Call) :
    currentTs fold key role (calls ++ [c]) =
      sight (currentTs fold key role calls) (sighting fold key role c) := by
  simp [currentTs]

@[simp] theorem seededWatermarks_concat (key : String) (calls : List Call) (c : Call) :
    seededWatermarks fold key (calls ++ [c]) =
      seededWatermarks fold key calls ++ (seededWatermark fold key c).toList := by
  simp only [seededWatermarks, List.filterMap_append, List.filterMap_cons, List.filterMap_nil]
  cases seededWatermark fold key c <;> rfl

theorem emitted_concat (key : String) (calls : List Call) (c : Call) :
    emitted fold key (calls ++ [c]) =
      emitted fold key calls ++ ((step fold (after fold calls) c).2).filter (ofLoop fold key) := by
  simp [emitted, after]

/-! ## The state of a loop against its history -/

def numberRoles : List String := ["pv", "sp", "op", "vp"]

def tupleRoles : List String := numberRoles ++ ["mode"]

/-- The state of a loop agrees with the history: each role has its current timestamp, and the
emission watermark is not below any timestamp the loop must not publish again. -/
structure Kept (key : String) (calls : List Call) (st : LoopState) : Prop where
  member : ∀ role ∈ numberRoles, (st.members.get? role).map (·.tsMs) = currentTs fold key role calls
  mode : (st.mode.map fun _ => st.modeTsMs) = currentTs fold key "mode" calls
  modeUnset : st.mode = none → st.modeTsMs = 0
  nonneg : 0 ≤ st.lastEmittedTsMs
  seeded : ∀ w ∈ seededWatermarks fold key calls, w ≤ st.lastEmittedTsMs
  published : ∀ w ∈ emittedTs fold key calls, w ≤ st.lastEmittedTsMs

structure Silent (key : String) (calls : List Call) : Prop where
  unseen : ∀ role ∈ tupleRoles, currentTs fold key role calls = none
  unseeded : seededWatermarks fold key calls = []
  unpublished : emittedTs fold key calls = []

def Sound (calls : List Call) (j : LoopJoiner) : Prop :=
  ∀ key, match j.loops.get? key with
    | none => Silent fold key calls
    | some st => fold st.loop.loopId = key ∧ Kept fold key calls st

variable {fold}

theorem mode_not_mem_numberRoles {role : String} (h : role ∈ numberRoles) : role ≠ "mode" := by
  rintro rfl
  revert h
  decide

theorem numberRoles_tupleMember {role : String} (h : role ∈ numberRoles) :
    tupleMembers.contains role = true := by
  simp only [numberRoles, List.mem_cons, List.not_mem_nil, or_false] at h
  rcases h with rfl | rfl | rfl | rfl <;> decide

theorem Silent.kept_new {key : String} {calls : List Call} (h : Silent fold key calls)
    (loop : RegistryLoop) (nowMs : ℤ) (cfg : LoopIngestSettings) :
    Kept fold key calls (newLoopState loop nowMs cfg) where
  member := fun role hr => by
    rw [h.unseen role (List.mem_append_left _ hr)]
    rfl
  mode := by
    rw [h.unseen "mode" (by decide)]
    rfl
  modeUnset := fun _ => rfl
  nonneg := le_refl 0
  seeded := by simp [h.unseeded]
  published := by simp [h.unpublished]

theorem Sound.kept_stateFor {calls : List Call} {j : LoopJoiner} (h : Sound fold calls j)
    (loop : RegistryLoop) (nowMs : ℤ) (cfg : LoopIngestSettings) :
    Kept fold (fold loop.loopId) calls (stateFor fold j loop nowMs cfg) := by
  have hk := h (fold loop.loopId)
  unfold stateFor
  split at hk
  · rename_i hnone
    rw [hnone]
    exact hk.kept_new loop nowMs cfg
  · rename_i st hsome
    rw [hsome]
    exact hk.2

/-! ## What one call does to the history of a loop -/

theorem emittedTs_concat_of_not_tick {calls : List Call} {c : Call} (key : String)
    (h : (step fold (after fold calls) c).2 = []) :
    emittedTs fold key (calls ++ [c]) = emittedTs fold key calls := by
  simp [emittedTs, emitted_concat, h]

theorem Silent.concat {key : String} {calls : List Call} {c : Call} (h : Silent fold key calls)
    (hsight : ∀ role, sighting fold key role c = none) (hseed : seededWatermark fold key c = none)
    (hout : ((step fold (after fold calls) c).2).filter (ofLoop fold key) = []) :
    Silent fold key (calls ++ [c]) where
  unseen := fun role hr => by
    rw [currentTs_concat, hsight, sight]
    exact h.unseen role hr
  unseeded := by simp [h.unseeded, hseed]
  unpublished := by
    have := h.unpublished
    simp only [emittedTs] at this
    simp [emittedTs, emitted_concat, hout, this]

theorem Kept.concat_untouched {key : String} {calls : List Call} {c : Call} {st : LoopState}
    (h : Kept fold key calls st) (hsight : ∀ role, sighting fold key role c = none)
    (hseed : seededWatermark fold key c = none)
    (hout : ((step fold (after fold calls) c).2).filter (ofLoop fold key) = []) :
    Kept fold key (calls ++ [c]) st where
  member := fun role hr => by
    rw [currentTs_concat, hsight, sight]
    exact h.member role hr
  mode := by
    rw [currentTs_concat, hsight, sight]
    exact h.mode
  modeUnset := h.modeUnset
  nonneg := h.nonneg
  seeded := by simpa [hseed] using h.seeded
  published := by
    have := h.published
    simp only [emittedTs] at this ⊢
    simpa [emitted_concat, hout] using this

/-! ## Seeding a loop -/

theorem get?_seedEntry_of_ne {bucket : Dict String Member} {entry : String × SavedMember}
    {role : String} (h : role ≠ entry.1) :
    (seedEntry bucket entry).get? role = bucket.get? role := by
  unfold seedEntry
  split
  · split
    · rfl
    · exact Dict.get?_set_of_ne _ _ h
  · exact Dict.get?_set_of_ne _ _ h

theorem ts_seedEntry_self (bucket : Dict String Member) (entry : String × SavedMember) :
    ((seedEntry bucket entry).get? entry.1).map (·.tsMs) =
      sight ((bucket.get? entry.1).map (·.tsMs)) (some (.saved entry.2.tsMs)) := by
  unfold seedEntry
  split
  · rename_i existing hex
    split
    · rename_i hge
      rw [hex]
      simp only [sight, Option.map_some, Option.elim_some, max_eq_left hge]
    · rename_i hlt
      rw [Dict.get?_set_self, hex]
      simp only [sight, Option.map_some, Option.elim_some, restoredMember]
      rw [max_eq_right (le_of_not_ge hlt)]
  · rename_i hnone
    rw [Dict.get?_set_self, hnone]
    rfl

theorem ts_foldl_seedEntry {es : List (String × SavedMember)} (hn : (es.map Prod.fst).Nodup)
    (bucket : Dict String Member) (role : String) :
    ((es.foldl seedEntry bucket).get? role).map (·.tsMs) =
      sight ((bucket.get? role).map (·.tsMs)) ((es.lookup role).map fun s => .saved s.tsMs) := by
  induction es generalizing bucket with
  | nil => rfl
  | cons e rest ih =>
    simp only [List.map_cons, List.nodup_cons] at hn
    rw [List.foldl_cons, ih hn.2, List.lookup_cons]
    by_cases hr : role = e.1
    · subst hr
      have hnone : rest.lookup e.1 = none := List.lookup_eq_none_iff.mpr fun q hq => by
        simp only [bne_iff_ne, ne_eq]
        rintro heq
        exact hn.1 (heq ▸ List.mem_map_of_mem hq)
      rw [hnone, beq_self_eq_true, ts_seedEntry_self]
      rfl
    · have hb : (role == e.1) = false := beq_false_of_ne hr
      rw [hb, get?_seedEntry_of_ne hr]

theorem ts_seedBucket (bucket : Dict String Member) (seeds : Dict String SavedMember)
    (role : String) :
    ((seedBucket bucket seeds).get? role).map (·.tsMs) =
      sight ((bucket.get? role).map (·.tsMs)) ((seeds.get? role).map fun s => .saved s.tsMs) :=
  ts_foldl_seedEntry seeds.nodupKeys bucket role

theorem mode_seedMode (st : LoopState) (row : SeedRow) :
    ((seedMode st row).mode.map fun _ => (seedMode st row).modeTsMs) =
      sight (st.mode.map fun _ => st.modeTsMs)
        (row.modeToken.map fun _ => .saved row.modeTsMs) := by
  unfold seedMode
  split
  · rename_i hnone
    rw [hnone]
    rfl
  · rename_i token htoken
    rw [htoken]
    split
    · rename_i hcond
      rcases hcond with hmode | hnewer
      · simp [hmode, sight]
      · cases hm : st.mode with
        | none => simp [sight]
        | some _ => simp [sight, max_eq_right (le_of_lt hnewer)]
    · rename_i hcond
      obtain ⟨hm, hle⟩ := not_or.mp hcond
      obtain ⟨token', hm'⟩ := Option.ne_none_iff_exists'.mp hm
      simp [hm', sight, max_eq_left (not_lt.mp hle)]

@[simp] theorem members_seedMode (st : LoopState) (row : SeedRow) :
    (seedMode st row).members = st.members := by
  unfold seedMode
  split
  · rfl
  · split <;> rfl

@[simp] theorem lastEmittedTsMs_seedMode (st : LoopState) (row : SeedRow) :
    (seedMode st row).lastEmittedTsMs = st.lastEmittedTsMs := by
  unfold seedMode
  split
  · rfl
  · split <;> rfl

theorem modeUnset_seedMode {st : LoopState} {row : SeedRow} (h : st.mode = none → st.modeTsMs = 0) :
    (seedMode st row).mode = none → (seedMode st row).modeTsMs = 0 := by
  unfold seedMode
  split
  · exact h
  · split
    · simp
    · exact h

@[simp] theorem loop_seedMode (st : LoopState) (row : SeedRow) :
    (seedMode st row).loop = st.loop := by
  unfold seedMode
  split
  · rfl
  · split <;> rfl

@[simp] theorem lastEmittedTsMs_raiseWatermark (st : LoopState) (ts : ℤ) :
    (raiseWatermark st ts).lastEmittedTsMs = max st.lastEmittedTsMs ts := by
  unfold raiseWatermark
  split
  · rename_i h
    exact (max_eq_right (le_of_lt h)).symm
  · rename_i h
    exact (max_eq_left (not_lt.mp h)).symm

theorem raiseWatermark_eq (st : LoopState) (ts : ℤ) :
    raiseWatermark st ts =
      { st with lastEmittedTsMs := (raiseWatermark st ts).lastEmittedTsMs } := by
  unfold raiseWatermark
  split <;> rfl

@[simp] theorem loop_seedState (st : LoopState) (loop : RegistryLoop) (row : SeedRow) :
    (seedState st loop row).loop = loop := by
  rw [seedState, raiseWatermark_eq]
  exact loop_seedMode _ _

@[simp] theorem members_seedState (st : LoopState) (loop : RegistryLoop) (row : SeedRow) :
    (seedState st loop row).members = seedBucket st.members row.members := by
  rw [seedState, raiseWatermark_eq]
  exact members_seedMode _ _

@[simp] theorem lastEmittedTsMs_seedState (st : LoopState) (loop : RegistryLoop) (row : SeedRow) :
    (seedState st loop row).lastEmittedTsMs = max st.lastEmittedTsMs row.lastEmittedTsMs := by
  rw [seedState, lastEmittedTsMs_raiseWatermark, lastEmittedTsMs_seedMode]
  rfl

theorem mode_seedState (st : LoopState) (loop : RegistryLoop) (row : SeedRow) :
    ((seedState st loop row).mode.map fun _ => (seedState st loop row).modeTsMs) =
      sight (st.mode.map fun _ => st.modeTsMs)
        (row.modeToken.map fun _ => .saved row.modeTsMs) := by
  rw [seedState, raiseWatermark_eq]
  exact mode_seedMode _ row

theorem modeUnset_seedState {st : LoopState} {loop : RegistryLoop} {row : SeedRow}
    (h : st.mode = none → st.modeTsMs = 0) :
    (seedState st loop row).mode = none → (seedState st loop row).modeTsMs = 0 := by
  rw [seedState, raiseWatermark_eq]
  exact @modeUnset_seedMode (seedValues st loop row) row h

theorem Kept.seedState {calls : List Call} {st : LoopState} {loop : RegistryLoop}
    (h : Kept fold (fold loop.loopId) calls st) (row : SeedRow) (cfg : LoopIngestSettings)
    (nowMs : ℤ) :
    Kept fold (fold loop.loopId) (calls ++ [.seed loop row cfg nowMs])
      (seedState st loop row) := by
  refine ⟨?_, ?_, ?_, ?_, ?_, ?_⟩
  · intro role hr
    rw [currentTs_concat, ← h.member role hr]
    simp only [members_seedState, ts_seedBucket, sighting, if_true, savedTs,
      if_neg (mode_not_mem_numberRoles hr), Option.map_map, Function.comp_def]
  · rw [currentTs_concat, ← h.mode]
    simp only [sighting, savedTs, if_true, Option.map_map, Function.comp_def]
    exact mode_seedState st loop row
  · exact modeUnset_seedState h.modeUnset
  · rw [lastEmittedTsMs_seedState]
    exact le_trans h.nonneg (le_max_left _ _)
  · intro w hw
    rw [lastEmittedTsMs_seedState]
    simp only [seededWatermarks_concat, seededWatermark, if_true, List.mem_append,
      Option.mem_toList, Option.some.injEq] at hw
    rcases hw with hw | rfl
    · exact le_trans (h.seeded w hw) (le_max_left _ _)
    · exact le_max_right _ _
  · intro w hw
    rw [emittedTs_concat_of_not_tick _ rfl] at hw
    rw [lastEmittedTsMs_seedState]
    exact le_trans (h.published w hw) (le_max_left _ _)

/-! ## A value from the wire -/

@[simp] theorem loop_acceptState (st : LoopState) (loop : RegistryLoop) (sourceFcs : String)
    (mapped : MappedParameter) (payload : OtLoopPayload) (cfg : LoopIngestSettings) :
    (acceptState st loop sourceFcs mapped payload cfg).loop = loop := by
  simp only [acceptState]
  split
  · rfl
  · split <;> rfl

@[simp] theorem lastEmittedTsMs_acceptState (st : LoopState) (loop : RegistryLoop)
    (sourceFcs : String) (mapped : MappedParameter) (payload : OtLoopPayload)
    (cfg : LoopIngestSettings) :
    (acceptState st loop sourceFcs mapped payload cfg).lastEmittedTsMs = st.lastEmittedTsMs := by
  simp only [acceptState]
  split
  · rfl
  · split <;> rfl

theorem Kept.acceptState {calls : List Call} {st : LoopState} {loop : RegistryLoop}
    (h : Kept fold (fold loop.loopId) calls st) (sourceFcs : String) (mapped : MappedParameter)
    (payload : OtLoopPayload) (cfg : LoopIngestSettings) (nowMs : ℤ) :
    Kept fold (fold loop.loopId) (calls ++ [.accept loop sourceFcs mapped payload cfg nowMs])
      (acceptState st loop sourceFcs mapped payload cfg) := by
  refine ⟨?_, ?_, ?_, ?_, ?_, ?_⟩
  · intro role hr
    rw [currentTs_concat, ← h.member role hr]
    simp only [LoopJoiner.acceptState, sighting, true_and]
    by_cases hrole : mapped.role = role
    · subst hrole
      have hmember : mapped.isTupleMember = true := by
        rw [mapped.isTupleMember_eq]
        exact numberRoles_tupleMember hr
      rw [dif_neg (mode_not_mem_numberRoles hr), if_pos hmember, if_pos rfl]
      simp only [Dict.get?_set_self, Option.map_some, acceptedMember, sight]
    · rw [if_neg hrole]
      split
      · rfl
      · split
        · simp only [Dict.get?_set_of_ne _ _ (Ne.symm hrole), sight]
        · rfl
  · rw [currentTs_concat, ← h.mode]
    simp only [LoopJoiner.acceptState, sighting, true_and]
    by_cases hrole : mapped.role = "mode"
    · rw [dif_pos hrole, if_pos hrole]
      rfl
    · rw [dif_neg hrole, if_neg hrole]
      split <;> rfl
  · simp only [LoopJoiner.acceptState]
    split
    · simp [acceptMode]
    · split <;> exact h.modeUnset
  · rw [lastEmittedTsMs_acceptState]
    exact h.nonneg
  · rw [lastEmittedTsMs_acceptState]
    simpa [seededWatermark] using h.seeded
  · rw [lastEmittedTsMs_acceptState, emittedTs_concat_of_not_tick _ rfl]
    exact h.published

/-! ## The grid -/

theorem tickVerdict_eq_emit {st : LoopState} {nowMs : ℤ} {req : RequiredMembers}
    (h : tickVerdict st nowMs = .emit req) :
    requiredMembers st = some req ∧ st.lastEmittedTsMs < sourceTs st req := by
  unfold tickVerdict at h
  split at h
  · cases h
  · split at h
    · cases h
    · rename_i req' hreq
      split at h
      · cases h
      · rename_i hlt
        simp only [TickVerdict.emit.injEq] at h
        subst h
        exact ⟨hreq, not_le.mp hlt⟩

theorem requiredMembers_eq_some {st : LoopState} {req : RequiredMembers}
    (h : requiredMembers st = some req) :
    st.members.get? "pv" = some req.pv ∧ st.members.get? "sp" = some req.sp ∧
      st.members.get? "op" = some req.op := by
  unfold requiredMembers at h
  split at h
  · rename_i pv sp op hpv hsp hop
    simp only [Option.some.injEq] at h
    subst h
    exact ⟨hpv, hsp, hop⟩
  · cases h

theorem tickTuple_eq_some {st : LoopState} {nowMs : ℤ} {cfg : LoopIngestSettings} {t : LoopTuple}
    (h : tickTuple st nowMs cfg = some t) :
    ∃ req, tickVerdict st nowMs = .emit req ∧ t = tupleOf st req nowMs cfg := by
  unfold tickTuple at h
  split at h
  · rename_i req hreq
    simp only [Option.some.injEq] at h
    exact ⟨req, hreq, h.symm⟩
  · cases h

theorem tickState_frame (st : LoopState) (nowMs : ℤ) (cfg : LoopIngestSettings) :
    (tickState st nowMs cfg).members = st.members ∧ (tickState st nowMs cfg).mode = st.mode ∧
      (tickState st nowMs cfg).modeTsMs = st.modeTsMs ∧
      (tickState st nowMs cfg).loop = st.loop := by
  unfold tickState
  split <;> exact ⟨rfl, rfl, rfl, rfl⟩

theorem lastEmittedTsMs_tickState (st : LoopState) (nowMs : ℤ) (cfg : LoopIngestSettings) :
    (tickState st nowMs cfg).lastEmittedTsMs =
      (tickTuple st nowMs cfg).elim st.lastEmittedTsMs (·.eventTsMs) := by
  unfold tickState tickTuple
  cases tickVerdict st nowMs <;> rfl

theorem lt_eventTsMs_of_tickTuple {st : LoopState} {nowMs : ℤ} {cfg : LoopIngestSettings}
    {t : LoopTuple} (h : tickTuple st nowMs cfg = some t) : st.lastEmittedTsMs < t.eventTsMs := by
  obtain ⟨req, hreq, rfl⟩ := tickTuple_eq_some h
  exact (tickVerdict_eq_emit hreq).2

theorem loopId_of_tickTuple {st : LoopState} {nowMs : ℤ} {cfg : LoopIngestSettings}
    {t : LoopTuple} (h : tickTuple st nowMs cfg = some t) : t.loopId = st.loop.loopId := by
  obtain ⟨req, hreq, rfl⟩ := tickTuple_eq_some h
  rfl

theorem Sound.tick_filter {calls : List Call} {j : LoopJoiner} (h : Sound fold calls j)
    (key : String) (nowMs : ℤ) (cfg : LoopIngestSettings) :
    ((tick j nowMs cfg).2).filter (ofLoop fold key) =
      ((j.loops.get? key).bind (tickTuple · nowMs cfg)).toList := by
  refine Dict.values_filterMap_filter j.loops ?_
  intro e he t ht
  have hk := h e.1
  rw [Dict.get?_eq_some_iff.mpr (show (e.1, e.2) ∈ j.loops.entries from he)] at hk
  simp only [ofLoop, loopId_of_tickTuple ht, hk.1]

theorem Kept.tickState {calls : List Call} {key : String} {st : LoopState}
    (h : Kept fold key calls st) (hs : Sound fold calls (after fold calls))
    (hst : (after fold calls).loops.get? key = some st) (nowMs : ℤ) (cfg : LoopIngestSettings) :
    Kept fold key (calls ++ [.tick nowMs cfg]) (tickState st nowMs cfg) := by
  obtain ⟨hmembers, hmode, hmodeTs, -⟩ := tickState_frame st nowMs cfg
  have hle : st.lastEmittedTsMs ≤ (LoopJoiner.tickState st nowMs cfg).lastEmittedTsMs := by
    rw [lastEmittedTsMs_tickState]
    cases ht : tickTuple st nowMs cfg with
    | none => exact le_refl _
    | some t => exact le_of_lt (lt_eventTsMs_of_tickTuple ht)
  refine ⟨?_, ?_, ?_, le_trans h.nonneg hle, ?_, ?_⟩
  · intro role hr
    rw [currentTs_concat, hmembers, h.member role hr]
    rfl
  · rw [currentTs_concat, hmode, hmodeTs, h.mode]
    rfl
  · rw [hmode, hmodeTs]
    exact h.modeUnset
  · intro w hw
    simp only [seededWatermarks_concat, seededWatermark, Option.toList_none,
      List.append_nil] at hw
    exact le_trans (h.seeded w hw) hle
  · intro w hw
    simp only [emittedTs, emitted_concat, step, hs.tick_filter, hst, Option.bind_some,
      List.map_append, List.mem_append] at hw
    rcases hw with hw | hw
    · exact le_trans (h.published w hw) hle
    · obtain ⟨t, ht, rfl⟩ := List.mem_map.mp hw
      rw [Option.mem_toList] at ht
      rw [lastEmittedTsMs_tickState, ht]
      exact le_refl _

theorem Sound.step {calls : List Call} (h : Sound fold calls (after fold calls)) (c : Call) :
    Sound fold (calls ++ [c]) (step fold (after fold calls) c).1 := by
  intro key
  have hk := h key
  cases c with
  | seed loop row cfg nowMs =>
    simp only [LoopJoiner.step, seed, Dict.get?_set]
    by_cases hkey : key = fold loop.loopId
    · subst hkey
      rw [if_pos rfl]
      exact ⟨by rw [loop_seedState], (h.kept_stateFor loop nowMs cfg).seedState row cfg nowMs⟩
    · rw [if_neg hkey]
      have hsight : ∀ role, sighting fold key role (.seed loop row cfg nowMs) = none :=
        fun role => if_neg (Ne.symm hkey)
      have hseed : seededWatermark fold key (.seed loop row cfg nowMs) = none :=
        if_neg (Ne.symm hkey)
      split at hk
      · exact hk.concat hsight hseed rfl
      · exact ⟨hk.1, hk.2.concat_untouched hsight hseed rfl⟩
  | accept loop sourceFcs mapped payload cfg nowMs =>
    simp only [LoopJoiner.step, accept, Dict.get?_set]
    by_cases hkey : key = fold loop.loopId
    · subst hkey
      rw [if_pos rfl]
      exact ⟨by rw [loop_acceptState],
        (h.kept_stateFor loop nowMs cfg).acceptState sourceFcs mapped payload cfg nowMs⟩
    · rw [if_neg hkey]
      have hsight : ∀ role,
          sighting fold key role (.accept loop sourceFcs mapped payload cfg nowMs) = none :=
        fun role => if_neg fun hand => hkey hand.1.symm
      split at hk
      · exact hk.concat hsight rfl rfl
      · exact ⟨hk.1, hk.2.concat_untouched hsight rfl rfl⟩
  | tick nowMs cfg =>
    simp only [LoopJoiner.step, tick, Dict.get?_mapValues]
    split at hk
    · rename_i hnone
      rw [hnone]
      refine hk.concat (fun role => rfl) rfl ?_
      rw [LoopJoiner.step, h.tick_filter key, hnone]
      rfl
    · rename_i st hsome
      rw [hsome]
      refine ⟨?_, hk.2.tickState h hsome nowMs cfg⟩
      rw [(tickState_frame st nowMs cfg).2.2.2]
      exact hk.1

theorem sound_after (fold : String → String) (calls : List Call) :
    Sound fold calls (after fold calls) := by
  refine Machine.history_invariant (fun calls j => Sound fold calls j) ?_ ?_ calls
  · intro key
    simp only [empty, Dict.get?_empty]
    exact ⟨fun _ _ => rfl, rfl, rfl⟩
  · intro pre c h
    exact h.step c

/-! ## The tuples of a run -/

structure Agrees (fold : String → String) (calls : List Call) (t : LoopTuple) : Prop where
  /-- the required roles have been seen -/
  seen : ∀ role ∈ ["pv", "sp", "op"], (currentTs fold (fold t.loopId) role calls).isSome
  /-- the stamp is the newest current source timestamp of the roles seen -/
  newest : (tupleRoles.filterMap (currentTs fold (fold t.loopId) · calls)).max? = some t.eventTsMs
  /-- the stamp is past every seeded watermark -/
  pastSeeds : ∀ w ∈ seededWatermarks fold (fold t.loopId) calls, w < t.eventTsMs

theorem max_zero_of_pos {x : ℤ} (h : 0 < max x 0) : max x 0 = x := by
  rcases lt_max_iff.mp h with h | h
  · exact max_eq_left (le_of_lt h)
  · exact absurd h (lt_irrefl 0)

theorem Kept.max?_eq {calls : List Call} {key : String} {st : LoopState} {req : RequiredMembers}
    (h : Kept fold key calls st) (hreq : requiredMembers st = some req)
    (hpos : 0 < sourceTs st req) :
    (tupleRoles.filterMap (currentTs fold key · calls)).max? = some (sourceTs st req) := by
  obtain ⟨hpv, hsp, hop⟩ := requiredMembers_eq_some hreq
  have hnum : ∀ role ∈ numberRoles, currentTs fold key role calls =
      (st.members.get? role).map (·.tsMs) := fun role hr => (h.member role hr).symm
  have hlist : tupleRoles.filterMap (currentTs fold key · calls) =
      [req.pv.tsMs, req.sp.tsMs, req.op.tsMs] ++
        ((st.members.get? "vp").map (·.tsMs)).toList ++
        (st.mode.map fun _ => st.modeTsMs).toList := by
    simp only [tupleRoles, numberRoles, List.cons_append, List.nil_append, List.filterMap_cons,
      List.filterMap_nil, hnum "pv" (by decide), hnum "sp" (by decide), hnum "op" (by decide),
      hnum "vp" (by decide), ← h.mode, hpv, hsp, hop, Option.map_some]
    cases st.members.get? "vp" <;> cases st.mode <;> rfl
  rw [hlist]
  cases hvp : st.members.get? "vp" with
  | none =>
    cases hm : st.mode with
    | none =>
      simp only [sourceTs, hvp, h.modeUnset hm] at hpos ⊢
      rw [max_zero_of_pos hpos]
      simp
    | some token =>
      simp only [sourceTs, hvp]
      simp [max_assoc]
  | some vp =>
    cases hm : st.mode with
    | none =>
      simp only [sourceTs, hvp, h.modeUnset hm] at hpos ⊢
      rw [max_zero_of_pos hpos]
      simp [max_assoc]
    | some token =>
      simp only [sourceTs, hvp]
      simp [max_assoc]

theorem exists_state_of_mem_step {calls : List Call} {c : Call} {t : LoopTuple}
    (ht : t ∈ (step fold (after fold calls) c).2) :
    ∃ nowMs cfg st, c = .tick nowMs cfg ∧
      (after fold calls).loops.get? (fold t.loopId) = some st ∧
        tickTuple st nowMs cfg = some t := by
  cases c with
  | seed loop row cfg nowMs => exact absurd ht (List.not_mem_nil)
  | accept loop sourceFcs mapped payload cfg nowMs => exact absurd ht (List.not_mem_nil)
  | tick nowMs cfg =>
    have hmem : t ∈ ((tick (after fold calls) nowMs cfg).2).filter
        (ofLoop fold (fold t.loopId)) :=
      List.mem_filter.mpr ⟨ht, decide_eq_true rfl⟩
    rw [(sound_after fold calls).tick_filter, Option.mem_toList] at hmem
    obtain ⟨st, hst, htuple⟩ := Option.bind_eq_some_iff.mp hmem
    exact ⟨nowMs, cfg, st, rfl, hst, htuple⟩

theorem agrees_of_mem_step {calls : List Call} {c : Call} {t : LoopTuple}
    (ht : t ∈ (step fold (after fold calls) c).2) : Agrees fold calls t := by
  obtain ⟨nowMs, cfg, st, rfl, hst, htuple⟩ := exists_state_of_mem_step ht
  have hsound := sound_after fold calls (fold t.loopId)
  rw [hst] at hsound
  have hkept := hsound.2
  have hpast := lt_eventTsMs_of_tickTuple htuple
  obtain ⟨req, hreq, rfl⟩ := tickTuple_eq_some htuple
  have hmembers := (tickVerdict_eq_emit hreq).1
  obtain ⟨hpv, hsp, hop⟩ := requiredMembers_eq_some hmembers
  refine ⟨?_, hkept.max?_eq hmembers (lt_of_le_of_lt hkept.nonneg hpast), ?_⟩
  · intro role hr
    simp only [List.mem_cons, List.not_mem_nil, or_false] at hr
    rcases hr with rfl | rfl | rfl
    · rw [← hkept.member "pv" (by decide), hpv]
      rfl
    · rw [← hkept.member "sp" (by decide), hsp]
      rfl
    · rw [← hkept.member "op" (by decide), hop]
      rfl
  · exact fun w hw => lt_of_le_of_lt (hkept.seeded w hw) hpast

theorem emittedTs_pairwise (fold : String → String) (key : String) (calls : List Call) :
    (emittedTs fold key calls).Pairwise (· < ·) := by
  induction calls using List.reverseRecOn with
  | nil => exact List.Pairwise.nil
  | append_singleton pre c ih =>
    rw [emittedTs, emitted_concat, List.map_append, List.pairwise_append]
    refine ⟨ih, ?_, ?_⟩
    · cases c with
      | tick nowMs cfg =>
        simp only [step, (sound_after fold pre).tick_filter key nowMs cfg]
        cases ((after fold pre).loops.get? key).bind (tickTuple · nowMs cfg) <;> simp
      | _ => exact List.Pairwise.nil
    · intro w hw v hv
      obtain ⟨t, ht, rfl⟩ := List.mem_map.mp hv
      obtain ⟨ht, hkey⟩ := List.mem_filter.mp ht
      obtain ⟨nowMs, cfg, st, rfl, hst, htuple⟩ := exists_state_of_mem_step ht
      rw [of_decide_eq_true hkey] at hst
      have hsound := sound_after fold pre key
      rw [hst] at hsound
      exact lt_of_le_of_lt (hsound.2.published w hw) (lt_eventTsMs_of_tickTuple htuple)

/-- **Emission invariant.** Over every run of calls every tuple agrees with the history before it,
and the timestamps of each loop strictly increase. -/
theorem emission_invariant (fold : String → String) (calls : List Call) :
    (∀ pre c post, calls = pre ++ c :: post →
      ∀ t ∈ (step fold (after fold pre) c).2, Agrees fold pre t) ∧
    ∀ key, (emittedTs fold key calls).Pairwise (· < ·) :=
  ⟨fun _ _ _ _ _ ht => agrees_of_mem_step ht, fun key => emittedTs_pairwise fold key calls⟩

end LoopJoiner

end OpenBridge.Ingestion
