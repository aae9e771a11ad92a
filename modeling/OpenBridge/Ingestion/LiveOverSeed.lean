import OpenBridge.Ingestion.Restart

/-!
# Ingestion: what a seed does to values from the wire

`Seed` compares the saved source timestamp with the one present, whatever put it there.
-/

namespace OpenBridge.Ingestion

open OpenBridge.Foundation

namespace LoopJoiner

inductive Slot where
  | member (role : String)
  | extra (role : String)
  | mode
  deriving DecidableEq

structure HeldMode where
  token : String
  tsMs : ℤ
  native : Option String
  qualityNative : String
  good : Bool
  quality : NormalizedQuality
  qualityProtocol : String
  deriving DecidableEq

inductive Held where
  | value (m : Member)
  | mode (m : HeldMode)
  deriving DecidableEq

def Held.tsMs : Held → ℤ
  | .value m => m.tsMs
  | .mode m => m.tsMs

def heldIn (st : LoopState) : Slot → Option Held
  | .member role => (st.members.get? role).map .value
  | .extra role => (st.extras.get? role).map .value
  | .mode => st.mode.map fun token => .mode ⟨token, st.modeTsMs, st.modeNative, st.modeQualityNative,
      st.modeGood, st.modeQuality, st.modeQualityProtocol⟩

def held (j : LoopJoiner) (key : String) (slot : Slot) : Option Held :=
  (j.loops.get? key).bind (heldIn · slot)

def slotOf (mapped : MappedParameter) : Slot :=
  if mapped.role = "mode" then .mode
  else if mapped.isTupleMember then .member mapped.role
  else .extra mapped.role

def SeedRow.tsMs (row : SeedRow) : Slot → Option ℤ
  | .member role => (row.members.get? role).map (·.tsMs)
  | .extra role => (row.extras.get? role).map (·.tsMs)
  | .mode => row.modeToken.map fun _ => row.modeTsMs

variable {fold : String → String}

/-- The slot of the loop holds what `Accept` put there: the call came, and no later call changed
what the slot holds. -/
inductive FromWire (fold : String → String) (key : String) : Slot → List Call → Prop where
  | accept (calls : List Call) (loop : RegistryLoop) (sourceFcs : String) (mapped : MappedParameter)
      (payload : OtLoopPayload) (cfg : LoopIngestSettings) (nowMs : ℤ) (h : fold loop.loopId = key) :
      FromWire fold key (slotOf mapped)
        (calls ++ [.accept loop sourceFcs mapped payload cfg nowMs])
  | kept {slot : Slot} {calls : List Call} (h : FromWire fold key slot calls) (c : Call)
      (hsame : held (after fold (calls ++ [c])) key slot = held (after fold calls) key slot) :
      FromWire fold key slot (calls ++ [c])

/-- Every slot of a kind holds in the second joiner what it holds in the first. -/
def Keeps (kind : String → Slot → Prop) (j j' : LoopJoiner) : Prop :=
  ∀ key slot, kind key slot → held j' key slot = held j key slot

/-- No value of a seed is newer than what a slot of a kind holds. -/
def NoNewer (kind : String → Slot → Prop) (j : LoopJoiner) (key : String) (row : SeedRow) : Prop :=
  ∀ slot h, kind key slot → held j key slot = some h → ∀ t, row.tsMs slot = some t → t ≤ h.tsMs

def Present (j : LoopJoiner) (key : String) (slot : Slot) : Prop := (held j key slot).isSome

/-! ## What a slot holds after a call -/

theorem held_acceptState (st : LoopState) (loop : RegistryLoop) (sourceFcs : String)
    (mapped : MappedParameter) (payload : OtLoopPayload) (cfg : LoopIngestSettings) :
    (heldIn (acceptState st loop sourceFcs mapped payload cfg) (slotOf mapped)).isSome := by
  unfold acceptState slotOf
  dsimp only
  split
  · rfl
  · split
    · simp [heldIn]
    · simp [heldIn]

theorem FromWire.present {key : String} {slot : Slot} {calls : List Call}
    (h : FromWire fold key slot calls) : Present (after fold calls) key slot := by
  induction h with
  | accept calls loop sourceFcs mapped payload cfg nowMs h =>
    unfold Present held after
    rw [Machine.stateAfter_concat]
    simp only [step, LoopJoiner.accept, h, Dict.get?_set_self, Option.bind_some]
    exact held_acceptState _ _ _ _ _ _
  | kept _ c hsame ih =>
    unfold Present
    rw [hsame]
    exact ih

theorem get?_seedEntry_self (bucket : Dict String Member) (entry : String × SavedMember) :
    (seedEntry bucket entry).get? entry.1 =
      if (bucket.get? entry.1).any fun m => m.tsMs ≥ entry.2.tsMs then bucket.get? entry.1
      else some (restoredMember entry.2) := by
  unfold seedEntry
  cases h : bucket.get? entry.1 with
  | none => exact Dict.get?_set_self ..
  | some existing =>
    dsimp only [Option.any_some]
    by_cases hge : existing.tsMs ≥ entry.2.tsMs
    · rw [if_pos hge, if_pos (decide_eq_true hge), h]
    · rw [if_neg hge, if_neg (by rwa [decide_eq_true_eq]), Dict.get?_set_self]

theorem get?_foldl_seedEntry {es : List (String × SavedMember)} (hn : (es.map Prod.fst).Nodup)
    (bucket : Dict String Member) (role : String) :
    (es.foldl seedEntry bucket).get? role =
      match es.lookup role with
      | none => bucket.get? role
      | some saved =>
          if (bucket.get? role).any fun m => m.tsMs ≥ saved.tsMs then bucket.get? role
          else some (restoredMember saved) := by
  induction es generalizing bucket with
  | nil => rfl
  | cons e rest ih =>
    simp only [List.map_cons, List.nodup_cons] at hn
    rw [List.foldl_cons, ih hn.2, List.lookup_cons]
    by_cases hr : role = e.1
    · subst hr
      have hnone : rest.lookup e.1 = none := List.lookup_eq_none_iff.mpr fun q hq => by
        simp only [bne_iff_ne, ne_eq]
        rintro heq
        exact hn.1 (heq ▸ List.mem_map_of_mem hq)
      rw [hnone, beq_self_eq_true]
      exact get?_seedEntry_self bucket e
    · have hb : (role == e.1) = false := beq_false_of_ne hr
      rw [hb, get?_seedEntry_of_ne hr]

theorem get?_seedBucket_eq_iff {bucket : Dict String Member} {seeds : Dict String SavedMember}
    {role : String} {m : Member} (h : bucket.get? role = some m) :
    (seedBucket bucket seeds).get? role = some m ↔
      ∀ t, (seeds.get? role).map (·.tsMs) = some t → t ≤ m.tsMs := by
  unfold seedBucket Dict.get?
  have hfold := get?_foldl_seedEntry seeds.nodupKeys bucket role
  unfold Dict.get? at hfold h
  rw [hfold, h]
  cases seeds.entries.lookup role with
  | none => simp
  | some saved =>
    simp only [Option.any_some, ge_iff_le, decide_eq_true_eq, Option.map_some, Option.some.injEq,
      forall_eq']
    by_cases hle : saved.tsMs ≤ m.tsMs
    · simp [hle]
    · simp only [hle, if_false, iff_false, Option.some.injEq]
      intro heq
      exact hle (le_of_eq (congrArg Member.tsMs heq))

theorem heldIn_mode_seedMode {st : LoopState} {row : SeedRow} {h : Held}
    (hheld : heldIn st .mode = some h) :
    heldIn (seedMode st row) .mode = some h ↔ ∀ t, row.tsMs .mode = some t → t ≤ h.tsMs := by
  unfold heldIn at hheld
  cases hmode : st.mode with
  | none =>
    rw [hmode] at hheld
    cases hheld
  | some token =>
    rw [hmode] at hheld
    obtain rfl := Option.some.inj hheld
    unfold seedMode SeedRow.tsMs
    cases row.modeToken with
    | none => simp [heldIn, hmode]
    | some saved =>
      simp only [hmode, Option.map_some, Option.some.injEq, forall_eq', Held.tsMs,
        reduceCtorEq, false_or, gt_iff_lt]
      by_cases hlt : st.modeTsMs < row.modeTsMs
      · rw [if_pos hlt]
        simp only [heldIn, Option.map_some, Option.some.injEq, Held.mode.injEq,
          HeldMode.mk.injEq]
        constructor
        · rintro ⟨-, hts, -⟩
          exact le_of_eq hts
        · intro hle
          omega
      · rw [if_neg hlt]
        simp only [heldIn, hmode, Option.map_some]
        exact iff_of_true trivial (not_lt.mp hlt)

theorem heldIn_seedState_iff {st : LoopState} {loop : RegistryLoop} {row : SeedRow} {slot : Slot}
    {h : Held} (hheld : heldIn st slot = some h) :
    heldIn (seedState st loop row) slot = some h ↔ ∀ t, row.tsMs slot = some t → t ≤ h.tsMs := by
  cases slot with
  | member role =>
    obtain ⟨m, hm, rfl⟩ := Option.map_eq_some_iff.mp hheld
    unfold heldIn SeedRow.tsMs
    dsimp only
    rw [members_seedState, Option.map_eq_some_iff]
    simp only [Held.value.injEq, exists_eq_right]
    exact get?_seedBucket_eq_iff hm
  | extra role =>
    obtain ⟨m, hm, rfl⟩ := Option.map_eq_some_iff.mp hheld
    unfold heldIn SeedRow.tsMs
    dsimp only
    rw [extras_seedState, Option.map_eq_some_iff]
    simp only [Held.value.injEq, exists_eq_right]
    exact get?_seedBucket_eq_iff hm
  | mode =>
    have hmode : heldIn (seedState st loop row) .mode =
        heldIn (seedMode (seedValues st loop row) row) .mode := by
      unfold seedState
      rw [raiseWatermark_eq]
      rfl
    rw [hmode]
    exact heldIn_mode_seedMode hheld

/-! ## Seeding a joiner -/

theorem held_seed_of_ne {j : LoopJoiner} {loop : RegistryLoop} {row : SeedRow}
    {cfg : LoopIngestSettings} {nowMs : ℤ} {key : String} (h : key ≠ fold loop.loopId)
    (slot : Slot) : held (seed fold j loop row cfg nowMs) key slot = held j key slot := by
  unfold held seed
  rw [Dict.get?_set_of_ne _ _ h]

theorem held_seed_iff {j : LoopJoiner} {loop : RegistryLoop} {row : SeedRow}
    {cfg : LoopIngestSettings} {nowMs : ℤ} {slot : Slot} {h : Held}
    (hheld : held j (fold loop.loopId) slot = some h) :
    held (seed fold j loop row cfg nowMs) (fold loop.loopId) slot = some h ↔
      ∀ t, row.tsMs slot = some t → t ≤ h.tsMs := by
  obtain ⟨st, hst, hslot⟩ := Option.bind_eq_some_iff.mp hheld
  unfold held seed stateFor
  rw [Dict.get?_set_self, hst]
  exact heldIn_seedState_iff hslot

theorem keeps_seed_iff {kind : String → Slot → Prop} {j : LoopJoiner} {loop : RegistryLoop}
    {row : SeedRow} {cfg : LoopIngestSettings} {nowMs : ℤ}
    (hpresent : ∀ key slot, kind key slot → Present j key slot) :
    Keeps kind j (seed fold j loop row cfg nowMs) ↔ NoNewer kind j (fold loop.loopId) row := by
  constructor
  · intro hkeeps slot h hkind hheld
    exact (held_seed_iff hheld).mp ((hkeeps _ slot hkind).trans hheld)
  · intro hnewer key slot hkind
    by_cases hkey : key = fold loop.loopId
    · subst hkey
      obtain ⟨h, hheld⟩ := Option.isSome_iff_exists.mp (hpresent _ slot hkind)
      rw [hheld, held_seed_iff hheld]
      exact hnewer slot h hkind hheld
    · exact held_seed_of_ne hkey slot

/-- **Live over seed**: in every state that calls lead to, a seed keeps what the wire put there
exactly when it has nothing newer for those slots. -/
theorem seed_keeps_live (fold : String → String) (calls : List Call) (loop : RegistryLoop)
    (row : SeedRow) (cfg : LoopIngestSettings) (nowMs : ℤ) :
    let j := after fold calls
    let seeded := after fold (calls ++ [.seed loop row cfg nowMs])
    let live := fun key slot => FromWire fold key slot calls
    (Keeps live j seeded ↔ NoNewer live j (fold loop.loopId) row) ∧
      (Keeps (Present j) j seeded ↔ NoNewer (Present j) j (fold loop.loopId) row) := by
  dsimp only
  have hseeded : after fold (calls ++ [.seed loop row cfg nowMs]) =
      seed fold (after fold calls) loop row cfg nowMs := by
    unfold after
    rw [Machine.stateAfter_concat]
    rfl
  rw [hseeded]
  exact ⟨keeps_seed_iff fun _ _ h => h.present, keeps_seed_iff fun _ _ h => h⟩

/-! A loop that has its process value from the wire when the saved one comes. -/

private def seededLoop : RegistryLoop := ⟨"FIC-101", none, "north", some "A1", none, "FLOW"⟩

private def seededSettings : LoopIngestSettings :=
  ⟨5, Nat.succ_pos 4, Dict.empty, Dict.empty, 1, .stringEnum⟩

private def heardPv : MappedParameter :=
  ⟨"pv", true, some (.finite 1), none, by decide, fun h => absurd h (by decide), fun _ => rfl⟩

private def heard : List Call :=
  [] ++ [.accept seededLoop "FCS1" heardPv ⟨some (.finite 1), some "1", none, some "GOOD", 100⟩
    seededSettings 1000]

private def savedPv : SeedRow :=
  ⟨none, Dict.empty.set "pv" ⟨.finite 2, 200, true⟩, Dict.empty, none, 0, 0⟩

/-- A live value with an older source timestamp is displaced by the saved one. -/
theorem live_value_displaced :
    ¬ ∀ (calls : List Call) (loop : RegistryLoop) (row : SeedRow) (cfg : LoopIngestSettings)
        (nowMs : ℤ),
      Keeps (fun key slot => FromWire toUpperInvariant key slot calls)
        (after toUpperInvariant calls)
        (after toUpperInvariant (calls ++ [.seed loop row cfg nowMs])) := by
  intro h
  have hkept := h heard seededLoop savedPv seededSettings 2000 "FIC-101" (.member "pv")
    (FromWire.accept [] seededLoop "FCS1" heardPv _ seededSettings 1000 (by decide))
  have htimes := congrArg (Option.map Held.tsMs) hkept
  revert htimes
  decide

end LoopJoiner

end OpenBridge.Ingestion
