import OpenBridge.Ingestion.Emission

/-!
# Ingestion: restarting the joiner

A joiner seeded from the snapshot of another one differs from it in what the snapshot leaves out:
the native quality tokens, the verdicts that are not `GOOD`, the wall clock of the last emission.
None of it shows on the wire.  `Same` relates the two states of a loop; every call keeps it.
-/

namespace OpenBridge.Ingestion

open OpenBridge.Foundation

/-- What a restart must leave alone in a tuple. -/
structure PublishedTuple where
  loopId : String
  eventTsMs : ℤ
  ingestTsMs : ℤ
  pv : Double
  sp : Double
  op : Double
  vp : Option Double
  mode : String
  good : Bool
  loopType : String
  site : String
  area : Option String
  unit : Option String
  assetUuid : Option String
  sourceFcs : Option String
  extras : Dict String Double
  held : Dict String Bool
  bindingRevision : ℤ
  gridSeconds : ℕ

/-- The tuple without the per-role provenance and the shades of a quality that is not good. -/
def LoopTuple.published (t : LoopTuple) : PublishedTuple where
  loopId := t.loopId
  eventTsMs := t.eventTsMs
  ingestTsMs := t.ingestTsMs
  pv := t.pv
  sp := t.sp
  op := t.op
  vp := t.vp
  mode := t.mode
  good := t.quality == "GOOD"
  loopType := t.loopType
  site := t.site
  area := t.area
  unit := t.unit
  assetUuid := t.assetUuid
  sourceFcs := t.sourceFcs
  extras := t.extras
  held := t.roles.mapValues (·.held)
  bindingRevision := t.bindingRevision
  gridSeconds := t.gridSeconds

namespace LoopJoiner

variable {fold : String → String}

/-! ## Related states -/

structure SameMember (m m' : Member) : Prop where
  value : m.value = m'.value
  tsMs : m.tsMs = m'.tsMs
  good : m.quality = .good ↔ m'.quality = .good

theorem SameMember.refl (m : Member) : SameMember m m := ⟨rfl, rfl, Iff.rfl⟩

structure Same (st st' : LoopState) : Prop where
  loop : st.loop = st'.loop
  sourceFcs : st.sourceFcs = st'.sourceFcs
  members : Dict.Rel SameMember st.members st'.members
  extras : Dict.Rel SameMember st.extras st'.extras
  mode : st.mode = st'.mode
  modeTsMs : st.modeTsMs = st'.modeTsMs
  lastEmittedTsMs : st.lastEmittedTsMs = st'.lastEmittedTsMs
  nextTickMs : st.nextTickMs = st'.nextTickMs

theorem Same.refl (st : LoopState) : Same st st :=
  ⟨rfl, rfl, Dict.Rel.refl SameMember.refl _, Dict.Rel.refl SameMember.refl _, rfl, rfl, rfl, rfl⟩

def SameJoiner (j j' : LoopJoiner) : Prop := Dict.Rel Same j.loops j'.loops

/-! ## Every call keeps related states related -/

theorem same_stateFor {j j' : LoopJoiner} (h : SameJoiner j j') (loop : RegistryLoop) (nowMs : ℤ)
    (cfg : LoopIngestSettings) :
    Same (stateFor fold j loop nowMs cfg) (stateFor fold j' loop nowMs cfg) := by
  unfold stateFor
  rcases h.get? (fold loop.loopId) with ⟨hst, hst'⟩ | ⟨st, st', hst, hst', hsame⟩
  · rw [hst, hst']
    exact Same.refl _
  · rw [hst, hst']
    exact hsame

theorem rel_seedEntry {b b' : Dict String Member} (h : Dict.Rel SameMember b b')
    (entry : String × SavedMember) :
    Dict.Rel SameMember (seedEntry b entry) (seedEntry b' entry) := by
  unfold seedEntry
  have hset := h.set entry.1 (SameMember.refl (restoredMember entry.2))
  rcases h.get? entry.1 with ⟨hm, hm'⟩ | ⟨m, m', hm, hm', hsame⟩
  · rw [hm, hm']
    exact hset
  · simp only [hm, hm', hsame.tsMs]
    split
    · exact h
    · exact hset

theorem rel_seedBucket {b b' : Dict String Member} (h : Dict.Rel SameMember b b')
    (seeds : Dict String SavedMember) :
    Dict.Rel SameMember (seedBucket b seeds) (seedBucket b' seeds) := by
  unfold seedBucket
  induction seeds.entries generalizing b b' with
  | nil => exact h
  | cons e rest ih => exact ih (rel_seedEntry h e)

theorem Same.seedMode {st st' : LoopState} (h : Same st st') (row : SeedRow) :
    Same (seedMode st row) (seedMode st' row) := by
  unfold LoopJoiner.seedMode
  split
  · exact h
  · rw [h.mode, h.modeTsMs]
    split
    · exact { h with mode := rfl, modeTsMs := rfl }
    · exact h

theorem Same.raiseWatermark {st st' : LoopState} (h : Same st st') (ts : ℤ) :
    Same (raiseWatermark st ts) (raiseWatermark st' ts) := by
  unfold LoopJoiner.raiseWatermark
  rw [h.lastEmittedTsMs]
  split
  · exact { h with lastEmittedTsMs := rfl }
  · exact h

theorem Same.seedState {st st' : LoopState} (h : Same st st') (loop : RegistryLoop)
    (row : SeedRow) : Same (seedState st loop row) (seedState st' loop row) := by
  have hvalues : Same (seedValues st loop row) (seedValues st' loop row) :=
    { h with
      loop := rfl
      sourceFcs := congrArg (Option.or · row.sourceFcs) h.sourceFcs
      members := rel_seedBucket h.members row.members
      extras := rel_seedBucket h.extras row.extras }
  exact (hvalues.seedMode row).raiseWatermark row.lastEmittedTsMs

theorem Same.acceptState {st st' : LoopState} (h : Same st st') (loop : RegistryLoop)
    (sourceFcs : String) (mapped : MappedParameter) (payload : OtLoopPayload)
    (cfg : LoopIngestSettings) :
    Same (acceptState st loop sourceFcs mapped payload cfg)
      (acceptState st' loop sourceFcs mapped payload cfg) := by
  simp only [LoopJoiner.acceptState]
  split
  · exact { h with loop := rfl, sourceFcs := rfl, mode := rfl, modeTsMs := rfl }
  · split
    · exact { h with
        loop := rfl
        sourceFcs := rfl
        members := h.members.set _ (SameMember.refl _) }
    · exact { h with
        loop := rfl
        sourceFcs := rfl
        extras := h.extras.set _ (SameMember.refl _) }

/-! ## Related states publish the same -/

structure SameRequired (req req' : RequiredMembers) : Prop where
  pv : SameMember req.pv req'.pv
  sp : SameMember req.sp req'.sp
  op : SameMember req.op req'.op

theorem Same.requiredMembers {st st' : LoopState} (h : Same st st') :
    (requiredMembers st = none ∧ requiredMembers st' = none) ∨
      ∃ req req', requiredMembers st = some req ∧ requiredMembers st' = some req' ∧
        SameRequired req req' := by
  unfold LoopJoiner.requiredMembers
  rcases h.members.get? "pv" with ⟨hpv, hpv'⟩ | ⟨pv, pv', hpv, hpv', samePv⟩
  · rw [hpv, hpv']
    exact Or.inl ⟨rfl, rfl⟩
  rcases h.members.get? "sp" with ⟨hsp, hsp'⟩ | ⟨sp, sp', hsp, hsp', sameSp⟩
  · rw [hpv, hpv', hsp, hsp']
    exact Or.inl ⟨rfl, rfl⟩
  rcases h.members.get? "op" with ⟨hop, hop'⟩ | ⟨op, op', hop, hop', sameOp⟩
  · rw [hpv, hpv', hsp, hsp', hop, hop']
    exact Or.inl ⟨rfl, rfl⟩
  · rw [hpv, hpv', hsp, hsp', hop, hop']
    exact Or.inr ⟨⟨pv, sp, op⟩, ⟨pv', sp', op'⟩, rfl, rfl, ⟨samePv, sameSp, sameOp⟩⟩

theorem Same.sourceTs {st st' : LoopState} (h : Same st st') {req req' : RequiredMembers}
    (hreq : SameRequired req req') : sourceTs st req = sourceTs st' req' := by
  unfold LoopJoiner.sourceTs
  rw [hreq.pv.tsMs, hreq.sp.tsMs, hreq.op.tsMs, h.modeTsMs]
  rcases h.members.get? "vp" with ⟨hvp, hvp'⟩ | ⟨vp, vp', hvp, hvp', same⟩
  · rw [hvp, hvp']
  · simp only [hvp, hvp', same.tsMs]

theorem held_buildRoles {st st' : LoopState} (h : Same st st') (tupleTs : ℤ) :
    (buildRoles st tupleTs st.lastEmittedTsMs).mapValues (·.held) =
      (buildRoles st' tupleTs st'.lastEmittedTsMs).mapValues (·.held) := by
  have hroles : Dict.Rel (fun o o' : RoleObservation => o.held = o'.held)
      (st.members.mapValues (observeMember · tupleTs st.lastEmittedTsMs))
      (st'.members.mapValues (observeMember · tupleTs st'.lastEmittedTsMs)) :=
    h.members.mapValues fun m m' hm => by
      simp only [observeMember, hm.tsMs, h.lastEmittedTsMs]
  unfold buildRoles
  rw [h.mode]
  cases st'.mode with
  | none => exact (hroles.mapValues fun _ _ ho => ho).eq
  | some token =>
    have hmode : (observeMode st token tupleTs st.lastEmittedTsMs).held =
        (observeMode st' token tupleTs st'.lastEmittedTsMs).held := by
      simp only [observeMode, h.modeTsMs, h.lastEmittedTsMs]
    exact ((hroles.set "mode" hmode).mapValues fun _ _ ho => ho).eq

theorem SameRequired.good_eq {req req' : RequiredMembers} (h : SameRequired req req') :
    (((req.pv.quality.worstOf req.sp.quality).worstOf req.op.quality).name == "GOOD") =
      (((req'.pv.quality.worstOf req'.sp.quality).worstOf req'.op.quality).name == "GOOD") := by
  rw [Bool.eq_iff_iff, beq_iff_eq, beq_iff_eq]
  simp only [NormalizedQuality.name_eq_good_iff, NormalizedQuality.worstOf_eq_good_iff,
    h.pv.good, h.sp.good, h.op.good]

theorem Same.tupleOf {st st' : LoopState} (h : Same st st') {req req' : RequiredMembers}
    (hreq : SameRequired req req') (nowMs : ℤ) (cfg : LoopIngestSettings) :
    (tupleOf st req nowMs cfg).published = (tupleOf st' req' nowMs cfg).published := by
  have hvp : (st.members.get? "vp").map (·.value) = (st'.members.get? "vp").map (·.value) := by
    rcases h.members.get? "vp" with ⟨hvp, hvp'⟩ | ⟨vp, vp', hvp, hvp', same⟩
    · rw [hvp, hvp']
    · rw [hvp, hvp', Option.map_some, Option.map_some, same.value]
  have hextras : st.extras.mapValues (·.value) = st'.extras.mapValues (·.value) :=
    (h.extras.mapValues fun _ _ hm => hm.value).eq
  have hgood := hreq.good_eq
  have hheld := held_buildRoles h (LoopJoiner.sourceTs st' req')
  simp only [LoopJoiner.tupleOf, LoopTuple.published, h.sourceTs hreq, h.loop, h.sourceFcs,
    h.mode, hreq.pv.value, hreq.sp.value, hreq.op.value, hvp, hextras, hgood, hheld]

inductive SameVerdict : TickVerdict → TickVerdict → Prop where
  | waiting : SameVerdict .waiting .waiting
  | incomplete : SameVerdict .incomplete .incomplete
  | noAdvance : SameVerdict .noAdvance .noAdvance
  | emit {req req' : RequiredMembers} (h : SameRequired req req') :
      SameVerdict (.emit req) (.emit req')

theorem Same.tickVerdict {st st' : LoopState} (h : Same st st') (nowMs : ℤ) :
    SameVerdict (tickVerdict st nowMs) (tickVerdict st' nowMs) := by
  unfold LoopJoiner.tickVerdict
  rw [h.nextTickMs]
  split
  · exact .waiting
  · rcases h.requiredMembers with ⟨hnone, hnone'⟩ | ⟨req, req', hreq, hreq', same⟩
    · rw [hnone, hnone']
      exact .incomplete
    · simp only [hreq, hreq', h.sourceTs same, h.lastEmittedTsMs]
      split
      · exact .noAdvance
      · exact .emit same

theorem Same.tickState {st st' : LoopState} (h : Same st st') (nowMs : ℤ)
    (cfg : LoopIngestSettings) : Same (tickState st nowMs cfg) (tickState st' nowMs cfg) := by
  have hv := h.tickVerdict nowMs
  unfold LoopJoiner.tickState
  generalize LoopJoiner.tickVerdict st nowMs = v at hv ⊢
  generalize LoopJoiner.tickVerdict st' nowMs = v' at hv ⊢
  cases hv with
  | waiting => exact h
  | incomplete => exact { h with nextTickMs := rfl }
  | noAdvance => exact { h with nextTickMs := rfl }
  | emit hreq => exact { h with nextTickMs := rfl, lastEmittedTsMs := h.sourceTs hreq }

theorem Same.tickTuple {st st' : LoopState} (h : Same st st') (nowMs : ℤ)
    (cfg : LoopIngestSettings) :
    (tickTuple st nowMs cfg).map LoopTuple.published =
      (tickTuple st' nowMs cfg).map LoopTuple.published := by
  have hv := h.tickVerdict nowMs
  unfold LoopJoiner.tickTuple
  generalize LoopJoiner.tickVerdict st nowMs = v at hv ⊢
  generalize LoopJoiner.tickVerdict st' nowMs = v' at hv ⊢
  cases hv with
  | emit hreq => exact congrArg some (h.tupleOf hreq nowMs cfg)
  | _ => rfl

theorem published_filterMap {sts sts' : List LoopState} (h : List.Forall₂ Same sts sts')
    (nowMs : ℤ) (cfg : LoopIngestSettings) :
    (sts.filterMap (tickTuple · nowMs cfg)).map LoopTuple.published =
      (sts'.filterMap (tickTuple · nowMs cfg)).map LoopTuple.published := by
  rw [List.map_filterMap, List.map_filterMap]
  induction h with
  | nil => rfl
  | @cons st st' sts sts' hst _ ih =>
    simp only [List.filterMap_cons, hst.tickTuple nowMs cfg, ih]

theorem sameJoiner_step (fold : String → String) {j j' : LoopJoiner} (h : SameJoiner j j')
    (c : Call) :
    SameJoiner (step fold j c).1 (step fold j' c).1 ∧
      (step fold j c).2.map LoopTuple.published = (step fold j' c).2.map LoopTuple.published := by
  cases c with
  | seed loop row cfg nowMs =>
    exact ⟨Dict.Rel.set h _ ((same_stateFor h loop nowMs cfg).seedState loop row), rfl⟩
  | accept loop sourceFcs mapped payload cfg nowMs =>
    exact ⟨Dict.Rel.set h _
      ((same_stateFor h loop nowMs cfg).acceptState loop sourceFcs mapped payload cfg), rfl⟩
  | tick nowMs cfg =>
    exact ⟨Dict.Rel.mapValues h fun _ _ hst => hst.tickState nowMs cfg,
      published_filterMap (Dict.Rel.values h) nowMs cfg⟩

theorem published_outputs {j j' : LoopJoiner} (h : SameJoiner j j') (calls : List Call) :
    (Machine.outputs (step fold) j calls).map LoopTuple.published =
      (Machine.outputs (step fold) j' calls).map LoopTuple.published := by
  induction calls generalizing j j' with
  | nil => rfl
  | cons c rest ih =>
    obtain ⟨hnext, hout⟩ := sameJoiner_step fold h c
    rw [Machine.outputs_cons, Machine.outputs_cons, List.map_append, List.map_append, hout,
      ih hnext]

/-! ## The state of a loop just after a tick -/

structure Verdicts (st : LoopState) : Prop where
  members : ∀ e ∈ st.members.entries, (e.2.good = true ↔ e.2.quality = .good)
  extras : ∀ e ∈ st.extras.entries, (e.2.good = true ↔ e.2.quality = .good)

def Call.cfg : Call → LoopIngestSettings
  | .seed _ _ cfg _ => cfg
  | .accept _ _ _ _ cfg _ => cfg
  | .tick _ cfg => cfg

def Call.nowMs : Call → ℤ
  | .seed _ _ _ nowMs => nowMs
  | .accept _ _ _ _ _ nowMs => nowMs
  | .tick nowMs _ => nowMs

/-- A run with fixed settings and a clock that does not go back.  The clock is Unix time in
milliseconds, so its readings are not negative. -/
structure Steady (cfg : LoopIngestSettings) (calls : List Call) : Prop where
  settings : ∀ c ∈ calls, c.cfg = cfg
  unixClock : ∀ c ∈ calls, 0 ≤ c.nowMs
  forward : (calls.map Call.nowMs).Pairwise (· ≤ ·)

/-- The loop waits for the boundary after the clock of one of the calls. -/
def Scheduled (cfg : LoopIngestSettings) (calls : List Call) (st : LoopState) : Prop :=
  ∃ c ∈ calls, st.nextTickMs = nextGridBoundary c.nowMs cfg

theorem verdicts_restoredMember (s : SavedMember) :
    (restoredMember s).good = true ↔ (restoredMember s).quality = .good := by
  obtain ⟨value, tsMs, good⟩ := s
  cases good <;> simp [restoredMember]

theorem verdicts_acceptedMember (value : Double) (payload : OtLoopPayload)
    (cfg : LoopIngestSettings) :
    (acceptedMember value payload cfg).good = true ↔
      (acceptedMember value payload cfg).quality = .good := by
  simp [acceptedMember]

theorem verdicts_set {b : Dict String Member} {role : String} {m : Member}
    (h : ∀ e ∈ b.entries, (e.2.good = true ↔ e.2.quality = .good))
    (hm : m.good = true ↔ m.quality = .good) :
    ∀ e ∈ (b.set role m).entries, (e.2.good = true ↔ e.2.quality = .good) := by
  intro e he
  rcases Dict.mem_entries_set he with rfl | he
  · exact hm
  · exact h e he

theorem verdicts_seedBucket {b : Dict String Member} (seeds : Dict String SavedMember)
    (h : ∀ e ∈ b.entries, (e.2.good = true ↔ e.2.quality = .good)) :
    ∀ e ∈ (seedBucket b seeds).entries, (e.2.good = true ↔ e.2.quality = .good) := by
  unfold seedBucket
  induction seeds.entries generalizing b with
  | nil => exact h
  | cons e rest ih =>
    refine ih ?_
    unfold seedEntry
    split
    · split
      · exact h
      · exact verdicts_set h (verdicts_restoredMember e.2)
    · exact verdicts_set h (verdicts_restoredMember e.2)

theorem Verdicts.seedState {st : LoopState} (h : Verdicts st) (loop : RegistryLoop)
    (row : SeedRow) : Verdicts (seedState st loop row) := by
  have hmembers := verdicts_seedBucket row.members h.members
  have hextras := verdicts_seedBucket row.extras h.extras
  rw [LoopJoiner.seedState, raiseWatermark_eq]
  unfold seedMode
  split
  · exact ⟨hmembers, hextras⟩
  · split <;> exact ⟨hmembers, hextras⟩

theorem Verdicts.acceptState {st : LoopState} (h : Verdicts st) (loop : RegistryLoop)
    (sourceFcs : String) (mapped : MappedParameter) (payload : OtLoopPayload)
    (cfg : LoopIngestSettings) : Verdicts (acceptState st loop sourceFcs mapped payload cfg) := by
  simp only [LoopJoiner.acceptState]
  split
  · exact ⟨h.members, h.extras⟩
  · split
    · exact ⟨verdicts_set h.members (verdicts_acceptedMember _ payload cfg), h.extras⟩
    · exact ⟨h.members, verdicts_set h.extras (verdicts_acceptedMember _ payload cfg)⟩

theorem Verdicts.tickState {st : LoopState} (h : Verdicts st) (nowMs : ℤ)
    (cfg : LoopIngestSettings) : Verdicts (tickState st nowMs cfg) := by
  unfold LoopJoiner.tickState
  split <;> exact ⟨h.members, h.extras⟩

@[simp] theorem nextTickMs_seedState (st : LoopState) (loop : RegistryLoop) (row : SeedRow) :
    (seedState st loop row).nextTickMs = st.nextTickMs := by
  rw [seedState, raiseWatermark_eq]
  unfold seedMode
  split
  · rfl
  · split <;> rfl

@[simp] theorem nextTickMs_acceptState (st : LoopState) (loop : RegistryLoop) (sourceFcs : String)
    (mapped : MappedParameter) (payload : OtLoopPayload) (cfg : LoopIngestSettings) :
    (acceptState st loop sourceFcs mapped payload cfg).nextTickMs = st.nextTickMs := by
  simp only [acceptState]
  split
  · rfl
  · split <;> rfl

theorem tickVerdict_eq_waiting_iff {st : LoopState} {nowMs : ℤ} :
    tickVerdict st nowMs = .waiting ↔ nowMs < st.nextTickMs := by
  unfold tickVerdict
  split
  · rename_i h
    exact ⟨fun _ => h, fun _ => rfl⟩
  · rename_i h
    refine ⟨fun hv => ?_, fun hlt => absurd hlt h⟩
    split at hv
    · cases hv
    · split at hv <;> cases hv

theorem nextTickMs_tickState (st : LoopState) (nowMs : ℤ) (cfg : LoopIngestSettings) :
    (tickState st nowMs cfg).nextTickMs =
      if nowMs < st.nextTickMs then st.nextTickMs else nextGridBoundary nowMs cfg := by
  have hnext : nowMs.tdiv (gridMs cfg) * gridMs cfg + gridMs cfg = nextGridBoundary nowMs cfg := by
    rw [nextGridBoundary, Int.add_mul, Int.one_mul]
  by_cases hlt : nowMs < st.nextTickMs
  · rw [if_pos hlt, tickState, tickVerdict_eq_waiting_iff.mpr hlt]
  · rw [if_neg hlt]
    unfold tickState
    cases hv : tickVerdict st nowMs with
    | waiting => exact absurd (tickVerdict_eq_waiting_iff.mp hv) hlt
    | incomplete => exact hnext
    | noAdvance => exact hnext
    | emit req => exact hnext

theorem ready_stateFor (fold : String → String) {cfg : LoopIngestSettings} {calls : List Call}
    {j : LoopJoiner}
    (h : ∀ key st, j.loops.get? key = some st → Verdicts st ∧ Scheduled cfg calls st)
    (loop : RegistryLoop) (nowMs : ℤ) (c : Call) (hc : c.nowMs = nowMs) :
    Verdicts (stateFor fold j loop nowMs cfg) ∧
      Scheduled cfg (calls ++ [c]) (stateFor fold j loop nowMs cfg) := by
  unfold stateFor
  cases hst : j.loops.get? (fold loop.loopId) with
  | none =>
    refine ⟨⟨by simp [newLoopState], by simp [newLoopState]⟩, c, by simp, ?_⟩
    rw [hc]
    rfl
  | some st =>
    obtain ⟨hv, c', hc', hnext⟩ := h _ st hst
    exact ⟨hv, c', List.mem_append_left _ hc', hnext⟩

theorem ready_after (fold : String → String) {cfg : LoopIngestSettings} (calls : List Call)
    (hcfg : ∀ c ∈ calls, c.cfg = cfg) :
    ∀ key st, (after fold calls).loops.get? key = some st →
      Verdicts st ∧ Scheduled cfg calls st := by
  revert hcfg
  refine Machine.history_invariant (fun calls (j : LoopJoiner) => (∀ c ∈ calls, c.cfg = cfg) →
    ∀ key st, j.loops.get? key = some st → Verdicts st ∧ Scheduled cfg calls st) ?_ ?_ calls
  · intro _ key st hst
    simp [empty] at hst
  · intro pre c ih hcfg key st hst
    have hready := ih fun c' hc' => hcfg c' (List.mem_append_left _ hc')
    have hc : c.cfg = cfg := hcfg c (by simp)
    have hkeep : ∀ st', (Machine.stateAfter (step fold) empty pre).loops.get? key = some st' →
        Verdicts st' ∧ Scheduled cfg (pre ++ [c]) st' := fun st' hst' => by
      obtain ⟨hv, c', hc', hnext⟩ := hready key st' hst'
      exact ⟨hv, c', List.mem_append_left _ hc', hnext⟩
    cases c with
    | seed loop row cfg' nowMs =>
      obtain rfl : cfg' = cfg := hc
      simp only [step, seed, Dict.get?_set] at hst
      split at hst
      · obtain ⟨hv, hsched⟩ := ready_stateFor fold hready loop nowMs
          (.seed loop row cfg' nowMs) rfl
        simp only [Option.some.injEq] at hst
        subst hst
        refine ⟨hv.seedState loop row, ?_⟩
        rw [Scheduled, nextTickMs_seedState]
        exact hsched
      · exact hkeep st hst
    | accept loop sourceFcs mapped payload cfg' nowMs =>
      obtain rfl : cfg' = cfg := hc
      simp only [step, accept, Dict.get?_set] at hst
      split at hst
      · obtain ⟨hv, hsched⟩ := ready_stateFor fold hready loop nowMs
          (.accept loop sourceFcs mapped payload cfg' nowMs) rfl
        simp only [Option.some.injEq] at hst
        subst hst
        refine ⟨hv.acceptState loop sourceFcs mapped payload cfg', ?_⟩
        rw [Scheduled, nextTickMs_acceptState]
        exact hsched
      · exact hkeep st hst
    | tick nowMs cfg' =>
      obtain rfl : cfg' = cfg := hc
      simp only [step, tick, Dict.get?_mapValues, Option.map_eq_some_iff] at hst
      obtain ⟨st', hst', rfl⟩ := hst
      obtain ⟨hv, hsched⟩ := hkeep st' hst'
      refine ⟨hv.tickState nowMs cfg', ?_⟩
      rw [Scheduled, nextTickMs_tickState]
      split
      · exact hsched
      · exact ⟨.tick nowMs cfg', by simp, rfl⟩

/-! ## The restored joiner -/

theorem nextGridBoundary_eq {cfg : LoopIngestSettings} {madeAt nowMs : ℤ} (h0 : 0 ≤ madeAt)
    (hle : madeAt ≤ nowMs) (hlt : nowMs < nextGridBoundary madeAt cfg) :
    nextGridBoundary madeAt cfg = nextGridBoundary nowMs cfg := by
  have hgrid : 0 < gridMs cfg := by
    have := cfg.gridPositive
    unfold gridMs
    omega
  unfold nextGridBoundary at hlt ⊢
  rw [Int.tdiv_eq_ediv_of_nonneg h0] at hlt ⊢
  rw [Int.tdiv_eq_ediv_of_nonneg (le_trans h0 hle)]
  have hlow : madeAt / gridMs cfg ≤ nowMs / gridMs cfg := Int.ediv_le_ediv hgrid hle
  have hhigh : nowMs / gridMs cfg < madeAt / gridMs cfg + 1 := Int.ediv_lt_of_lt_mul hgrid hlt
  have : madeAt / gridMs cfg = nowMs / gridMs cfg := by omega
  rw [this]

theorem nextTickMs_after_tick {cfg : LoopIngestSettings} {pre : List Call} {nowMs : ℤ}
    (h : Steady cfg (pre ++ [.tick nowMs cfg])) {key : String} {st : LoopState}
    (hst : (after fold (pre ++ [.tick nowMs cfg])).loops.get? key = some st) :
    st.nextTickMs = nextGridBoundary nowMs cfg := by
  have hpre : ∀ c ∈ pre, c.cfg = cfg := fun c hc => h.settings c (List.mem_append_left _ hc)
  simp only [after, Machine.stateAfter_concat, step, tick, Dict.get?_mapValues,
    Option.map_eq_some_iff] at hst
  obtain ⟨st', hst', rfl⟩ := hst
  obtain ⟨-, c, hc, hnext⟩ := ready_after fold pre hpre key st' hst'
  rw [nextTickMs_tickState]
  split
  · rename_i hwait
    have hle : c.nowMs ≤ nowMs := by
      have hforward := h.forward
      rw [List.map_append, List.pairwise_append] at hforward
      exact hforward.2.2 _ (List.mem_map_of_mem hc) _ (by simp [Call.nowMs])
    rw [hnext] at hwait ⊢
    exact nextGridBoundary_eq (h.unixClock c (List.mem_append_left _ hc)) hle hwait
  · rfl

/-- The state a loop comes back with when it is seeded at `nowMs`. -/
def restoredState (cfg : LoopIngestSettings) (nowMs : ℤ) (st : LoopState) : LoopState :=
  seedState (newLoopState st.loop nowMs cfg) st.loop (seedRowOf (snapshotOf st))

theorem seedMode_eq (st : LoopState) (row : SeedRow) :
    seedMode st row =
      { st with mode := (seedMode st row).mode, modeTsMs := (seedMode st row).modeTsMs } := by
  unfold seedMode
  split
  · rfl
  · split <;> rfl

theorem sourceFcs_seedState (st : LoopState) (loop : RegistryLoop) (row : SeedRow) :
    (seedState st loop row).sourceFcs = st.sourceFcs.or row.sourceFcs := by
  rw [seedState, raiseWatermark_eq, seedMode_eq]
  rfl

theorem extras_seedState (st : LoopState) (loop : RegistryLoop) (row : SeedRow) :
    (seedState st loop row).extras = seedBucket st.extras row.extras := by
  rw [seedState, raiseWatermark_eq, seedMode_eq]
  rfl

theorem seedMode_of_none {st : LoopState} {row : SeedRow} (h : st.mode = none) :
    (seedMode st row).mode = row.modeToken ∧
      (seedMode st row).modeTsMs =
        if row.modeToken.isSome then row.modeTsMs else st.modeTsMs := by
  unfold seedMode
  cases row.modeToken with
  | none => exact ⟨h, rfl⟩
  | some token =>
    dsimp only
    rw [if_pos (Or.inl h)]
    exact ⟨rfl, rfl⟩

theorem mode_seedState_of_none {st : LoopState} {loop : RegistryLoop} {row : SeedRow}
    (h : st.mode = none) : (seedState st loop row).mode = row.modeToken := by
  rw [seedState, raiseWatermark_eq]
  exact (@seedMode_of_none (seedValues st loop row) row h).1

theorem modeTsMs_seedState_of_none {st : LoopState} {loop : RegistryLoop} {row : SeedRow}
    (h : st.mode = none) :
    (seedState st loop row).modeTsMs =
      if row.modeToken.isSome then row.modeTsMs else st.modeTsMs := by
  rw [seedState, raiseWatermark_eq]
  exact (@seedMode_of_none (seedValues st loop row) row h).2

theorem entries_foldl_seedEntry {es : List (String × SavedMember)} {b : Dict String Member}
    (hn : (b.keys ++ es.map Prod.fst).Nodup) :
    (es.foldl seedEntry b).entries =
      b.entries ++ es.map fun e => (e.1, restoredMember e.2) := by
  induction es generalizing b with
  | nil => simp
  | cons e rest ih =>
    have hnew : e.1 ∉ b.keys := fun hmem =>
      (List.nodup_append.mp hn).2.2 e.1 hmem e.1 (List.mem_map_of_mem (List.mem_cons_self ..)) rfl
    have hseed : seedEntry b e = b.set e.1 (restoredMember e.2) := by
      simp only [seedEntry, Dict.get?_eq_none_iff.mpr hnew]
    have hkeys : (b.set e.1 (restoredMember e.2)).keys = b.keys ++ [e.1] := by
      rw [Dict.keys_set, if_neg hnew]
    rw [List.foldl_cons, hseed, ih, Dict.entries_set_of_not_mem hnew]
    · simp
    · rw [hkeys]
      simpa using hn

theorem seedBucket_empty (seeds : Dict String SavedMember) :
    seedBucket Dict.empty seeds = seeds.mapValues restoredMember := by
  apply Dict.ext
  have h := @entries_foldl_seedEntry seeds.entries Dict.empty (by simpa using seeds.nodupKeys)
  simpa [seedBucket] using h

theorem sameMember_restored {m : Member} (h : m.good = true ↔ m.quality = .good) :
    SameMember m (restoredMember (savedMember m)) where
  value := rfl
  tsMs := rfl
  good := by rw [← verdicts_restoredMember (savedMember m), ← h]; rfl

theorem rel_restored {b : Dict String Member}
    (h : ∀ e ∈ b.entries, (e.2.good = true ↔ e.2.quality = .good)) :
    Dict.Rel SameMember b (seedBucket Dict.empty (b.mapValues savedMember)) := by
  have hcomp : (b.mapValues savedMember).mapValues restoredMember =
      b.mapValues (fun m => restoredMember (savedMember m)) := by
    apply Dict.ext
    simp
  rw [seedBucket_empty, hcomp]
  exact Dict.rel_mapValues_right fun e he => sameMember_restored (h e he)

theorem same_restored {cfg : LoopIngestSettings} {nowMs : ℤ} {key : String} {calls : List Call}
    {st : LoopState} (hkept : Kept fold key calls st) (hverdicts : Verdicts st)
    (hnext : st.nextTickMs = nextGridBoundary nowMs cfg) :
    Same st (restoredState cfg nowMs st) := by
  have hlast : max (newLoopState st.loop nowMs cfg).lastEmittedTsMs st.lastEmittedTsMs =
      st.lastEmittedTsMs := max_eq_right hkept.nonneg
  refine ⟨?_, ?_, ?_, ?_, ?_, ?_, ?_, ?_⟩
  · rw [restoredState, loop_seedState]
  · rw [restoredState, sourceFcs_seedState]
    rfl
  · rw [restoredState, members_seedState]
    exact rel_restored hverdicts.members
  · rw [restoredState, extras_seedState]
    exact rel_restored hverdicts.extras
  · rw [restoredState, mode_seedState_of_none rfl]
    rfl
  · rw [restoredState, modeTsMs_seedState_of_none rfl]
    cases hm : st.mode with
    | none => simp [seedRowOf, snapshotOf, hm, hkept.modeUnset hm, newLoopState]
    | some token => simp [seedRowOf, snapshotOf, hm]
  · rw [restoredState, lastEmittedTsMs_seedState]
    exact hlast.symm
  · rw [restoredState, nextTickMs_seedState]
    exact hnext

theorem entries_seedFromRows {registry : String → Option RegistryLoop} (cfg : LoopIngestSettings)
    (nowMs : ℤ) (es : List (String × LoopState)) (j : LoopJoiner)
    (hn : (j.loops.keys ++ es.map Prod.fst).Nodup)
    (hkey : ∀ e ∈ es, fold e.2.loop.loopId = e.1)
    (hreg : ∀ e ∈ es, registry e.2.loop.loopId = some e.2.loop) :
    (seedFromRows fold registry cfg nowMs j (es.map fun e => snapshotOf e.2)).loops.entries =
      j.loops.entries ++ es.map fun e => (e.1, restoredState cfg nowMs e.2) := by
  induction es generalizing j with
  | nil => simp [seedFromRows]
  | cons e rest ih =>
    have hnew : e.1 ∉ j.loops.keys := fun hmem =>
      (List.nodup_append.mp hn).2.2 e.1 hmem e.1 (List.mem_map_of_mem (List.mem_cons_self ..)) rfl
    have hfold : fold e.2.loop.loopId = e.1 := hkey e (List.mem_cons_self ..)
    have hseed : seedFromRows fold registry cfg nowMs j ((e :: rest).map fun e => snapshotOf e.2) =
        seedFromRows fold registry cfg nowMs
          { j with loops := j.loops.set e.1 (restoredState cfg nowMs e.2) }
          (rest.map fun e => snapshotOf e.2) := by
      simp only [seedFromRows, List.map_cons, List.foldl_cons, snapshotOf,
        hreg e (List.mem_cons_self ..), seed, hfold, stateFor, Dict.get?_eq_none_iff.mpr hnew,
        Option.getD_none]
      rfl
    have hkeys : (j.loops.set e.1 (restoredState cfg nowMs e.2)).keys = j.loops.keys ++ [e.1] := by
      rw [Dict.keys_set, if_neg hnew]
    rw [hseed, ih]
    · simp [Dict.entries_set_of_not_mem hnew]
    · simp only [hkeys]
      simpa using hn
    · exact fun e' he' => hkey e' (List.mem_cons_of_mem _ he')
    · exact fun e' he' => hreg e' (List.mem_cons_of_mem _ he')

theorem sameJoiner_restored {cfg : LoopIngestSettings} {pre : List Call} {nowMs : ℤ}
    {registry : String → Option RegistryLoop} (h : Steady cfg (pre ++ [.tick nowMs cfg]))
    (hreg : ∀ st ∈ (after fold (pre ++ [.tick nowMs cfg])).loops.values,
      registry st.loop.loopId = some st.loop) :
    SameJoiner (after fold (pre ++ [.tick nowMs cfg]))
      (seedFromRows fold registry cfg nowMs empty
        (stateSnapshot (after fold (pre ++ [.tick nowMs cfg])))) := by
  have hget : ∀ e ∈ (after fold (pre ++ [.tick nowMs cfg])).loops.entries,
      (after fold (pre ++ [.tick nowMs cfg])).loops.get? e.1 = some e.2 :=
    fun e he => Dict.get?_eq_some_iff.mpr he
  have hsound : ∀ e ∈ (after fold (pre ++ [.tick nowMs cfg])).loops.entries,
      fold e.2.loop.loopId = e.1 ∧ Kept fold e.1 (pre ++ [.tick nowMs cfg]) e.2 := fun e he => by
    have hs := sound_after fold (pre ++ [.tick nowMs cfg]) e.1
    rw [hget e he] at hs
    exact hs
  have hrows : stateSnapshot (after fold (pre ++ [.tick nowMs cfg])) =
      (after fold (pre ++ [.tick nowMs cfg])).loops.entries.map fun e => snapshotOf e.2 := by
    simp [stateSnapshot, Dict.values]
  have hentries := entries_seedFromRows cfg nowMs
    (after fold (pre ++ [.tick nowMs cfg])).loops.entries empty
    (by simpa [empty] using (after fold (pre ++ [.tick nowMs cfg])).loops.nodupKeys)
    (fun e he => (hsound e he).1)
    (fun e he => hreg e.2 (List.mem_map_of_mem he))
  rw [SameJoiner, Dict.Rel, hrows, hentries]
  simp only [empty, Dict.entries_empty, List.nil_append, List.forall₂_map_right_iff]
  refine List.forall₂_same.mpr fun e he => ⟨rfl, ?_⟩
  exact same_restored (hsound e he).2 (ready_after fold _ h.settings e.1 e.2 (hget e he)).1
    (nextTickMs_after_tick h (hget e he))

/-- **A restart is invisible on the wire.** After a run that ends with a tick, a fresh joiner that
is seeded at that instant from the snapshot, with the registry's entries of the loops, publishes
over every later run of calls tuples that agree in every field of `PublishedTuple` with those of the
old one, and is `GOOD` where it is. -/
theorem restart_invisible (fold : String → String) (registry : String → Option RegistryLoop)
    (cfg : LoopIngestSettings) (pre : List Call) (nowMs : ℤ)
    (hrun : Steady cfg (pre ++ [.tick nowMs cfg]))
    (hreg : ∀ st ∈ (after fold (pre ++ [.tick nowMs cfg])).loops.values,
      registry st.loop.loopId = some st.loop)
    (later : List Call) :
    (Machine.outputs (step fold)
        (seedFromRows fold registry cfg nowMs empty
          (stateSnapshot (after fold (pre ++ [.tick nowMs cfg])))) later).map LoopTuple.published =
      (Machine.outputs (step fold) (after fold (pre ++ [.tick nowMs cfg])) later).map
        LoopTuple.published :=
  (published_outputs (sameJoiner_restored hrun hreg) later).symm

/-! A flow loop that restarts after its first tuple, and gets a new process value later. -/

private def flowLoop : RegistryLoop := ⟨"FIC-101", none, "north", some "A1", none, "FLOW"⟩

private def flowSettings : LoopIngestSettings :=
  ⟨5, by decide, Dict.empty, Dict.empty, 1, .stringEnum⟩

private def flowMember (role : String) (hmember : tupleMembers.contains role = true)
    (hmode : role ≠ "mode") : MappedParameter :=
  ⟨role, true, some (.finite 1), none, hmember.symm, fun h => absurd h hmode, fun _ => rfl⟩

private def flowPayload (tsMs : ℤ) : OtLoopPayload :=
  ⟨some (.finite 1), some "1", none, some "GOOD", tsMs⟩

private def flowAccept (mapped : MappedParameter) (tsMs nowMs : ℤ) : Call :=
  .accept flowLoop "FCS1" mapped (flowPayload tsMs) flowSettings nowMs

private def flowStart : List Call :=
  [flowAccept (flowMember "pv" (by decide) (by decide)) 900 1000,
    flowAccept (flowMember "sp" (by decide) (by decide)) 800 1000,
    flowAccept (flowMember "op" (by decide) (by decide)) 700 1200]

private def flowLater : List Call :=
  [flowAccept (flowMember "pv" (by decide) (by decide)) 5100 5200, .tick 10000 flowSettings]

/-- The restarted flow loop publishes what the live one does. -/
theorem restart_invisible_flow :
    (Machine.outputs (step toUpperInvariant)
        (seedFromRows toUpperInvariant (fun _ => some flowLoop) flowSettings 5000 empty
          (stateSnapshot (after toUpperInvariant (flowStart ++ [.tick 5000 flowSettings]))))
        flowLater).map LoopTuple.published =
      (Machine.outputs (step toUpperInvariant)
        (after toUpperInvariant (flowStart ++ [.tick 5000 flowSettings])) flowLater).map
        LoopTuple.published := by
  refine restart_invisible toUpperInvariant (fun _ => some flowLoop) flowSettings flowStart 5000
    ⟨?_, ?_, ?_⟩ ?_ flowLater
  · intro c hc
    simp only [flowStart, List.cons_append, List.nil_append, List.mem_cons, List.not_mem_nil,
      or_false] at hc
    rcases hc with rfl | rfl | rfl | rfl <;> rfl
  · intro c hc
    simp only [flowStart, List.cons_append, List.nil_append, List.mem_cons, List.not_mem_nil,
      or_false] at hc
    rcases hc with rfl | rfl | rfl | rfl <;> decide
  · decide
  · intro st hst
    have hvalues : (after toUpperInvariant
        (flowStart ++ [.tick 5000 flowSettings])).loops.values.map (·.loop) = [flowLoop] := by
      decide
    have hloop : st.loop ∈ [flowLoop] := hvalues ▸ List.mem_map_of_mem hst
    rw [List.mem_singleton.mp hloop]

end LoopJoiner

end OpenBridge.Ingestion
