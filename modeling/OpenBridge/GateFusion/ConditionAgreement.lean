import OpenBridge.Foundation.Machine
import OpenBridge.GateFusion.FusionInputs

/-!
# Gate fusion: the two consumers of condition events

Fusion keeps one open condition a kind and lets the last record win; the store keeps a row for each
condition and lets a closed one stay closed.
-/

namespace OpenBridge.GateFusion

open OpenBridge.Foundation
open OpenBridge.Conditions

structure ConditionConsumers where
  fusion : GateFusionProcess
  store : ConditionEventStore

namespace ConditionConsumers

def new : ConditionConsumers := ⟨GateFusionProcess.new, Dict.empty⟩

def step (s : ConditionConsumers) (c : ConditionEvent) : ConditionConsumers × List Empty :=
  (⟨s.fusion.processElement2 (.condition c), s.store.upsert c⟩, [])

def heldOpen (s : ConditionConsumers) (kind : String) : Prop :=
  kind ∈ s.fusion.openConditions.keys

def OpenRow (s : ConditionConsumers) (kind : String) (k : ConditionKey) : Prop :=
  k.kind = kind ∧ ∃ row, s.store.get? k = some row ∧ row.state ≠ "CLOSED"

def Agree (s : ConditionConsumers) : Prop :=
  ∀ kind, s.heldOpen kind ↔ ∃ k, s.OpenRow kind k

/-- A record that opens or updates finds its condition not closed, or another one of the kind open;
one that closes finds no other condition of the kind open. -/
def Consistent (s : ConditionConsumers) (c : ConditionEvent) : Prop :=
  if c.state = "CLOSED" then ∀ k, k ≠ c.key → ¬ s.OpenRow c.kind k
  else (∀ row, s.store.get? c.key = some row → row.state ≠ "CLOSED") ∨
    ∃ k, k ≠ c.key ∧ s.OpenRow c.kind k

variable {s : ConditionConsumers} {c : ConditionEvent} {kind : String} {k : ConditionKey}

theorem openRow_iff : s.OpenRow kind k ↔
    k.kind = kind ∧ ∃ state, (s.store.get? k).map (·.state) = some state ∧ state ≠ "CLOSED" := by
  simp [OpenRow, Option.map_eq_some_iff]

theorem heldOpen_step : (step s c).1.heldOpen kind ↔
    if kind = c.kind then c.state ≠ "CLOSED" else s.heldOpen kind := by
  simp only [heldOpen, step, GateFusionProcess.processElement2, Dict.mem_keys_iff_isSome]
  by_cases hclosed : c.state = "CLOSED"
  · simp only [hclosed, if_true, Dict.get?_erase]
    split <;> simp
  · simp only [hclosed, if_false, Dict.get?_set]
    split <;> simp [hclosed]

theorem openRow_step_of_ne (hk : k ≠ c.key) :
    (step s c).1.OpenRow kind k ↔ s.OpenRow kind k := by
  rw [openRow_iff, openRow_iff, step, ConditionEventStore.state_upsert, if_neg hk]

theorem openRow_step_key : (step s c).1.OpenRow c.kind c.key ↔ c.state ≠ "CLOSED" ∧
    ∀ row, s.store.get? c.key = some row → row.state ≠ "CLOSED" := by
  rw [openRow_iff, step, ConditionEventStore.state_upsert, if_pos rfl]
  cases hrow : s.store.get? c.key with
  | none => simp [ConditionEventStore.shouldApply, ConditionEvent.key]
  | some row =>
    by_cases hclosed : c.state = "CLOSED"
    · simp [ConditionEventStore.shouldApply, hclosed]
    · by_cases hrowClosed : row.state = "CLOSED"
      · simp [ConditionEventStore.shouldApply, hclosed, hrowClosed]
      · simp [ConditionEventStore.shouldApply, hclosed, hrowClosed, ConditionEvent.key]

theorem agree_step (h : s.Agree) (c : ConditionEvent) : (step s c).1.Agree ↔ s.Consistent c := by
  -- the kinds that the record is not about do not change
  have hothers : ∀ kind, kind ≠ c.kind →
      ((step s c).1.heldOpen kind ↔ ∃ k, (step s c).1.OpenRow kind k) := by
    intro kind hkind
    rw [heldOpen_step, if_neg hkind, h kind]
    refine exists_congr fun k => ?_
    by_cases hk : k = c.key
    · have hown : k.kind = c.kind := by rw [hk, ConditionEvent.key]
      exact iff_of_false (fun hopen => hkind (hopen.1.symm.trans hown))
        fun hopen => hkind (hopen.1.symm.trans hown)
    · exact (openRow_step_of_ne hk).symm
  have hkind : (step s c).1.Agree ↔
      (c.state ≠ "CLOSED" ↔ ∃ k, (step s c).1.OpenRow c.kind k) := by
    constructor
    · intro hagree
      have hown := hagree c.kind
      rwa [heldOpen_step, if_pos rfl] at hown
    · intro hown kind
      by_cases heq : kind = c.kind
      · subst heq
        rw [heldOpen_step, if_pos rfl]
        exact hown
      · exact hothers kind heq
  have hrows : (∃ k, (step s c).1.OpenRow c.kind k) ↔ (c.state ≠ "CLOSED" ∧
      ∀ row, s.store.get? c.key = some row → row.state ≠ "CLOSED") ∨
        ∃ k, k ≠ c.key ∧ s.OpenRow c.kind k := by
    constructor
    · rintro ⟨k, hopen⟩
      by_cases hk : k = c.key
      · exact Or.inl (openRow_step_key.mp (hk ▸ hopen))
      · exact Or.inr ⟨k, hk, (openRow_step_of_ne hk).mp hopen⟩
    · rintro (hown | ⟨k, hk, hopen⟩)
      · exact ⟨c.key, openRow_step_key.mpr hown⟩
      · exact ⟨k, (openRow_step_of_ne hk).mpr hopen⟩
  rw [hkind, hrows, Consistent]
  by_cases hclosed : c.state = "CLOSED"
  · simp [hclosed]
  · simp [hclosed]

theorem agree_new : new.Agree := by
  intro kind
  simp [heldOpen, OpenRow, new, GateFusionProcess.new]

/-- The consumers agree after every delivery exactly when every delivery is consistent. -/
theorem agree_iff (deliveries : List ConditionEvent) :
    (∀ pre, pre <+: deliveries → (Machine.stateAfter step new pre).Agree) ↔
      Machine.Always step Consistent new deliveries :=
  Machine.throughout_iff_always step Consistent agree_new (fun _ c h => agree_step h c) deliveries

def frozenMinute : List ConditionSample :=
  [⟨true, 0, F64.ofInt 1, F64.ofInt 50⟩, ⟨true, 60000, F64.ofInt 1, F64.ofInt 50⟩,
    ⟨true, 61000, F64.ofInt 2, F64.ofInt 50⟩]

def freezeEpisode : List ConditionEvent :=
  Machine.outputs (ConditionDetector.onSample {}) ConditionDetector.new frozenMinute

/-- The opening record of the freeze, delivered again after the closing one, opens it in fusion
only. -/
theorem redelivered_open_disagrees : freezeEpisode.map (·.state) = ["OPEN", "CLOSED"] ∧
    ¬ (Machine.stateAfter step new (freezeEpisode ++ freezeEpisode.take 1)).Agree := by
  refine ⟨by decide +kernel, fun h => ?_⟩
  have hheld : (Machine.stateAfter step new (freezeEpisode ++ freezeEpisode.take 1)).heldOpen
      "FREEZE" := by
    unfold heldOpen
    decide +kernel
  obtain ⟨k, -, row, hrow, hopen⟩ := (h "FREEZE").mp hheld
  have hrows : ∀ e ∈ (Machine.stateAfter step new
      (freezeEpisode ++ freezeEpisode.take 1)).store.entries, e.2.state = "CLOSED" := by
    decide +kernel
  exact hopen (hrows (k, row) (Dict.get?_eq_some_iff.mp hrow))

end ConditionConsumers

end OpenBridge.GateFusion
