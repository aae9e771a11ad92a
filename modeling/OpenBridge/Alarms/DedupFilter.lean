import OpenBridge.Alarms.OpcEventStreamJob

/-!
# Alarms: the filter of duplicates

`DedupFilter` for the events of one alarm key.
-/

namespace OpenBridge.Alarms

open OpenBridge.Foundation

structure Delivery where
  nowMs : ℤ
  event : RawOpcAlarmEvent

/-- The keyed state of `DedupFilter`: its three values are written together. -/
structure DedupFilter where
  lastEventTime : ℤ
  lastConditionActive : Bool
  lastAcknowledged : Bool
  writtenMs : ℤ

namespace DedupFilter

def ttlMs : ℤ := 7 * 24 * 60 * 60 * 1000

def Visible (s : DedupFilter) (d : Delivery) : Prop := d.nowMs < s.writtenMs + ttlMs

def SameFlags (s : DedupFilter) (d : Delivery) : Prop :=
  s.lastConditionActive = d.event.conditionActive ∧ s.lastAcknowledged = d.event.acknowledged

def Duplicate (s : DedupFilter) (d : Delivery) : Prop :=
  s.Visible d ∧ d.event.eventTimeEpochMs ≤ s.lastEventTime ∧ s.SameFlags d

instance (s : DedupFilter) (d : Delivery) : Decidable (s.Duplicate d) :=
  inferInstanceAs (Decidable (d.nowMs < s.writtenMs + ttlMs ∧ _ ∧ _ ∧ _))

/-- `filter`: the state, and the event if it passes. -/
def filter (s : Option DedupFilter) (d : Delivery) : Option DedupFilter × List RawOpcAlarmEvent :=
  if ∃ prev ∈ s, prev.Duplicate d then (s, [])
  else
    (some ⟨d.event.eventTimeEpochMs, d.event.conditionActive, d.event.acknowledged, d.nowMs⟩,
      [d.event])

def after (ds : List Delivery) : Option DedupFilter := Machine.stateAfter filter none ds

def passed (ds : List Delivery) : List RawOpcAlarmEvent := Machine.outputs filter none ds

/-- What passes is not older than anything that passed before and is not one of it; and an event that
was delivered before, whether it passed or not, adds nothing. -/
structure Deduplicated (before : List Delivery) (d : Delivery) : Prop where
  notOlder : ∀ o ∈ (filter (after before) d).2, ∀ p ∈ passed before,
    p.eventTimeEpochMs ≤ o.eventTimeEpochMs
  notPassed : ∀ o ∈ (filter (after before) d).2, o ∉ passed before
  redelivered : d.event ∈ before.map Delivery.event → (filter (after before) d).2 = []

/-- An event whose flags differ from those that are kept, or that comes after these have expired, is
newer than the kept time, or as new and not delivered before. -/
def InOrder (before : List Delivery) (d : Delivery) : Prop :=
  ∀ s ∈ after before, (s.Visible d ∧ s.SameFlags d) ∨
    s.lastEventTime < d.event.eventTimeEpochMs ∨
    (s.lastEventTime = d.event.eventTimeEpochMs ∧ d.event ∉ before.map Delivery.event)

theorem filter_of_duplicate {s : DedupFilter} {d : Delivery} (h : s.Duplicate d) :
    filter (some s) d = (some s, []) := if_pos ⟨s, rfl, h⟩

theorem filter_of_not_duplicate {s : Option DedupFilter} {d : Delivery}
    (h : ∀ prev ∈ s, ¬ prev.Duplicate d) :
    filter s d = (some ⟨d.event.eventTimeEpochMs, d.event.conditionActive, d.event.acknowledged,
      d.nowMs⟩, [d.event]) := by
  refine if_neg ?_
  rintro ⟨prev, hprev, hdup⟩
  exact h prev hprev hdup

theorem passed_concat (ds : List Delivery) (d : Delivery) :
    passed (ds ++ [d]) = passed ds ++ (filter (after ds) d).2 := Machine.outputs_concat _ _ _ _

theorem after_concat (ds : List Delivery) (d : Delivery) :
    after (ds ++ [d]) = (filter (after ds) d).1 := Machine.stateAfter_concat _ _ _ _

theorem passed_subset (ds : List Delivery) : ∀ p ∈ passed ds, p ∈ ds.map Delivery.event := by
  induction ds using List.reverseRecOn with
  | nil => exact fun p hp => hp
  | append_singleton ds d ih =>
    intro p hp
    rw [passed_concat, List.mem_append] at hp
    rw [List.map_append, List.mem_append]
    rcases hp with hp | hp
    · exact .inl (ih p hp)
    · right
      unfold filter at hp
      split at hp
      · exact absurd hp List.not_mem_nil
      · exact hp

/-- What the state says of the deliveries of a run in order: its time is the latest of those that were
delivered, and one that passed has it. -/
structure Remembers (ds : List Delivery) : Prop where
  start : after ds = none → ds = []
  latest : ∀ s ∈ after ds, ∀ d ∈ ds, d.event.eventTimeEpochMs ≤ s.lastEventTime
  attained : ∀ s ∈ after ds, ∃ p ∈ passed ds, p.eventTimeEpochMs = s.lastEventTime

theorem remembers_concat {ds : List Delivery} {d : Delivery} (h : Remembers ds)
    (horder : InOrder ds d) : Remembers (ds ++ [d]) := by
  by_cases hdup : ∃ s ∈ after ds, s.Duplicate d
  · obtain ⟨s, hs, hdup⟩ := hdup
    have hfilter : filter (after ds) d = (some s, []) := by rw [hs, filter_of_duplicate hdup]
    have hafter : after (ds ++ [d]) = some s := by rw [after_concat, hfilter]
    refine ⟨fun hnone => ?_, fun s' hs' d' hd' => ?_, fun s' hs' => ?_⟩
    · rw [hafter] at hnone
      cases hnone
    · obtain rfl : s = s' := Option.some.inj (hafter.symm.trans hs')
      rcases List.mem_append.mp hd' with hd' | hd'
      · exact h.latest s hs d' hd'
      · rw [List.mem_singleton.mp hd']
        exact hdup.2.1
    · obtain rfl : s = s' := Option.some.inj (hafter.symm.trans hs')
      rw [passed_concat, hfilter, List.append_nil]
      exact h.attained s hs
  · have hnot : ∀ s ∈ after ds, ¬ s.Duplicate d := fun s hs hdup' => hdup ⟨s, hs, hdup'⟩
    have hafter := (after_concat ds d).trans (congrArg Prod.fst (filter_of_not_duplicate hnot))
    refine ⟨fun hnone => ?_, fun s' hs' d' hd' => ?_, fun s' hs' => ?_⟩
    · rw [hafter] at hnone
      cases hnone
    · obtain rfl := Option.some.inj (hafter.symm.trans hs')
      rcases List.mem_append.mp hd' with hd' | hd'
      · cases hs : after ds with
        | none =>
          rw [h.start hs] at hd'
          exact absurd hd' List.not_mem_nil
        | some s =>
          refine le_trans (h.latest s hs d' hd') ?_
          rcases horder s hs with ⟨hvisible, hflags⟩ | hlt | ⟨heq, -⟩
          · exact le_of_lt (not_le.mp fun hle => hnot s hs ⟨hvisible, hle, hflags⟩)
          · exact le_of_lt hlt
          · exact le_of_eq heq
      · rw [List.mem_singleton.mp hd']
    · obtain rfl := Option.some.inj (hafter.symm.trans hs')
      refine ⟨d.event, ?_, rfl⟩
      rw [passed_concat, filter_of_not_duplicate hnot]
      exact List.mem_append_right _ List.mem_cons_self

theorem deduplicated_iff {ds : List Delivery} (h : Remembers ds) (d : Delivery) :
    Deduplicated ds d ↔ InOrder ds d := by
  constructor
  · intro hdedup s hs
    by_cases hdup : s.Visible d ∧ s.SameFlags d
    · exact .inl hdup
    · have hnot : ∀ s' ∈ after ds, ¬ s'.Duplicate d := by
        intro s' hs' hdup'
        obtain rfl : s = s' := Option.some.inj (hs.symm.trans hs')
        exact hdup ⟨hdup'.1, hdup'.2.2⟩
      have hout : (filter (after ds) d).2 = [d.event] := by rw [filter_of_not_duplicate hnot]
      obtain ⟨p, hp, hptime⟩ := h.attained s hs
      have hle := hdedup.notOlder d.event (by rw [hout]; exact List.mem_cons_self) p hp
      rw [hptime] at hle
      rcases lt_or_eq_of_le hle with hlt | heq
      · exact .inr (.inl hlt)
      · refine .inr (.inr ⟨heq, fun hmem => ?_⟩)
        have hnil := hdedup.redelivered hmem
        rw [hout] at hnil
        cases hnil
  · intro horder
    by_cases hdup : ∃ s ∈ after ds, s.Duplicate d
    · have hout : (filter (after ds) d).2 = [] := congrArg Prod.snd (if_pos hdup)
      constructor
      · rw [hout]
        exact fun o ho => absurd ho List.not_mem_nil
      · rw [hout]
        exact fun o ho => absurd ho List.not_mem_nil
      · exact fun _ => hout
    · have hnot : ∀ s ∈ after ds, ¬ s.Duplicate d := fun s hs hdup' => hdup ⟨s, hs, hdup'⟩
      have hout : (filter (after ds) d).2 = [d.event] := by rw [filter_of_not_duplicate hnot]
      have hnew : ∀ d' ∈ ds, d'.event.eventTimeEpochMs ≤ d.event.eventTimeEpochMs ∧
          d'.event ≠ d.event := by
        intro d' hd'
        cases hs : after ds with
        | none =>
          rw [h.start hs] at hd'
          exact absurd hd' List.not_mem_nil
        | some s =>
          have hle := h.latest s hs d' hd'
          have hlater : s.lastEventTime < d.event.eventTimeEpochMs ∨
              (s.lastEventTime = d.event.eventTimeEpochMs ∧ d.event ∉ ds.map Delivery.event) := by
            rcases horder s hs with ⟨hvisible, hflags⟩ | hlater
            · exact .inl (not_le.mp fun hle => hnot s hs ⟨hvisible, hle, hflags⟩)
            · exact hlater
          rcases hlater with hlt | ⟨heq, hfresh⟩
          · refine ⟨by omega, fun hsame => ?_⟩
            rw [hsame] at hle
            omega
          · exact ⟨by omega, fun hsame => hfresh (hsame ▸ List.mem_map_of_mem hd')⟩
      have hpassed : ∀ p ∈ passed ds, p.eventTimeEpochMs ≤ d.event.eventTimeEpochMs ∧
          p ≠ d.event := by
        intro p hp
        obtain ⟨d', hd', rfl⟩ := List.mem_map.mp (passed_subset ds p hp)
        exact hnew d' hd'
      constructor
      · rw [hout, List.forall_mem_singleton]
        exact fun p hp => (hpassed p hp).1
      · rw [hout, List.forall_mem_singleton]
        exact fun hp => (hpassed d.event hp).2 rfl
      · intro hmem
        obtain ⟨d', hd', heq⟩ := List.mem_map.mp hmem
        exact absurd heq (hnew d' hd').2

/-- Every delivery of a run is de-duplicated exactly when every one is in order. -/
theorem deduplicated_iff_inOrder (ds : List Delivery) :
    (∀ before d rest, ds = before ++ d :: rest → Deduplicated before d) ↔
      ∀ before d rest, ds = before ++ d :: rest → InOrder before d :=
  forall_split_congr Remembers ⟨fun _ => rfl, nofun, nofun⟩ (fun _ _ => remembers_concat)
    (fun _ d h => deduplicated_iff h d) ds

def raisedEvent : RawOpcAlarmEvent where
  alarmId := "a-1"
  serverId := "opc-1"
  source := "TANK1"
  condition := "HI"
  subCondition := none
  message := none
  severity := 500
  conditionActive := true
  acknowledged := false
  cookieOffset := 0
  eventTimeEpochMs := 2000
  activeTimeEpochMs := 2000
  priority := none
  feed := none
  sourceEventId := none
  identified := by decide

def lateClear : RawOpcAlarmEvent :=
  { raisedEvent with conditionActive := false, eventTimeEpochMs := 1000 }

/-- It passes although it is older. -/
theorem lateClear_passes : ¬ ∀ before d rest,
    [(⟨0, raisedEvent⟩ : Delivery), ⟨1, lateClear⟩] = before ++ d :: rest →
      Deduplicated before d := by
  intro h
  have hdedup := h [⟨0, raisedEvent⟩] ⟨1, lateClear⟩ [] rfl
  have hpasses : (filter (after [⟨0, raisedEvent⟩]) ⟨1, lateClear⟩).2 = [lateClear] := by
    rw [filter_of_not_duplicate]
    rintro s ⟨rfl⟩
    decide
  have hle := hdedup.notOlder lateClear (by rw [hpasses]; exact List.mem_cons_self) raisedEvent
    List.mem_cons_self
  exact absurd hle (by decide)

end DedupFilter

end OpenBridge.Alarms
