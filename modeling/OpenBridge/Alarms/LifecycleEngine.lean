import OpenBridge.Alarms.OpcEventStreamJob
import OpenBridge.Foundation.Double

/-!
# Alarms: the lifecycle of an alarm, and how many stand

`LifecycleMap` for the events of one alarm key, and `StandingAlarmTracker` of the KPI job, which
counts the lifecycle records of all alarms under one key.
-/

namespace OpenBridge.Alarms

open OpenBridge.Foundation

/-- What `LifecycleMap` passes on. -/
structure LifecycleEvent where
  event : RawOpcAlarmEvent
  transitionType : String
  lifecycleState : String

/-- The keyed state of `LifecycleMap`. -/
structure LifecycleMap where
  prevState : Option String
  prevAcknowledged : Option Bool

namespace LifecycleMap

def new : LifecycleMap := ⟨none, none⟩

def transition (prev : Option String) (conditionActive : Bool) : String × String :=
  match prev with
  | none => ("NEW", "ACTIVE")
  | some _ => if conditionActive then ("ACTIVE", "ACTIVE") else ("CLEARED", "CLEARED")

def effectiveAck (s : LifecycleMap) (evt : RawOpcAlarmEvent) : Bool :=
  evt.acknowledged ||
    (s.prevAcknowledged == some true && evt.conditionActive && s.prevState.isSome)

def map (s : LifecycleMap) (evt : RawOpcAlarmEvent) : LifecycleMap × List LifecycleEvent :=
  let next := transition s.prevState evt.conditionActive
  let ack := effectiveAck s evt
  -- a cleared alarm leaves nothing behind
  (if evt.conditionActive then ⟨some next.2, some ack⟩ else new,
    [⟨{ evt with acknowledged := ack }, next.1, next.2⟩])

def after (events : List RawOpcAlarmEvent) : LifecycleMap := Machine.stateAfter map new events

/-- What is passed on tells the truth about the condition: after the event before it, if there is
one. -/
structure Truthful (previous : Option RawOpcAlarmEvent) (o : LifecycleEvent) : Prop where
  state : o.lifecycleState = "ACTIVE" ↔ o.event.conditionActive = true
  raised : o.transitionType = "NEW" →
    o.event.conditionActive = true ∧ ∀ p ∈ previous, p.conditionActive = false
  cleared : o.transitionType = "CLEARED" →
    o.event.conditionActive = false ∧ ∃ p ∈ previous, p.conditionActive = true

def Announced (previous : Option RawOpcAlarmEvent) (evt : RawOpcAlarmEvent) : Prop :=
  evt.conditionActive = true ∨ ∃ p ∈ previous, p.conditionActive = true

theorem isSome_prevState (events : List RawOpcAlarmEvent) :
    (after events).prevState.isSome = true ↔ ∃ p ∈ events.getLast?, p.conditionActive = true := by
  rcases List.eq_nil_or_concat events with rfl | ⟨before, p, rfl⟩
  · refine iff_of_false Bool.false_ne_true ?_
    rintro ⟨p, hp, -⟩
    cases hp
  · rw [List.concat_eq_append, after, Machine.stateAfter_concat, List.getLast?_concat]
    unfold map
    dsimp only
    split
    · rename_i hactive
      exact iff_of_true rfl ⟨p, rfl, hactive⟩
    · rename_i hactive
      refine iff_of_false Bool.false_ne_true ?_
      rintro ⟨q, hq, hq'⟩
      cases hq
      exact hactive hq'

theorem truthful_map (before : List RawOpcAlarmEvent) (evt : RawOpcAlarmEvent) :
    (∀ o ∈ (map (after before) evt).2, Truthful before.getLast? o) ↔
      Announced before.getLast? evt := by
  have hkept := isSome_prevState before
  rw [map, List.forall_mem_singleton]
  unfold Announced
  cases hprev : (after before).prevState with
  | none =>
    rw [hprev] at hkept
    have hnone : ¬ ∃ p ∈ before.getLast?, p.conditionActive = true := by
      rw [← hkept]
      exact Bool.false_ne_true
    rw [or_iff_left hnone]
    constructor
    · intro h
      exact h.state.mp rfl
    · intro hactive
      refine ⟨iff_of_true rfl hactive, fun _ => ⟨hactive, fun p hp => ?_⟩, fun h => ?_⟩
      · exact Bool.eq_false_iff.mpr fun hp' => hnone ⟨p, hp, hp'⟩
      · exact absurd h (by decide : "NEW" ≠ "CLEARED")
  | some prev =>
    rw [hprev] at hkept
    have hsome : ∃ p ∈ before.getLast?, p.conditionActive = true := hkept.mp rfl
    refine iff_of_true ?_ (.inr hsome)
    rcases Bool.eq_false_or_eq_true evt.conditionActive with hactive | hactive
    · have hnext : transition (some prev) evt.conditionActive = ("ACTIVE", "ACTIVE") := if_pos hactive
      rw [hnext]
      exact ⟨iff_of_true rfl hactive, fun h => absurd h (by decide : "ACTIVE" ≠ "NEW"),
        fun h => absurd h (by decide : "ACTIVE" ≠ "CLEARED")⟩
    · have hcleared : ¬ evt.conditionActive = true := Bool.eq_false_iff.mp hactive
      have hnext : transition (some prev) evt.conditionActive = ("CLEARED", "CLEARED") :=
        if_neg hcleared
      rw [hnext]
      exact ⟨iff_of_false (by decide : "CLEARED" ≠ "ACTIVE") hcleared,
        fun h => absurd h (by decide : "CLEARED" ≠ "NEW"), fun _ => ⟨hactive, hsome⟩⟩

/-- Everything that is passed on is true exactly when no clear comes first or after another clear. -/
theorem truthful_iff_announced (events : List RawOpcAlarmEvent) :
    (∀ before evt rest, events = before ++ evt :: rest →
      ∀ o ∈ (map (after before) evt).2, Truthful before.getLast? o) ↔
    ∀ before evt rest, events = before ++ evt :: rest → Announced before.getLast? evt :=
  forall_split_congr (fun _ => True) trivial (fun _ _ _ _ => trivial)
    (fun before evt _ => truthful_map before evt) events

def coldClear : RawOpcAlarmEvent where
  alarmId := "a-1"
  serverId := "opc-1"
  source := "TANK1"
  condition := "HI"
  subCondition := none
  message := none
  severity := 500
  conditionActive := false
  acknowledged := false
  cookieOffset := 0
  eventTimeEpochMs := 1000
  activeTimeEpochMs := 1000
  priority := none
  feed := none
  sourceEventId := none
  identified := (by decide : ¬ _ = _)

/-- It is passed on as a new alarm that is active. -/
theorem coldClear_raised : ¬ ∀ before evt rest, [coldClear] = before ++ evt :: rest →
    ∀ o ∈ (map (after before) evt).2, Truthful before.getLast? o := by
  intro h
  have htruthful := h [] coldClear [] rfl _ List.mem_cons_self
  have hactive : coldClear.conditionActive = true := htruthful.state.mp rfl
  cases hactive

end LifecycleMap

/-! ## The standing alarms -/

/-- A record of the lifecycle topic, as the KPI job reads it, with its event time. -/
structure LifecycleRecord where
  alarmId : String
  lifecycleState : String
  timestampMs : ℤ

/-- `AlarmKpiResult`, as far as a snapshot of the standing alarms fills it in. -/
structure StandingSnapshot where
  kpiType : String
  windowStartMs : ℤ
  windowEndMs : ℤ
  standingCount : ℤ
  oldestStandingDurationMs : ℤ

namespace StandingAlarmTracker

def condition (r : LifecycleRecord) : Option Bool :=
  if equalsIgnoreCase "ACTIVE" r.lifecycleState then some true
  else if equalsIgnoreCase "CLEARED" r.lifecycleState then some false
  else none

/-- The count after a record, in a Java `int`. -/
def nextCount (current : ℤ) : Option Bool → ℤ
  | some true => wrap32 (current + 1)
  | some false => max 0 (wrap32 (current - 1))
  | none => current

/-- `processElement`, on the keyed state. -/
def processElement (standingCount : Option ℤ) (r : LifecycleRecord) :
    Option ℤ × List StandingSnapshot :=
  let current := nextCount (standingCount.getD 0) (condition r)
  (some current,
    [⟨"STANDING_ALARM_SNAPSHOT", r.timestampMs, r.timestampMs, current, 0⟩])

def after (records : List LifecycleRecord) : Option ℤ :=
  Machine.stateAfter processElement none records

def latest (records : List LifecycleRecord) (alarmId : String) : Option Bool :=
  ((records.filter (·.alarmId = alarmId)).filterMap condition).getLast?

def standing (records : List LifecycleRecord) : Finset String :=
  (records.map (·.alarmId)).toFinset.filter fun a => latest records a = some true

/-- A raised alarm does not stand yet, and can be counted; a cleared one stands, or none does. -/
def InOrder (before : List LifecycleRecord) (r : LifecycleRecord) : Prop :=
  match condition r with
  | some true => r.alarmId ∉ standing before ∧ (standing before).card < 2 ^ 31 - 1
  | some false => r.alarmId ∈ standing before ∨ standing before = ∅
  | none => True

theorem mem_standing {records : List LifecycleRecord} {a : String} :
    a ∈ standing records ↔ latest records a = some true := by
  unfold standing
  rw [Finset.mem_filter, and_iff_right_iff_imp, List.mem_toFinset]
  intro hlatest
  obtain ⟨r, hr, -⟩ := List.mem_filterMap.mp (List.mem_of_getLast? hlatest)
  obtain ⟨hr, ha⟩ := List.mem_filter.mp hr
  exact List.mem_map.mpr ⟨r, hr, of_decide_eq_true ha⟩

theorem latest_concat (records : List LifecycleRecord) (r : LifecycleRecord) (a : String) :
    latest (records ++ [r]) a =
      if r.alarmId = a then (condition r).or (latest records a) else latest records a := by
  unfold latest
  rw [List.filter_append, List.filterMap_append]
  split
  · rename_i ha
    have hown : [r].filter (fun x => decide (x.alarmId = a)) = [r] := by simp [ha]
    rw [hown]
    cases hr : condition r with
    | none => simp [hr]
    | some active => simp [hr]
  · rename_i ha
    have hother : [r].filter (fun x => decide (x.alarmId = a)) = [] := by simp [ha]
    rw [hother, List.filterMap_nil, List.append_nil]

theorem standing_concat (records : List LifecycleRecord) (r : LifecycleRecord) :
    standing (records ++ [r]) =
      match condition r with
      | some true => insert r.alarmId (standing records)
      | some false => (standing records).erase r.alarmId
      | none => standing records := by
  ext a
  rw [mem_standing, latest_concat]
  rcases condition r with _ | (_ | _)
  · rw [Option.none_or, ite_self, ← mem_standing]
  · rw [Finset.mem_erase, mem_standing, ne_comm]
    split
    · rename_i ha
      exact iff_of_false (fun h => by cases h) fun h => h.1 ha
    · rename_i ha
      rw [and_iff_right ha]
  · rw [Finset.mem_insert, mem_standing, eq_comm (a := a)]
    split
    · rename_i ha
      exact iff_of_true rfl (.inl ha)
    · rename_i ha
      rw [or_iff_right ha]

theorem nextCount_eq_iff (before : List LifecycleRecord) (r : LifecycleRecord)
    (hbound : (standing before).card ≤ 2 ^ 31 - 1) :
    nextCount (standing before).card (condition r) = (standing (before ++ [r])).card ↔
      InOrder before r := by
  rw [standing_concat]
  unfold InOrder
  rcases condition r with _ | (_ | _)
  · exact iff_of_true rfl trivial
  · dsimp only [nextCount]
    have hwrap : wrap32 ((standing before).card - 1) = (standing before).card - 1 := by
      simp only [wrap32, Int.bmod]
      omega
    rw [hwrap, ← Finset.card_eq_zero]
    by_cases hmem : r.alarmId ∈ standing before
    · have hcard := Finset.card_erase_add_one hmem
      refine iff_of_true ?_ (.inl hmem)
      omega
    · rw [Finset.erase_eq_of_notMem hmem, or_iff_right hmem]
      omega
  · dsimp only [nextCount]
    by_cases hmem : r.alarmId ∈ standing before
    · rw [Finset.insert_eq_of_mem hmem]
      refine iff_of_false ?_ fun h => h.1 hmem
      simp only [wrap32, Int.bmod]
      omega
    · rw [Finset.card_insert_of_notMem hmem, and_iff_right hmem]
      simp only [wrap32, Int.bmod]
      omega

def Counts (before : List LifecycleRecord) (r : LifecycleRecord) : Prop :=
  ∀ o ∈ (processElement (after before) r).2, o.standingCount = (standing (before ++ [r])).card

theorem after_concat (before : List LifecycleRecord) (r : LifecycleRecord) :
    after (before ++ [r]) = some (nextCount ((after before).getD 0) (condition r)) := by
  rw [after, Machine.stateAfter_concat]
  rfl

/-- Every snapshot counts the distinct standing alarms exactly when every record is in order. -/
theorem standingCount_iff_inOrder (records : List LifecycleRecord) :
    (∀ before r rest, records = before ++ r :: rest → Counts before r) ↔
      ∀ before r rest, records = before ++ r :: rest → InOrder before r := by
  -- the count that is kept is the number of the alarms that stand
  refine forall_split_congr (fun before => (after before).getD 0 = (standing before).card ∧
    (standing before).card ≤ 2 ^ 31 - 1) ⟨rfl, by decide⟩ ?_ ?_ records
  · rintro before r ⟨hcount, hbound⟩ horder
    have hnext := (nextCount_eq_iff before r hbound).mpr horder
    rw [after_concat, hcount, hnext]
    refine ⟨rfl, ?_⟩
    rw [standing_concat]
    unfold InOrder at horder
    rcases hr : condition r with _ | (_ | _)
    · exact hbound
    · exact (Finset.card_erase_le).trans hbound
    · rw [hr] at horder
      exact (Finset.card_insert_le _ _).trans horder.2
  · rintro before r ⟨hcount, hbound⟩
    rw [← nextCount_eq_iff before r hbound, ← hcount]
    unfold Counts processElement
    rw [List.forall_mem_singleton]

def repeated : LifecycleRecord := ⟨"a-1", "ACTIVE", 1000⟩

/-- It is counted twice. -/
theorem repeated_counts_two : ¬ ∀ before r rest, [repeated, repeated] = before ++ r :: rest →
    Counts before r := by
  intro h
  have hcount := h [repeated] repeated [] rfl _ List.mem_cons_self
  revert hcount
  decide

end StandingAlarmTracker

end OpenBridge.Alarms
