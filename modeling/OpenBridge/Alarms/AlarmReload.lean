import OpenBridge.Alarms.AlarmFlags

/-!
# Alarms: an alarm that was stored and loaded

The mapping of `AmsDbContext`.  Whether the condition is active, since when, the priority and the
out-of-service flag have no column, and the acknowledged states are stored as the unacknowledged
ones.

`tryParse` is `Enum.TryParse` for a state, which no stored state reaches.
-/

namespace OpenBridge.Alarms

open OpenBridge.Foundation

def convertToDb : AlarmState → String
  | .unacknowledgedUncleared => "ACTIVE"
  | .acknowledgedUncleared => "ACTIVE"
  | .unacknowledgedCleared => "CLEARED"
  | .acknowledgedCleared => "CLEARED"
  | .shelved => "SHELVED"
  | .suppressedByDesign => "SUPPRESSED"
  | .outOfService => "OUT_OF_SERVICE"
  | .inhibited => "INHIBITED"

def convertFromDb (tryParse : String → Option AlarmState) (v : String) : AlarmState :=
  match toUpperInvariant v with
  | "ACTIVE" => .unacknowledgedUncleared
  | "CLEARED" => .unacknowledgedCleared
  | "ACKNOWLEDGED" => .acknowledgedUncleared
  | "UNACKNOWLEDGED_UNCLEARED" => .unacknowledgedUncleared
  | "ACKNOWLEDGED_UNCLEARED" => .acknowledgedUncleared
  | "UNACKNOWLEDGED_CLEARED" => .unacknowledgedCleared
  | "ACKNOWLEDGED_CLEARED" => .acknowledgedCleared
  | "SHELVED" => .shelved
  | "SUPPRESSED" => .suppressedByDesign
  | "SUPPRESSED_BY_DESIGN" => .suppressedByDesign
  | "OUT_OF_SERVICE" => .outOfService
  | "INHIBITED" => .inhibited
  | _ => (tryParse v).getD .unacknowledgedUncleared

def databaseEpoch : ℤ := 630822816000000000

/-- A time in a `timestamptz(3)` column: microseconds, rounded to the nearest millisecond. -/
def databaseTime (t : ℤ) : ℤ :=
  let micros := (t - databaseEpoch).tdiv 10
  let millis := if 0 ≤ micros then (micros + 500) / 1000 else -((-micros + 500) / 1000)
  databaseEpoch + millis * 10000

namespace ActiveAlarm

/-- The alarm that is loaded where `a` was stored: a field without a column has the value of its
type. -/
def reload (tryParse : String → Option AlarmState) (a : ActiveAlarm) : ActiveAlarm :=
  { a with
    priority := .unset
    state := convertFromDb tryParse (convertToDb a.state)
    conditionActive := false
    eventTime := databaseTime a.eventTime
    activeTime := 0
    ackTime := a.ackTime.map databaseTime
    shelvedAt := none
    shelveUntil := a.shelveUntil.map databaseTime
    shelveComment := none
    suppressedAt := none
    suppressedBy := none
    suppressionReason := none
    isOutOfService := false }

def shown (a : ActiveAlarm) : AlarmState × Bool × ℤ := (a.state, a.acknowledged, a.activeTime)

/-- The two alarms show the same and raise the same events, whatever is done to them. -/
def SameLife (a b : ActiveAlarm) : Prop :=
  ∀ ops : List Operation, (a.after ops).shown = (b.after ops).shown ∧
    Machine.outputs step a ops = Machine.outputs step b ops

/-- The fields without a column hold what a loaded alarm holds, and the state is stored as itself. -/
structure StoredWhole (a : ActiveAlarm) : Prop where
  inactive : a.conditionActive = false
  activeTime : a.activeTime = 0
  priority : a.priority = .unset
  inService : a.isOutOfService = false
  state : a.state ≠ .acknowledgedUncleared ∧ a.state ≠ .acknowledgedCleared

/-! ## Fields that no operation reads -/

/-- The alarm with the fields blanked that no operation reads. -/
def core (a : ActiveAlarm) : ActiveAlarm :=
  { a with
    conditionName := none
    subConditionName := none
    message := none
    severity := 0
    eventTime := 0
    ackTime := none
    ackedBy := none
    ackComment := none
    shelvedAt := none
    shelvedBy := none
    shelveUntil := none
    shelveComment := none
    suppressedAt := none
    suppressedBy := none
    suppressionReason := none }

def SameResult (r s : ActiveAlarm × List AlarmEvent) : Prop := r.1.core = s.1.core ∧ r.2 = s.2

theorem sameResult_step (a : ActiveAlarm) (op : Operation) :
    SameResult (step a op) (step a.core op) := by
  cases op with
  | acknowledge userId comment ackTime =>
    dsimp only [step, acknowledge, core]
    simp only [applied_refusal, applied_ok]
    split_ifs <;> exact ⟨rfl, rfl⟩
  | shelve userId minutes comment most now =>
    dsimp only [step, shelve, core]
    simp only [applied_refusal]
    cases hexpiry : addMinutes now minutes <;> split_ifs <;> exact ⟨rfl, rfl⟩
  | unshelve userId =>
    dsimp only [step, unshelve, core]
    split_ifs <;> exact ⟨rfl, rfl⟩
  | suppress userId reason now =>
    dsimp only [step, suppress, core]
    simp only [applied_refusal, applied_ok]
    split_ifs <;> exact ⟨rfl, rfl⟩
  | setOutOfService reason =>
    dsimp only [step, setOutOfService, core]
    simp only [applied_refusal, applied_ok]
    split_ifs <;> exact ⟨rfl, rfl⟩
  | applyAckLifecycle state k now =>
    dsimp only [step, applyAckLifecycle, core]
    split_ifs <;> exact ⟨rfl, rfl⟩
  | reconcileAcknowledgement ackTime userId comment =>
    dsimp only [step, reconcileAcknowledgement, core]
    split_ifs <;> exact ⟨rfl, rfl⟩
  | clearOpcInferredAcknowledgement =>
    have hclears : a.core.clearsAcknowledgement = a.clearsAcknowledgement := rfl
    dsimp only [step, clearOpcInferredAcknowledgement]
    rw [hclears]
    split
    · exact ⟨rfl, rfl⟩
    · exact ⟨rfl, rfl⟩
  | applyConditionChange active message severity eventTime =>
    dsimp only [step, applyConditionChange, core]
    split_ifs <;> exact ⟨rfl, rfl⟩
  | syncOpcActiveTime activeTime =>
    dsimp only [step, syncOpcActiveTime, core]
    split_ifs <;> exact ⟨rfl, rfl⟩
  | setAlarmIdentity id alarmId => exact ⟨rfl, rfl⟩

theorem sameResult_of_core {a b : ActiveAlarm} (h : a.core = b.core) (op : Operation) :
    SameResult (step a op) (step b op) := by
  obtain ⟨hstate, hevents⟩ := sameResult_step a op
  obtain ⟨hstate', hevents'⟩ := sameResult_step b op
  rw [h] at hstate hevents
  exact ⟨hstate.trans hstate'.symm, hevents.trans hevents'.symm⟩

theorem sameResult_run {a b : ActiveAlarm} (h : a.core = b.core) (ops : List Operation) :
    SameResult (Machine.run step a ops) (Machine.run step b ops) := by
  induction ops generalizing a b with
  | nil => exact ⟨h, rfl⟩
  | cons op rest ih =>
    obtain ⟨hstate, hevents⟩ := sameResult_of_core h op
    obtain ⟨hrest, hmore⟩ := ih hstate
    exact ⟨hrest, congrArg₂ (· ++ ·) hevents hmore⟩

theorem sameLife_of_core {a b : ActiveAlarm} (h : a.core = b.core) : a.SameLife b := by
  intro ops
  obtain ⟨hstate, hevents⟩ := sameResult_run h ops
  have hshown := congrArg shown hstate
  exact ⟨hshown, hevents⟩

/-! ## What the columns keep -/

section Reload

variable (tryParse : String → Option AlarmState)

theorem convertFromDb_convertToDb (s : AlarmState) : convertFromDb tryParse (convertToDb s) =
    if s = .acknowledgedUncleared then .unacknowledgedUncleared
    else if s = .acknowledgedCleared then .unacknowledgedCleared
    else s := by
  cases s <;> rfl

theorem core_reload {a : ActiveAlarm} (h : a.StoredWhole) : (a.reload tryParse).core = a.core := by
  have hstate : convertFromDb tryParse (convertToDb a.state) = a.state := by
    rw [convertFromDb_convertToDb, if_neg h.state.1, if_neg h.state.2]
  unfold core reload
  dsimp only
  rw [hstate, h.inactive, h.activeTime, h.priority, h.inService]

/-- A stored alarm shows the same and raises the same events after it is loaded, whatever is done to
it, exactly where the fields without a column hold what a loaded alarm holds and its state is not an
acknowledged one. -/
theorem sameLife_reload_iff (a : ActiveAlarm) :
    (a.reload tryParse).SameLife a ↔ a.StoredWhole := by
  constructor
  · intro h
    obtain ⟨hstate, htime⟩ := Prod.mk.inj (h []).1
    obtain ⟨-, hactiveTime⟩ := Prod.mk.inj htime
    -- clearing the condition raises an event only where it was active
    have hinactive : a.conditionActive = false := by
      have hevents := (h [.applyConditionChange false none 1 0]).2
      cases hactive : a.conditionActive
      · rfl
      · simp [Machine.outputs, Machine.run, step, applyConditionChange, reload, hactive] at hevents
    -- activating it raises an event with the priority
    have hpriority : a.priority = .unset := by
      have hevents := (h [.applyConditionChange true none 1 0]).2
      simp [Machine.outputs, Machine.run, step, applyConditionChange, reload, hinactive] at hevents
      exact hevents.symm
    -- an active alarm is taken out of service unless it is already
    have hservice : a.isOutOfService = false := by
      have hblank : isWhiteSpaceOnly "repair" = false := rfl
      have hshown := (h [.applyConditionChange true none 1 0, .setOutOfService "repair"]).1
      cases hservice : a.isOutOfService
      · rfl
      · simp [after, Machine.stateAfter, Machine.run, step, applyConditionChange, setOutOfService,
          reload, shown, hinactive, hservice, hblank] at hshown
    refine ⟨hinactive, hactiveTime.symm, hpriority, hservice, ?_⟩
    have hstored : convertFromDb tryParse (convertToDb a.state) = a.state := hstate
    constructor
    · intro hacknowledged
      rw [hacknowledged] at hstored
      cases hstored
    · intro hacknowledged
      rw [hacknowledged] at hstored
      cases hstored
  · intro h
    exact sameLife_of_core (core_reload tryParse h)

end Reload

/-- An acknowledged alarm loses its acknowledgement after it was stored and loaded. -/
theorem acknowledgement_lost : ¬ ∀ (tryParse : String → Option AlarmState) (id : Guid)
    (n : OpcNotification) (a : ActiveAlarm) (events : List AlarmEvent) (ops : List Operation),
    createFromOpcEvent id n = .ok (a, events) →
    ((a.after ops).reload tryParse).SameLife (a.after ops) := by
  intro h
  have hlife := h (fun _ => none) 7 tankLevel tankAlarm _ [.acknowledge 5 none 0] create_tankAlarm
  have hshown := (hlife [.applyConditionChange true none 900 0]).1
  have hacknowledged := congrArg (fun shown => shown.2.1) hshown
  exact Bool.false_ne_true hacknowledged

end ActiveAlarm

end OpenBridge.Alarms
