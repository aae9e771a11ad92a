import OpenBridge.Alarms.AlarmReload

/-!
# Alarms: the acknowledgement lifecycle that operators see

`LifecycleEventConsumerService` for one alarm.  An event's state is shown unless it would replace a
terminal state by one that is not terminal.

`tryParseState` is `Enum.TryParse` for a state, `tryParseGuid` is `Guid.TryParse`.
-/

namespace OpenBridge.Alarms

open OpenBridge.Foundation

structure LifecycleEventMessage where
  commandId : String
  actionId : Option String
  correlationId : String
  lifecycleId : String
  dcsSequenceId : Option String
  alarmId : String
  lifecycleState : Option String
  detail : Option String
  timestampEpochMs : ℤ
  deriving DecidableEq

namespace LifecycleEventMessage

variable (evt : LifecycleEventMessage)

/-- `ResolvedCommandId`: the older name of the field counts where the newer one is empty. -/
def resolvedCommandId : String :=
  if evt.commandId ≠ "" then evt.commandId else evt.actionId.getD ""

def resolvedCorrelationId : String :=
  if evt.correlationId ≠ "" then evt.correlationId else evt.resolvedCommandId

end LifecycleEventMessage

/-- The terminal states of `AckLifecycleStates`. -/
def isTerminal (lifecycleState : String) : Bool :=
  lifecycleState ∈ ["ACK_CONFIRMED", "ACK_FAILED", "ACK_TIMEOUT"]

namespace ActiveAlarm

def ackIsTerminal (a : ActiveAlarm) : Bool := a.getAckLifecycleState.any isTerminal

def pendingAck (a : ActiveAlarm) : Option Attribute := a.customAttributes.get? "pendingAckActionId"

end ActiveAlarm

namespace LifecycleEventConsumerService

variable (tryParseState : String → Option AlarmState) (tryParseGuid : String → Option Guid)

def addresses (a : ActiveAlarm) (evt : LifecycleEventMessage) : Bool :=
  match tryParseGuid evt.alarmId with
  | some id => a.id = id
  | none => a.alarmId = evt.alarmId

def incoming (a : ActiveAlarm) (evt : LifecycleEventMessage) : Option String :=
  if trim evt.alarmId = "" then none
  else if ¬ addresses tryParseGuid a evt then none
  else evt.lifecycleState.filter fun state => startsWith state "ACK_"

/-- What `ApplyAckLifecycle` is told of an event. -/
def ackDetails (evt : LifecycleEventMessage) (state : String) : ActiveAlarm.AckDetails where
  commandId := some evt.resolvedCommandId
  requestedAtEpochMs :=
    if state = "ACK_REQUESTED" ∨ state = "ACK_QUEUED" then some evt.timestampEpochMs else none
  detail := evt.detail
  correlationId := some evt.resolvedCorrelationId
  lifecycleId := some evt.lifecycleId
  dcsSequenceId := evt.dcsSequenceId

def apply (a : ActiveAlarm) (evt : LifecycleEventMessage) (now : ℤ) : ActiveAlarm :=
  match incoming tryParseGuid a evt with
  | none => a
  | some state =>
      let alarm := a.reload tryParseState
      -- do not regress terminal states due to delayed out-of-order lifecycle events
      if ¬ alarm.ackIsTerminal ∨ isTerminal state then
        alarm.applyAckLifecycle state (ackDetails evt state) now
      else a

/-- The stored alarm, the commands that an event was delivered for, and those that a terminal state
was applied for. -/
structure Progress where
  alarm : ActiveAlarm
  seen : List String
  ended : List String

abbrev Delivery := LifecycleEventMessage × ℤ

def step (p : Progress) (d : Delivery) : Progress × List Empty :=
  match incoming tryParseGuid p.alarm d.1 with
  | none => (p, [])
  | some state =>
      ({ alarm := apply tryParseState tryParseGuid p.alarm d.1 d.2
         seen := d.1.resolvedCommandId :: p.seen
         ended := if isTerminal state then d.1.resolvedCommandId :: p.ended else p.ended }, [])

def start (a : ActiveAlarm) : Progress := ⟨a, [], []⟩

/-- A command that was issued after every one an event was delivered for. -/
def Newer (issuedAt : String → ℕ) (p : Progress) (evt : LifecycleEventMessage) : Prop :=
  ∀ command ∈ p.seen, issuedAt command < issuedAt evt.resolvedCommandId

/-- What is expected of a delivery: an event of a command that has ended changes neither the shown
state nor the marker, and the first event of a newer command is shown. -/
structure Monotone (issuedAt : String → ℕ) (p : Progress) (d : Delivery) : Prop where
  ended : d.1.resolvedCommandId ∈ p.ended →
    ((step tryParseState tryParseGuid p d).1.alarm.getAckLifecycleState =
      p.alarm.getAckLifecycleState) ∧
    (step tryParseState tryParseGuid p d).1.alarm.pendingAck = p.alarm.pendingAck
  newer : ∀ state, incoming tryParseGuid p.alarm d.1 = some state → Newer issuedAt p d.1 →
    (step tryParseState tryParseGuid p d).1.alarm.getAckLifecycleState = some state

/-- When a delivery meets what is expected: while a terminal state is shown, a terminal event of a
command that has ended brings the state that is shown, and the first event of a newer command is
terminal. -/
structure InOrder (issuedAt : String → ℕ) (p : Progress) (d : Delivery) : Prop where
  ended : ∀ state, incoming tryParseGuid p.alarm d.1 = some state →
    d.1.resolvedCommandId ∈ p.ended → isTerminal state → p.alarm.getAckLifecycleState = some state
  newer : ∀ state, incoming tryParseGuid p.alarm d.1 = some state → Newer issuedAt p d.1 →
    p.alarm.ackIsTerminal → isTerminal state

/-! ## What an event does to the shown state and the marker -/

theorem get?_setGiven_of_ne (d : Dict String Attribute) {name other : String}
    (value : Option Attribute) (h : other ≠ name) :
    (ActiveAlarm.setGiven d name value).get? other = d.get? other := by
  cases value with
  | none => rfl
  | some v => exact Dict.get?_set_of_ne d v h

theorem get?_ackAttributes_state (d : Dict String Attribute) (state : String)
    (k : ActiveAlarm.AckDetails) :
    (ActiveAlarm.ackAttributes d state k).get? "ackLifecycleState" = some (.text state) := by
  unfold ActiveAlarm.ackAttributes
  dsimp only
  rw [get?_setGiven_of_ne _ _ (by decide), get?_setGiven_of_ne _ _ (by decide),
    get?_setGiven_of_ne _ _ (by decide), get?_setGiven_of_ne _ _ (by decide),
    get?_setGiven_of_ne _ _ (by decide), get?_setGiven_of_ne _ _ (by decide),
    get?_setGiven_of_ne _ _ (by decide), Dict.get?_set_self]

theorem customAttributes_applyAckLifecycle (a : ActiveAlarm) (state : String)
    (k : ActiveAlarm.AckDetails) (now : ℤ) :
    (a.applyAckLifecycle state k now).customAttributes =
      if isTerminal state then
        (ActiveAlarm.ackAttributes a.customAttributes state k).erase "pendingAckActionId"
      else ActiveAlarm.ackAttributes a.customAttributes state k := by
  unfold ActiveAlarm.applyAckLifecycle isTerminal
  dsimp only
  split
  · rename_i hconfirmed
    split
    · simp [hconfirmed]
    · simp [hconfirmed]
  · rename_i hconfirmed
    split
    · rename_i hended
      rcases hended with hended | hended
      · simp [hended]
      · simp [hended]
    · rename_i hended
      rw [not_or] at hended
      simp [hconfirmed, hended.1, hended.2]

theorem getAckLifecycleState_applyAckLifecycle (a : ActiveAlarm) (state : String)
    (k : ActiveAlarm.AckDetails) (now : ℤ) :
    (a.applyAckLifecycle state k now).getAckLifecycleState = some state := by
  unfold ActiveAlarm.getAckLifecycleState
  rw [customAttributes_applyAckLifecycle]
  split
  · rw [Dict.get?_erase, if_neg (by decide), get?_ackAttributes_state]
    rfl
  · rw [get?_ackAttributes_state]
    rfl

theorem pendingAck_applyAckLifecycle {a : ActiveAlarm} {state : String}
    {k : ActiveAlarm.AckDetails} {now : ℤ} (h : isTerminal state = true) :
    (a.applyAckLifecycle state k now).pendingAck = none := by
  unfold ActiveAlarm.pendingAck
  rw [customAttributes_applyAckLifecycle, if_pos h, Dict.get?_erase, if_pos rfl]

variable {tryParseState tryParseGuid}

theorem shown_apply (tryParseState : String → Option AlarmState) {a : ActiveAlarm}
    {evt : LifecycleEventMessage} (now : ℤ) {state : String}
    (h : incoming tryParseGuid a evt = some state)
    (hguard : a.ackIsTerminal = true → isTerminal state = true) :
    (apply tryParseState tryParseGuid a evt now).getAckLifecycleState = some state ∧
      (isTerminal state = true →
        (apply tryParseState tryParseGuid a evt now).pendingAck = none) := by
  have happly : apply tryParseState tryParseGuid a evt now =
      (a.reload tryParseState).applyAckLifecycle state (ackDetails evt state) now := by
    unfold apply
    rw [h]
    refine if_pos ?_
    by_cases hshown : a.ackIsTerminal = true
    · exact Or.inr (hguard hshown)
    · exact Or.inl hshown
  rw [happly]
  exact ⟨getAckLifecycleState_applyAckLifecycle _ _ _ _, pendingAck_applyAckLifecycle⟩

theorem apply_of_guarded {a : ActiveAlarm} {evt : LifecycleEventMessage} {now : ℤ} {state : String}
    (h : incoming tryParseGuid a evt = some state) (hshown : a.ackIsTerminal = true)
    (hstate : isTerminal state = false) : apply tryParseState tryParseGuid a evt now = a := by
  unfold apply
  rw [h]
  refine if_neg ?_
  rintro (hopen | hterminal)
  · exact hopen hshown
  · rw [hstate] at hterminal
    cases hterminal

/-! ## Runs of deliveries -/

/-- Once a terminal state was applied for a command, a terminal state is shown without a marker. -/
def Settled (p : Progress) : Prop :=
  p.ended ≠ [] → p.alarm.ackIsTerminal = true ∧ p.alarm.pendingAck = none

theorem settled_start (a : ActiveAlarm) : Settled (start a) := fun h => absurd rfl h

theorem settled_step {p : Progress} (h : Settled p) (d : Delivery) :
    Settled (step tryParseState tryParseGuid p d).1 := by
  unfold step
  cases hin : incoming tryParseGuid p.alarm d.1 with
  | none => exact h
  | some state =>
    cases hstate : isTerminal state with
    | true =>
      obtain ⟨hshown, hmarker⟩ := shown_apply tryParseState d.2 hin
        fun _ => hstate
      exact fun _ => ⟨by simp [ActiveAlarm.ackIsTerminal, hshown, hstate], hmarker hstate⟩
    | false =>
      intro hended
      have hended : p.ended ≠ [] := by simpa [hstate] using hended
      obtain ⟨hshown, hmarker⟩ := h hended
      dsimp only
      rw [apply_of_guarded hin hshown hstate]
      exact ⟨hshown, hmarker⟩

theorem monotone_step_iff (issuedAt : String → ℕ) {p : Progress} (h : Settled p) (d : Delivery) :
    Monotone tryParseState tryParseGuid issuedAt p d ↔ InOrder tryParseGuid issuedAt p d := by
  cases hin : incoming tryParseGuid p.alarm d.1 with
  | none =>
    have hstep : step tryParseState tryParseGuid p d = (p, []) := by rw [step, hin]
    refine iff_of_true ⟨fun _ => by rw [hstep]; exact ⟨rfl, rfl⟩, ?_⟩ ⟨?_, ?_⟩
    · exact fun state hstate => absurd (hin.symm.trans hstate) (by simp)
    · exact fun state hstate => absurd (hin.symm.trans hstate) (by simp)
    · exact fun state hstate => absurd (hin.symm.trans hstate) (by simp)
  | some state =>
    have halarm : (step tryParseState tryParseGuid p d).1.alarm =
        apply tryParseState tryParseGuid p.alarm d.1 d.2 := by rw [step, hin]
    constructor
    · intro hmonotone
      constructor
      · intro state' hstate hended hterminal
        obtain rfl := Option.some.inj (hin.symm.trans hstate)
        obtain ⟨hkept, -⟩ := hmonotone.ended hended
        rw [halarm, (shown_apply tryParseState d.2 hin fun _ => hterminal).1] at hkept
        exact hkept.symm
      · intro state' hstate hnewer hshown
        obtain rfl := Option.some.inj (hin.symm.trans hstate)
        by_contra hterminal
        have hvisible := hmonotone.newer state hin hnewer
        rw [halarm, apply_of_guarded hin hshown (Bool.eq_false_iff.mpr hterminal)] at hvisible
        simp only [ActiveAlarm.ackIsTerminal, hvisible, Option.any_some] at hshown
        exact hterminal hshown
    · intro horder
      constructor
      · intro hended
        obtain ⟨hshown, hmarker⟩ := h (List.ne_nil_of_mem hended)
        rw [halarm]
        cases hterminal : isTerminal state with
        | true =>
          obtain ⟨hvisible, hnone⟩ := shown_apply tryParseState d.2 hin
            fun _ => hterminal
          rw [hvisible, hnone hterminal]
          exact ⟨(horder.ended state hin hended hterminal).symm, hmarker.symm⟩
        | false =>
          rw [apply_of_guarded hin hshown hterminal]
          exact ⟨rfl, rfl⟩
      · intro state' hstate hnewer
        obtain rfl := Option.some.inj (hin.symm.trans hstate)
        rw [halarm]
        exact (shown_apply tryParseState d.2 hin (horder.newer state hin hnewer)).1

/-- In every run of deliveries, the shown lifecycle is monotone per command exactly when every
delivery is in order. -/
theorem monotone_iff_inOrder (tryParseState : String → Option AlarmState)
    (tryParseGuid : String → Option Guid) (issuedAt : String → ℕ) (a : ActiveAlarm)
    (deliveries : List Delivery) :
    Machine.Always (step tryParseState tryParseGuid) (Monotone tryParseState tryParseGuid issuedAt)
      (start a) deliveries ↔
    Machine.Always (step tryParseState tryParseGuid) (InOrder tryParseGuid issuedAt)
      (start a) deliveries := by
  constructor
  · intro h
    refine Machine.always_of_always _ Settled ?_ ?_ (settled_start a) h
    · intro p d hsettled _
      exact settled_step hsettled d
    · intro p d hsettled hmonotone
      exact (monotone_step_iff issuedAt hsettled d).mp hmonotone
  · intro h
    refine Machine.always_of_always _ Settled ?_ ?_ (settled_start a) h
    · intro p d hsettled _
      exact settled_step hsettled d
    · intro p d hsettled horder
      exact (monotone_step_iff issuedAt hsettled d).mpr horder

def tankEvent (command state : String) : Delivery :=
  ({ commandId := command
     actionId := none
     correlationId := command
     lifecycleId := "life"
     dcsSequenceId := none
     alarmId := "00000000-0000-0000-0000-000000000007"
     lifecycleState := some state
     detail := none
     timestampEpochMs := 0 }, 0)

/-- `Guid.TryParse` of the identifier of the tank alarm. -/
def parseTank (s : String) : Option Guid :=
  if s = "00000000-0000-0000-0000-000000000007" then some 7 else none

def tankOrder (command : String) : ℕ := if command = "second" then 2 else 1

/-- A timeout that is delivered after the confirmation of its command replaces it, and a request
that follows a confirmation is not shown. -/
theorem terminal_states_misplaced :
    (¬ Machine.Always (step (fun _ => none) parseTank)
      (Monotone (fun _ => none) parseTank tankOrder) (start ActiveAlarm.tankAlarm)
      [tankEvent "first" "ACK_CONFIRMED", tankEvent "first" "ACK_TIMEOUT"]) ∧
    ¬ Machine.Always (step (fun _ => none) parseTank)
      (Monotone (fun _ => none) parseTank tankOrder) (start ActiveAlarm.tankAlarm)
      [tankEvent "first" "ACK_CONFIRMED", tankEvent "second" "ACK_REQUESTED"] := by
  constructor
  · intro h
    have hkept := (h.2.1.ended (by decide)).1
    exact absurd hkept (by decide)
  · intro h
    have hvisible := h.2.1.newer "ACK_REQUESTED" (by decide) (by unfold Newer; decide)
    exact absurd hvisible (by decide)

end LifecycleEventConsumerService

end OpenBridge.Alarms
