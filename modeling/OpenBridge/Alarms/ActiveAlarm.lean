import OpenBridge.Foundation.Dict
import OpenBridge.Foundation.Guid
import OpenBridge.Foundation.Machine

/-!
# Alarms: the active alarm

`ActiveAlarm` of the alarm service: the entity an OPC notification creates, and the operations that
operators, the stream and the OPC server apply to it.  Times are ticks of 100 ns.
-/

namespace OpenBridge.Alarms

open OpenBridge.Foundation

/-- `AlarmPriority`; an entity that is built without one holds the value 0, which has no name. -/
inductive AlarmPriority where
  | unset
  | critical
  | high
  | medium
  | low
  | diagnostic
  deriving DecidableEq

inductive AlarmState where
  | unacknowledgedUncleared
  | acknowledgedUncleared
  | unacknowledgedCleared
  | acknowledgedCleared
  | shelved
  | suppressedByDesign
  | outOfService
  | inhibited
  deriving DecidableEq

/-- A value of `CustomAttributes`. -/
inductive Attribute where
  | text (s : String)
  | number (n : ℤ)
  deriving DecidableEq

/-- `ToString()`. -/
def Attribute.toText : Attribute → String
  | text s => s
  | number n => toString n

inductive AlarmEvent where
  | activated (alarmId serverId : Guid) (sourceName : String) (priority : AlarmPriority)
      (eventTime : ℤ)
  | acknowledged (alarmId serverId : Guid) (sourceName : String) (userId : Guid) (ackTime : ℤ)
  | cleared (alarmId serverId : Guid) (sourceName : String) (clearedTime : ℤ)
  | shelved (alarmId serverId : Guid) (sourceName : String) (userId : Guid) (shelveUntil : ℤ)
  | unshelved (alarmId serverId : Guid) (sourceName : String) (userId : Guid)
  | suppressed (alarmId serverId : Guid) (sourceName : String) (userId : Guid) (reason : String)
  deriving DecidableEq

structure ActiveAlarm where
  id : Guid
  alarmId : String
  serverId : Guid
  sourceName : String
  conditionName : Option String
  subConditionName : Option String
  message : Option String
  severity : ℤ
  priority : AlarmPriority
  state : AlarmState
  conditionActive : Bool
  acknowledged : Bool
  eventTime : ℤ
  activeTime : ℤ
  ackTime : Option ℤ
  ackedBy : Option Guid
  ackComment : Option String
  isShelved : Bool
  shelvedAt : Option ℤ
  shelvedBy : Option Guid
  shelveUntil : Option ℤ
  shelveComment : Option String
  isSuppressed : Bool
  suppressedAt : Option ℤ
  suppressedBy : Option Guid
  suppressionReason : Option String
  isOutOfService : Bool
  customAttributes : Dict String Attribute

/-- The last tick of a `DateTimeOffset`. -/
def maxTicks : ℤ := 3155378975999999999

/-- `AddMinutes`: throws (`none`) beyond the years 1 to 9999. -/
def addMinutes (t minutes : ℤ) : Option ℤ :=
  let sum := t + minutes * 600000000
  if 0 ≤ sum ∧ sum ≤ maxTicks then some sum else none

/-- `IsNullOrWhiteSpace` of a text. -/
def isWhiteSpaceOnly (s : String) : Bool := trim s = ""

namespace ActiveAlarm

/-- What the alarm is, as the OPC server describes it. -/
structure OpcNotification where
  serverId : Guid
  sourceName : String
  conditionName : Option String
  subConditionName : Option String
  message : Option String
  severity : ℤ
  priority : AlarmPriority
  conditionActive : Bool
  eventTime : ℤ
  activeTime : ℤ

/-- `CreateFromOpcEvent`, with a new id. -/
def createFromOpcEvent (id : Guid) (n : OpcNotification) :
    Except String (ActiveAlarm × List AlarmEvent) :=
  if n.severity < 1 ∨ 1000 < n.severity then .error "OPC A&E severity must be 1-1000"
  else if isWhiteSpaceOnly n.sourceName then .error "Source name is required"
  else
    .ok
      ({ id := id, alarmId := "", serverId := n.serverId, sourceName := trim n.sourceName,
         conditionName := n.conditionName, subConditionName := n.subConditionName,
         message := n.message, severity := n.severity, priority := n.priority,
         state := .unacknowledgedUncleared, conditionActive := n.conditionActive,
         acknowledged := false, eventTime := n.eventTime, activeTime := n.activeTime,
         ackTime := none, ackedBy := none, ackComment := none, isShelved := false,
         shelvedAt := none, shelvedBy := none, shelveUntil := none, shelveComment := none,
         isSuppressed := false, suppressedAt := none, suppressedBy := none,
         suppressionReason := none, isOutOfService := false, customAttributes := Dict.empty },
       [.activated id n.serverId n.sourceName n.priority n.eventTime])

variable (a : ActiveAlarm)

def setAlarmIdentity (id : Guid) (alarmId : String) : ActiveAlarm :=
  { a with id := id, alarmId := alarmId }

def determineNormalState : AlarmState :=
  if a.conditionActive ∧ ¬ a.acknowledged then .unacknowledgedUncleared
  else if a.conditionActive ∧ a.acknowledged then .acknowledgedUncleared
  else if ¬ a.conditionActive ∧ ¬ a.acknowledged then .unacknowledgedCleared
  else .acknowledgedCleared

def acknowledge (userId : Guid) (comment : Option String) (ackTime : ℤ) :
    Except String (ActiveAlarm × List AlarmEvent) :=
  if a.acknowledged then .error "Alarm is already acknowledged"
  else if a.isShelved then .error "Cannot acknowledge a shelved alarm directly"
  else
    .ok
      ({ a with acknowledged := true, ackedBy := some userId, ackComment := comment,
                ackTime := some ackTime,
                state := if a.conditionActive then .acknowledgedUncleared
                  else .acknowledgedCleared },
       [.acknowledged a.id a.serverId a.sourceName userId ackTime])

/-- `Shelve`; an expiry beyond the calendar throws when the first fields are written. -/
def shelve (userId : Guid) (durationMinutes : ℤ) (comment : String) (maxDurationMinutes now : ℤ) :
    Except String (ActiveAlarm × List AlarmEvent) :=
  if a.isShelved then .error "Alarm is already shelved"
  else if durationMinutes > maxDurationMinutes then
    .error ("Shelve duration exceeds maximum allowed (" ++ toString maxDurationMinutes ++
      " minutes)")
  else if isWhiteSpaceOnly comment then .error "Shelve comment is required per ISA-18.2"
  else
    match addMinutes now durationMinutes with
    | none => .ok ({ a with isShelved := true, shelvedAt := some now, shelvedBy := some userId }, [])
    | some expiry =>
        .ok
          ({ a with isShelved := true, shelvedAt := some now, shelvedBy := some userId,
                    shelveUntil := some expiry, shelveComment := some comment,
                    state := .shelved },
           [.shelved a.id a.serverId a.sourceName userId expiry])

def unshelve (userId : Guid) : Except String (ActiveAlarm × List AlarmEvent) :=
  if a.isShelved then
    .ok
      ({ a with isShelved := false, shelvedAt := none, shelvedBy := none, shelveUntil := none,
                shelveComment := none, state := a.determineNormalState },
       [.unshelved a.id a.serverId a.sourceName userId])
  else .error "Alarm is not shelved"

def suppress (userId : Guid) (reason : String) (now : ℤ) :
    Except String (ActiveAlarm × List AlarmEvent) :=
  if a.isSuppressed then .error "Alarm is already suppressed"
  else
    .ok
      ({ a with isSuppressed := true, suppressedAt := some now, suppressedBy := some userId,
                suppressionReason := some reason, state := .suppressedByDesign },
       [.suppressed a.id a.serverId a.sourceName userId reason])

def setOutOfService (reason : String) : Except String (ActiveAlarm × List AlarmEvent) :=
  if a.isOutOfService then .error "Alarm is already out of service"
  else if isWhiteSpaceOnly reason then .error "Reason is required"
  else .ok ({ a with isOutOfService := true, state := .outOfService }, [])

/-- What `ApplyAckLifecycle` is told besides the lifecycle state. -/
structure AckDetails where
  commandId : Option String
  requestedAtEpochMs : Option ℤ
  detail : Option String
  correlationId : Option String
  lifecycleId : Option String
  dcsSequenceId : Option String

def setGiven (d : Dict String Attribute) (name : String) (value : Option Attribute) :
    Dict String Attribute :=
  match value with
  | none => d
  | some v => d.set name v

/-- The attributes that `ApplyAckLifecycle` writes first. -/
def ackAttributes (d : Dict String Attribute) (lifecycleState : String) (k : AckDetails) :
    Dict String Attribute :=
  let d := d.set "ackLifecycleState" (.text lifecycleState)
  let d := setGiven d "pendingAckCommandId" (k.commandId.map .text)
  let d := setGiven d "pendingAckActionId" (k.commandId.map .text)
  let d := setGiven d "ackCorrelationId" (k.correlationId.map .text)
  let d := setGiven d "ackLifecycleId" (k.lifecycleId.map .text)
  let d := setGiven d "dcsSequenceId" (k.dcsSequenceId.map .text)
  let d := setGiven d "ackRequestedAtEpochMs" (k.requestedAtEpochMs.map .number)
  setGiven d "ackLifecycleDetail" (k.detail.map .text)

def applyAckLifecycle (lifecycleState : String) (k : AckDetails) (now : ℤ) : ActiveAlarm :=
  let attributes := ackAttributes a.customAttributes lifecycleState k
  if lifecycleState = "ACK_CONFIRMED" then
    if a.acknowledged then
      { a with customAttributes := attributes.erase "pendingAckActionId" }
    else
      { a with acknowledged := true, ackTime := some now,
               -- the condition may not have been loaded: it is inferred from the state
               state := if a.conditionActive ∨ a.state = .unacknowledgedUncleared then
                   .acknowledgedUncleared
                 else .acknowledgedCleared,
               customAttributes := attributes.erase "pendingAckActionId" }
  else if lifecycleState = "ACK_FAILED" ∨ lifecycleState = "ACK_TIMEOUT" then
    { a with customAttributes := attributes.erase "pendingAckActionId" }
  else { a with customAttributes := attributes }

def getAckLifecycleState : Option String :=
  (a.customAttributes.get? "ackLifecycleState").map Attribute.toText

def reconcileAcknowledgement (ackTime : ℤ) (userId : Option Guid) (comment : Option String) :
    ActiveAlarm :=
  if a.acknowledged then a
  else
    { a with acknowledged := true, ackedBy := userId, ackComment := comment,
             ackTime := some ackTime,
             state := if a.conditionActive then .acknowledgedUncleared else .acknowledgedCleared }

def pendingStates : List String :=
  ["ACK_REQUESTED", "ACK_QUEUED", "ACK_PROCESSING", "ACK_DISPATCHED", "ACK_PENDING_DCS",
    "ACK_RETRYING"]

/-- `ClearOpcInferredAcknowledgement` changes the alarm. -/
def clearsAcknowledgement : Bool :=
  a.acknowledged ∧ "ackCorrelationId" ∉ a.customAttributes.keys ∧
    ∀ s ∈ a.getAckLifecycleState, s ∉ pendingStates

def clearOpcInferredAcknowledgement : ActiveAlarm :=
  if a.clearsAcknowledgement then
    { a with acknowledged := false, ackTime := none, ackedBy := none, ackComment := none,
             state := if a.conditionActive then .unacknowledgedUncleared
               else .unacknowledgedCleared,
             customAttributes := ((a.customAttributes.erase "ackLifecycleState").erase
               "pendingAckActionId").erase "pendingAckCommandId" }
  else a

def applyConditionChange (conditionActive : Bool) (message : Option String) (severity eventTime : ℤ) :
    ActiveAlarm × List AlarmEvent :=
  let b := { a with conditionActive := conditionActive, message := message, severity := severity,
                    eventTime := eventTime }
  if ¬ conditionActive ∧ a.conditionActive then
    ({ b with state := if a.acknowledged then .acknowledgedCleared else .unacknowledgedCleared },
     [.cleared a.id a.serverId a.sourceName eventTime])
  else if conditionActive ∧ ¬ a.conditionActive then
    ({ b with acknowledged := false, ackTime := none, ackedBy := none, activeTime := eventTime,
              state := .unacknowledgedUncleared },
     [.activated a.id a.serverId a.sourceName a.priority eventTime])
  else (b, [])

def syncOpcActiveTime (activeTime : ℤ) : ActiveAlarm :=
  if a.conditionActive then { a with activeTime := activeTime } else a

end ActiveAlarm

/-- A call of an operation of the alarm. -/
inductive Operation where
  | acknowledge (userId : Guid) (comment : Option String) (ackTime : ℤ)
  | shelve (userId : Guid) (durationMinutes : ℤ) (comment : String) (maxDurationMinutes now : ℤ)
  | unshelve (userId : Guid)
  | suppress (userId : Guid) (reason : String) (now : ℤ)
  | setOutOfService (reason : String)
  | applyAckLifecycle (lifecycleState : String) (details : ActiveAlarm.AckDetails) (now : ℤ)
  | reconcileAcknowledgement (ackTime : ℤ) (userId : Option Guid) (comment : Option String)
  | clearOpcInferredAcknowledgement
  | applyConditionChange (conditionActive : Bool) (message : Option String)
      (severity eventTime : ℤ)
  | syncOpcActiveTime (activeTime : ℤ)
  | setAlarmIdentity (id : Guid) (alarmId : String)

def applied (a : ActiveAlarm) (r : Except String (ActiveAlarm × List AlarmEvent)) :
    ActiveAlarm × List AlarmEvent :=
  match r with
  | .ok result => result
  | .error _ => (a, [])

@[simp] theorem applied_ok (a : ActiveAlarm) (r : ActiveAlarm × List AlarmEvent) :
    applied a (.ok r) = r := rfl

@[simp] theorem applied_error (a : ActiveAlarm) (e : String) : applied a (.error e) = (a, []) := rfl

@[simp] theorem applied_refusal (a : ActiveAlarm) (p : Prop) [Decidable p] (e : String)
    (r : Except String (ActiveAlarm × List AlarmEvent)) :
    applied a (if p then .error e else r) = if p then (a, []) else applied a r := by
  split <;> rfl

def step (a : ActiveAlarm) : Operation → ActiveAlarm × List AlarmEvent
  | .acknowledge userId comment ackTime => applied a (a.acknowledge userId comment ackTime)
  | .shelve userId minutes comment most now => applied a (a.shelve userId minutes comment most now)
  | .unshelve userId => applied a (a.unshelve userId)
  | .suppress userId reason now => applied a (a.suppress userId reason now)
  | .setOutOfService reason => applied a (a.setOutOfService reason)
  | .applyAckLifecycle state details now => (a.applyAckLifecycle state details now, [])
  | .reconcileAcknowledgement ackTime userId comment =>
      (a.reconcileAcknowledgement ackTime userId comment, [])
  | .clearOpcInferredAcknowledgement => (a.clearOpcInferredAcknowledgement, [])
  | .applyConditionChange active message severity eventTime =>
      a.applyConditionChange active message severity eventTime
  | .syncOpcActiveTime activeTime => (a.syncOpcActiveTime activeTime, [])
  | .setAlarmIdentity id alarmId => (a.setAlarmIdentity id alarmId, [])

abbrev ActiveAlarm.after (a : ActiveAlarm) (ops : List Operation) : ActiveAlarm :=
  Machine.stateAfter step a ops

end OpenBridge.Alarms
