import OpenBridge.Alarms.AlarmBatches
import OpenBridge.Foundation.Compaction

/-!
# Alarms: the records of the current-alarm-state topic

`OpcEventStreamJob` writes an alarm event as the whole state of the alarm, or as its removal where
the condition has cleared, and a confirmed acknowledgement as an update of the acknowledgement
alone.

A `RawOpcAlarmEvent` is what the operators before the sink pass on; its category and the attributes
of the OPC server besides the feed and the source event id are left out, as the projection leaves
them out.
-/

namespace OpenBridge.Alarms

open OpenBridge.Foundation

/-- `RawOpcAlarmEvent`; `ValidationMap` gives an id to an event without one. -/
structure RawOpcAlarmEvent where
  alarmId : String
  serverId : String
  source : String
  condition : String
  subCondition : Option String
  message : Option String
  severity : ℤ
  conditionActive : Bool
  acknowledged : Bool
  cookieOffset : ℤ
  eventTimeEpochMs : ℤ
  activeTimeEpochMs : ℤ
  priority : Option String
  feed : Option String
  sourceEventId : Option String
  identified : alarmId ≠ ""

/-- An acknowledgement result, as it is read: a text that is missing is empty, a time that is no
number is its default, and a time that is missing is `none`. -/
structure AckResult where
  resultState : String
  commandId : String
  correlationId : String
  lifecycleId : String
  alarmId : String
  serverId : String
  sourceName : String
  conditionName : String
  timestampEpochMs : Option ℤ
  activeTimeEpochMs : Option ℤ

/-- A record of the topic: the state event, and when it was written. -/
structure StateRecord where
  event : NormalizedAlarmEvent
  serverReceivedEpochMs : ℤ
  deriving DecidableEq

namespace StateRecord

/-- `JsonFieldKey`: the alarm id, or where it is empty the record itself. -/
def key (r : StateRecord) : String ⊕ StateRecord :=
  match AlarmRow.nonEmpty r.event.alarmId with
  | some alarmId => .inl alarmId
  | none => .inr r

end StateRecord

namespace OpcEventStreamJob

/-- `toCurrentAlarmStateJson`, as it is deserialized. -/
def toCurrentAlarmState (evt : RawOpcAlarmEvent) (ack : Bool) : NormalizedAlarmEvent where
  eventType := "ALARM_STATE_UPSERT"
  commandId := some ""
  correlationId := some ""
  lifecycleId := none
  dcsSequenceId := none
  alarmId := some evt.alarmId
  serverId := evt.serverId
  sourceName := evt.source
  conditionName := some evt.condition
  subConditionName := AlarmRow.nonEmpty evt.subCondition
  message := some (evt.message.getD "")
  severity := evt.severity
  priority := evt.priority.getD "LOW"
  alarmEventKind := "CONDITION"
  conditionActive := evt.conditionActive
  acknowledged := ack
  eventTimeEpochMs := evt.eventTimeEpochMs
  activeTimeEpochMs := evt.activeTimeEpochMs
  cookieOffset := evt.cookieOffset
  feed := evt.feed
  sourceEventId := evt.sourceEventId
  ackLifecycleState := none
  pendingAckActionId := none
  ackRequestedAtEpochMs := none

/-- `toDeleteAlarmStateJson`, as it is deserialized: it names no sub-condition. -/
def toDeleteAlarmState (evt : RawOpcAlarmEvent) : NormalizedAlarmEvent where
  eventType := "ALARM_STATE_DELETE"
  commandId := some ""
  correlationId := some ""
  lifecycleId := none
  dcsSequenceId := none
  alarmId := some evt.alarmId
  serverId := evt.serverId
  sourceName := evt.source
  conditionName := some evt.condition
  subConditionName := none
  message := none
  severity := 0
  priority := ""
  alarmEventKind := "CONDITION"
  conditionActive := false
  acknowledged := evt.acknowledged
  eventTimeEpochMs := evt.eventTimeEpochMs
  activeTimeEpochMs := 0
  cookieOffset := 0
  feed := none
  sourceEventId := none
  ackLifecycleState := none
  pendingAckActionId := none
  ackRequestedAtEpochMs := none

def toAlarmState (evt : RawOpcAlarmEvent) : NormalizedAlarmEvent :=
  if ¬ evt.conditionActive then toDeleteAlarmState evt
  else toCurrentAlarmState evt evt.acknowledged

def isAckConfirmed (result : AckResult) : Bool := equalsIgnoreCase "ACK_CONFIRMED" result.resultState

/-- What `toAckConfirmedState` writes, given its times. -/
def ackStateUpdate (result : AckResult) (timestampEpochMs activeTimeEpochMs : ℤ) :
    NormalizedAlarmEvent where
  eventType := "ACK_STATE_UPDATE"
  commandId := some result.commandId
  correlationId := some result.correlationId
  lifecycleId := some result.lifecycleId
  dcsSequenceId := none
  alarmId := some result.alarmId
  serverId := result.serverId
  sourceName := result.sourceName
  conditionName := some result.conditionName
  subConditionName := none
  message := none
  severity := 100
  priority := "LOW"
  alarmEventKind := "CONDITION"
  conditionActive := false
  acknowledged := true
  eventTimeEpochMs := timestampEpochMs
  activeTimeEpochMs := activeTimeEpochMs
  cookieOffset := 0
  feed := some "http-current-alarms"
  sourceEventId := none
  ackLifecycleState := some "ACK_CONFIRMED"
  pendingAckActionId := none
  ackRequestedAtEpochMs := none

/-- `toAckConfirmedState`, as it is deserialized: a missing time throws, and nothing is written. -/
def toAckConfirmedState (result : AckResult) : Option NormalizedAlarmEvent :=
  match result.timestampEpochMs, result.activeTimeEpochMs with
  | some timestamp, some activeTime => some (ackStateUpdate result timestamp activeTime)
  | _, _ => none

inductive Input where
  | alarm (evt : RawOpcAlarmEvent)
  | ackResult (result : AckResult)

def stateEvent : Input → Option NormalizedAlarmEvent
  | .alarm evt => some (toAlarmState evt)
  | .ackResult result => if isAckConfirmed result then toAckConfirmedState result else none

def currentAlarmState (inputs : List (Input × ℤ)) : List StateRecord :=
  inputs.filterMap fun i =>
    (stateEvent i.1).map fun evt => { event := evt, serverReceivedEpochMs := i.2 }

def compacted (records : List StateRecord) : List StateRecord :=
  Compaction.compact StateRecord.key records

end OpcEventStreamJob

end OpenBridge.Alarms
