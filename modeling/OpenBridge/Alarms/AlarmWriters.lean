import OpenBridge.Alarms.AlarmBatches
import OpenBridge.Alarms.LifecycleEventConsumerService
import OpenBridge.Foundation.ReadModifyWrite
import Mathlib.Data.List.Permutation

/-!
# Alarms: the writers of a row

The handlers of the operator commands and the lifecycle consumer load a row, change it and write
every column back; the projection consumer writes the columns that a batch changed, or inserts or
deletes the row.

A row is taken as it is loaded.  The handler of an acknowledgement only publishes a command.
-/

namespace OpenBridge.Alarms

open OpenBridge.Foundation

deriving instance DecidableEq for ActiveAlarm, AlarmRow

inductive OperatorCommand where
  | acknowledge
  | shelve (userId : Guid) (durationMinutes : ℤ) (comment : String) (now : ℤ)
  | unshelve (userId : Guid)
  | suppress (userId : Guid) (reason : String) (now : ℤ)
  | setOutOfService (reason : String)
  deriving DecidableEq

namespace AlarmRow

def columns (r : AlarmRow) : AlarmRow :=
  { r with
    priority := .unset
    conditionActive := false
    activeTime := 0
    shelvedAt := none
    shelveComment := none
    suppressedAt := none
    suppressedBy := none
    suppressionReason := none
    isOutOfService := false }

def updated {α : Type} [DecidableEq α] (loaded edited current : α) : α :=
  if edited = loaded then current else edited

/-- An update of the columns that differ from what was loaded. -/
def updateColumns (loaded edited current : AlarmRow) : AlarmRow :=
  { current with
    alarmId := updated loaded.alarmId edited.alarmId current.alarmId
    serverId := updated loaded.serverId edited.serverId current.serverId
    sourceName := updated loaded.sourceName edited.sourceName current.sourceName
    severity := updated loaded.severity edited.severity current.severity
    message := updated loaded.message edited.message current.message
    conditionName := updated loaded.conditionName edited.conditionName current.conditionName
    subConditionName :=
      updated loaded.subConditionName edited.subConditionName current.subConditionName
    eventTime := updated loaded.eventTime edited.eventTime current.eventTime
    acknowledged := updated loaded.acknowledged edited.acknowledged current.acknowledged
    opcAttributes := updated loaded.opcAttributes edited.opcAttributes current.opcAttributes
    customAttributes :=
      updated loaded.customAttributes edited.customAttributes current.customAttributes
    state := updated loaded.state edited.state current.state
    ackTime := updated loaded.ackTime edited.ackTime current.ackTime
    ackedBy := updated loaded.ackedBy edited.ackedBy current.ackedBy
    ackComment := updated loaded.ackComment edited.ackComment current.ackComment
    isShelved := updated loaded.isShelved edited.isShelved current.isShelved
    shelveUntil := updated loaded.shelveUntil edited.shelveUntil current.shelveUntil
    isSuppressed := updated loaded.isSuppressed edited.isSuppressed current.isSuppressed
    shelvedBy := updated loaded.shelvedBy edited.shelvedBy current.shelvedBy }

def withAlarm (r : AlarmRow) (a : ActiveAlarm) : AlarmRow := { r with toActiveAlarm := a }

end AlarmRow

namespace NormalizedAlarmIngestor

/-- A writer of a row: the handler of a command, the lifecycle consumer for an event with its clock,
and the projection consumer for a batch. -/
inductive Writer where
  | command (c : OperatorCommand)
  | lifecycle (evt : LifecycleEventMessage) (now : ℤ)
  | projection (events : List Received)
  deriving DecidableEq

/-- What a save writes: nothing, every column, or what a unit of work has for the row. -/
inductive Write where
  | nothing
  | everyColumn (r : AlarmRow)
  | changes (e : UnitOfWork.Entry AlarmRow)
  deriving DecidableEq

/-- What a handler makes of the loaded alarm, unless the command fails.  An expiry beyond the
calendar throws. -/
def handle (c : OperatorCommand) (a : ActiveAlarm) : Option ActiveAlarm :=
  match c with
  | .acknowledge => some a
  | .shelve userId minutes comment now =>
      if (addMinutes now minutes).isSome then
        (a.shelve userId minutes comment 480 now).toOption.map Prod.fst
      else none
  | .unshelve userId => (a.unshelve userId).toOption.map Prod.fst
  | .suppress userId reason now => (a.suppress userId reason now).toOption.map Prod.fst
  | .setOutOfService reason => (a.setOutOfService reason).toOption.map Prod.fst

variable (rt : Runtime) (id : Guid)

def single (row : Option AlarmRow) : UnitOfWork.Work Guid AlarmRow :=
  match row with
  | none => Dict.empty
  | some r => Dict.empty.set id { value := r, status := .stored }

def decideWrite (w : Writer) (row : Option AlarmRow) : Option Write :=
  match w, row with
  | .command .acknowledge, some _ => some .nothing
  | .command c, some r => (handle c r.toActiveAlarm).map fun a => .everyColumn (r.withAlarm a)
  | .lifecycle evt now, some r =>
      match LifecycleEventConsumerService.incoming rt.tryParseGuid r.toActiveAlarm evt with
      | none => none
      | some state =>
          if ¬ r.ackIsTerminal ∨ isTerminal state then
            some (.everyColumn (r.withAlarm (r.toActiveAlarm.applyAckLifecycle state
              (LifecycleEventConsumerService.ackDetails evt state) now)))
          else none
  | .projection events, row =>
      match (events.map (request rt)).foldlM UnitOfWork.process (single id row) with
      | .error _ => none
      | .ok work =>
          match work.get? id with
          | none => some .nothing
          | some e => some (.changes e)
  | _, none => none

/-- The save: an update or a deletion of a row that is gone fails, as does the insertion of one that
is there. -/
def save (loaded : Option AlarmRow) (w : Write) (current : Option AlarmRow) :
    Option (Option AlarmRow) :=
  match w with
  | .nothing => some current
  | .everyColumn r => current.map fun _ => some (r.reload rt.tryParseState)
  | .changes e =>
      match e.status with
      | .stored =>
          let before := loaded.getD e.value
          if e.value.columns = before.columns then some current
          else
            current.map fun now =>
              some ((AlarmRow.updateColumns before e.value now).reload rt.tryParseState)
      | .added => if current = none then some (some (e.value.reload rt.tryParseState)) else none
      | .removed => if current = none then none else some none

def rowWriters : ReadModifyWrite.Protocol (Option AlarmRow) Writer Write where
  decide := decideWrite rt id
  save := fun _ loaded w current => save rt loaded w current

abbrev Run := List (ReadModifyWrite.Event ℕ Writer)

def tankRow : Option AlarmRow := tankTable.get? 7

def shelveTank : Writer := .command (.shelve 5 60 "Maintenance" 0)

def confirmTank : Writer :=
  .lifecycle
    { commandId := "first", actionId := none, correlationId := "first", lifecycleId := "life",
      dcsSequenceId := none, alarmId := "00000000-0000-0000-0000-000000000007",
      lifecycleState := some "ACK_CONFIRMED", detail := none, timestampEpochMs := 0 } 0

end NormalizedAlarmIngestor

end OpenBridge.Alarms
