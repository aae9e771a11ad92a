import OpenBridge.Foundation.Dict
import OpenBridge.Foundation.Text

/-!
# Alarm console: alarms and how payloads are merged into them

`mapActiveAlarmDto` reads an alarm of the API, `mapHubAlarmPayload` one that the hub sends;
`upsertAlarm` merges it into the alarm that is shown, and `applyAckLifecycleToAlarm` shows how an
acknowledgement proceeds.
-/

namespace OpenBridge.AlarmConsole

open OpenBridge.Foundation

/-! ## Alarms -/

/-- What an update of an alarm replaces as a whole. -/
structure AlarmDetails where
  id : String
  serverId : String
  serverName : String
  sourceName : String
  conditionName : Option String
  message : Option String
  severity : ℤ
  priority : String
  category : String
  state : String
  conditionActive : Bool
  isShelved : Bool
  isSuppressed : Bool
  isOutOfService : Bool
  qualityGood : Bool
  eventTimeEpochMs : ℤ
  activeTimeEpochMs : ℤ
  shelveUntilEpochMs : Option ℤ
  shelveComment : Option String
  suppressionReason : Option String
  isRootCause : Bool
  processValue : Option ℤ
  processUnit : Option String
  serverReceivedEpochMs : ℤ
  logicalAlarmFamilyId : String
  instanceKeySchemaVersion : ℤ
  eventTimeMissing : Bool
deriving DecidableEq

/-- An alarm of the console. -/
structure ActiveAlarm extends AlarmDetails where
  acknowledged : Bool
  subConditionName : Option String
  ackTimeEpochMs : Option ℤ
  ackedByUsername : Option String
  ackComment : Option String
  correlationId : Option String
  opcAttributes : Dict String String
  ackLifecycleState : Option String
  ackRequestedAtEpochMs : Option ℤ
  pendingAckActionId : Option String
  commandId : Option String
  lifecycleId : Option String
  dcsSequenceId : Option String
deriving DecidableEq

/-- A payload: each field under either of its spellings, none when it is absent or null.  The times
are those of the dates, as far as they can be read, and those in milliseconds. -/
structure RawAlarm where
  id : String
  serverId : Option String
  serverName : Option String
  sourceName : Option String
  conditionName : Option String
  subConditionName : Option String
  message : Option String
  severity : Option ℤ
  priorityLabel : Option String
  priority : Option String
  category : Option String
  stateLabel : Option String
  state : Option String
  conditionActive : Option Bool
  acknowledged : Option Bool
  isShelved : Option Bool
  isSuppressed : Option Bool
  isOutOfService : Option Bool
  qualityGood : Option Bool
  eventTime : Option ℤ
  eventTimeEpochMs : Option ℤ
  activeTime : Option ℤ
  activeTimeEpochMs : Option ℤ
  ackTime : Option ℤ
  ackTimeEpochMs : Option ℤ
  ackedByUsername : Option String
  ackComment : Option String
  shelveUntil : Option ℤ
  shelveUntilEpochMs : Option ℤ
  shelveComment : Option String
  suppressionReason : Option String
  correlationId : Option String
  isRootCause : Option Bool
  processValue : Option ℤ
  processUnit : Option String
  serverReceived : Option ℤ
  serverReceivedEpochMs : Option ℤ
  opcAttributes : Dict String String
  customAttributes : Dict String String
  logicalAlarmFamilyId : Option String
  instanceKeySchemaVersion : Option ℤ

/-- A payload with nothing but its id. -/
def RawAlarm.bare (id : String) : RawAlarm where
  id := id
  serverId := none
  serverName := none
  sourceName := none
  conditionName := none
  subConditionName := none
  message := none
  severity := none
  priorityLabel := none
  priority := none
  category := none
  stateLabel := none
  state := none
  conditionActive := none
  acknowledged := none
  isShelved := none
  isSuppressed := none
  isOutOfService := none
  qualityGood := none
  eventTime := none
  eventTimeEpochMs := none
  activeTime := none
  activeTimeEpochMs := none
  ackTime := none
  ackTimeEpochMs := none
  ackedByUsername := none
  ackComment := none
  shelveUntil := none
  shelveUntilEpochMs := none
  shelveComment := none
  suppressionReason := none
  correlationId := none
  isRootCause := none
  processValue := none
  processUnit := none
  serverReceived := none
  serverReceivedEpochMs := none
  opcAttributes := .empty
  customAttributes := .empty
  logicalAlarmFamilyId := none
  instanceKeySchemaVersion := none

/-! ## Mapping -/

/-- White space of `String.prototype.trim`. -/
def isTrimmed (c : Char) : Bool := (isWhiteSpace c && c ≠ '\u0085') || c = '\uFEFF'

def INSTANCE_KEY_SCHEMA_VERSION : ℤ := 1

def computeLogicalAlarmFamilyId (serverId sourceName : String)
    (conditionName subConditionName : Option String) : String :=
  let norm (s : String) := trimWhere isTrimmed s
  norm serverId ++ "|" ++ norm sourceName ++ "|" ++ norm (conditionName.getD "") ++ "|" ++
    norm (subConditionName.getD "")

def resolveFamilyId (raw : RawAlarm) : String :=
  match raw.logicalAlarmFamilyId with
  | some fromApi =>
      if trimWhere isTrimmed fromApi ≠ "" then trimWhere isTrimmed fromApi
      else computeLogicalAlarmFamilyId (raw.serverId.getD "") (raw.sourceName.getD "")
        raw.conditionName raw.subConditionName
  | none => computeLogicalAlarmFamilyId (raw.serverId.getD "") (raw.sourceName.getD "")
      raw.conditionName raw.subConditionName

def mapActiveAlarmDto (raw : RawAlarm) : ActiveAlarm where
  id := raw.id
  serverId := raw.serverId.getD ""
  serverName := raw.serverName.getD ""
  sourceName := raw.sourceName.getD ""
  conditionName := raw.conditionName
  subConditionName := raw.subConditionName
  message := raw.message
  severity := raw.severity.getD 0
  priority := toUpperRoot ((raw.priorityLabel.or raw.priority).getD "LOW")
  category := toUpperRoot (raw.category.getD "PROCESS")
  state := toUpperRoot ((raw.stateLabel.or raw.state).getD "UNACKNOWLEDGED_UNCLEARED")
  conditionActive := raw.conditionActive.getD true
  acknowledged := raw.acknowledged.getD false
  isShelved := raw.isShelved.getD false
  isSuppressed := raw.isSuppressed.getD false
  isOutOfService := raw.isOutOfService.getD false
  qualityGood := raw.qualityGood.getD true
  eventTimeEpochMs := raw.eventTime.getD 0
  activeTimeEpochMs := (raw.activeTime.or raw.eventTime).getD 0
  ackTimeEpochMs := raw.ackTime
  ackedByUsername := raw.ackedByUsername
  ackComment := raw.ackComment
  shelveUntilEpochMs := raw.shelveUntil
  shelveComment := raw.shelveComment
  suppressionReason := raw.suppressionReason
  correlationId := raw.correlationId
  isRootCause := raw.isRootCause.getD false
  processValue := raw.processValue
  processUnit := raw.processUnit
  serverReceivedEpochMs := (raw.serverReceived.or raw.serverReceivedEpochMs).getD 0
  opcAttributes := raw.opcAttributes
  ackLifecycleState := (raw.opcAttributes.get? "ackLifecycleState").or
    (raw.customAttributes.get? "ackLifecycleState")
  ackRequestedAtEpochMs := none
  pendingAckActionId := none
  commandId := none
  lifecycleId := none
  dcsSequenceId := none
  logicalAlarmFamilyId := resolveFamilyId raw
  instanceKeySchemaVersion := raw.instanceKeySchemaVersion.getD INSTANCE_KEY_SCHEMA_VERSION
  eventTimeMissing := raw.eventTime.isNone

def hubAlarm (raw : RawAlarm) : ActiveAlarm :=
  let base := mapActiveAlarmDto raw
  { base with
    eventTimeEpochMs := raw.eventTimeEpochMs.getD base.eventTimeEpochMs
    activeTimeEpochMs := raw.activeTimeEpochMs.getD base.activeTimeEpochMs
    ackTimeEpochMs := raw.ackTimeEpochMs.or base.ackTimeEpochMs
    shelveUntilEpochMs := raw.shelveUntilEpochMs.or base.shelveUntilEpochMs
    serverReceivedEpochMs := raw.serverReceivedEpochMs.getD base.serverReceivedEpochMs
    subConditionName := raw.subConditionName.or base.subConditionName
    ackComment := raw.ackComment.or base.ackComment
    ackedByUsername := raw.ackedByUsername.or base.ackedByUsername
    state := toUpperRoot (raw.state.getD base.state)
    priority := toUpperRoot (raw.priority.getD base.priority)
    logicalAlarmFamilyId := raw.logicalAlarmFamilyId.getD base.logicalAlarmFamilyId
    instanceKeySchemaVersion :=
      raw.instanceKeySchemaVersion.getD base.instanceKeySchemaVersion }

/-! ## Merging -/

def ACK_CONFIRMED : String := "ACK_CONFIRMED"

/-- `TERMINAL_ACK`. -/
def terminalAck (s : String) : Bool := s ∈ [ACK_CONFIRMED, "ACK_FAILED", "ACK_TIMEOUT"]

/-- `PENDING_ACK`. -/
def pendingAck (s : String) : Bool :=
  s ∈ ["ACK_REQUESTED", "ACK_QUEUED", "ACK_PROCESSING", "ACK_DISPATCHED", "ACK_PENDING_DCS",
    "ACK_RETRYING"]

def failedAck (s : Option String) : Bool := s = some "ACK_FAILED" || s = some "ACK_TIMEOUT"

def shallowRecordEqual (a b : Dict String String) : Bool :=
  (a.keys ++ b.keys).all fun k => a.get? k = b.get? k

def alarmsEqual (a b : ActiveAlarm) : Bool :=
  { a with opcAttributes := b.opcAttributes } = b &&
    shallowRecordEqual a.opcAttributes b.opcAttributes

def resolveOperatorAcknowledged (existing incoming : ActiveAlarm) : Bool :=
  if incoming.acknowledged then true
  else if existing.ackLifecycleState = some ACK_CONFIRMED then true
  else if incoming.ackLifecycleState = some ACK_CONFIRMED then true
  else if failedAck incoming.ackLifecycleState then false
  else existing.acknowledged

def stateRichness (a : ActiveAlarm) : ℕ :=
  (if a.commandId.getD "" ≠ "" then 2 else 0) + (if a.opcAttributes.keys.length > 0 then 1 else 0)

def mergeFields (existing incoming : ActiveAlarm) : ActiveAlarm where
  toAlarmDetails := incoming.toAlarmDetails
  acknowledged := resolveOperatorAcknowledged existing incoming
  subConditionName := incoming.subConditionName.or existing.subConditionName
  ackComment := incoming.ackComment.or existing.ackComment
  ackedByUsername := incoming.ackedByUsername.or existing.ackedByUsername
  ackTimeEpochMs := incoming.ackTimeEpochMs.or existing.ackTimeEpochMs
  opcAttributes := incoming.opcAttributes.entries.foldl (fun d e => d.set e.1 e.2)
    existing.opcAttributes
  commandId := incoming.commandId.or existing.commandId
  correlationId := incoming.correlationId.or existing.correlationId
  lifecycleId := incoming.lifecycleId.or existing.lifecycleId
  dcsSequenceId := incoming.dcsSequenceId.or existing.dcsSequenceId
  ackLifecycleState := incoming.ackLifecycleState.or existing.ackLifecycleState
  ackRequestedAtEpochMs := incoming.ackRequestedAtEpochMs.or existing.ackRequestedAtEpochMs
  pendingAckActionId := incoming.pendingAckActionId.or existing.pendingAckActionId

def preferRicherState (a b : ActiveAlarm) : ActiveAlarm :=
  if stateRichness a ≤ stateRichness b then b else a

/-- `upsertAlarm`: an older alarm changes nothing. -/
def upsertAlarm (existing incoming : ActiveAlarm) : ActiveAlarm :=
  if incoming.eventTimeEpochMs < existing.eventTimeEpochMs then existing
  else if incoming.eventTimeEpochMs = existing.eventTimeEpochMs ∧ incoming.id = existing.id then
    let preferred := preferRicherState existing (mergeFields existing incoming)
    if alarmsEqual existing preferred then existing else preferred
  else
    let merged := mergeFields existing incoming
    if alarmsEqual existing merged then existing else merged

def mapHubAlarmPayload (raw : RawAlarm) (existing : Option ActiveAlarm) : ActiveAlarm :=
  match existing with
  | some existing => upsertAlarm existing (hubAlarm raw)
  | none => hubAlarm raw

def Same (a b : ActiveAlarm) : Prop := { a with opcAttributes := b.opcAttributes } = b

theorem Same.refl (a : ActiveAlarm) : Same a a := rfl

theorem Same.congr {β : Type} {a b : ActiveAlarm} (h : Same a b) (f : ActiveAlarm → β)
    (hf : ∀ c d, f { c with opcAttributes := d } = f c) : f a = f b := by
  unfold Same at h
  rw [← hf a b.opcAttributes, h]

theorem same_of_alarmsEqual {a b : ActiveAlarm} (h : alarmsEqual a b = true) : Same a b := by
  unfold alarmsEqual at h
  rw [Bool.and_eq_true, decide_eq_true_eq] at h
  exact h.1

theorem same_kept (a b : ActiveAlarm) : Same (if alarmsEqual a b then a else b) b := by
  split
  · exact same_of_alarmsEqual ‹_›
  · exact Same.refl b

theorem keys_foldl_set_ne_nil (es : List (String × String)) {d : Dict String String}
    (h : d.keys ≠ []) : (es.foldl (fun d e => d.set e.1 e.2) d).keys ≠ [] := by
  induction es generalizing d with
  | nil => exact h
  | cons e es ih =>
    refine ih fun hnil => ?_
    have hmem : e.1 ∈ (d.set e.1 e.2).keys := Dict.mem_keys_set.mpr (.inl rfl)
    rw [hnil] at hmem
    cases hmem

theorem stateRichness_mergeFields {e i : ActiveAlarm}
    (h : i.commandId = none ∨ i.commandId = e.commandId) :
    stateRichness e ≤ stateRichness (mergeFields e i) := by
  have hcommand : (mergeFields e i).commandId = e.commandId := by
    show i.commandId.or e.commandId = e.commandId
    rcases h with h | h
    · rw [h, Option.none_or]
    · rw [h, Option.or_self]
  unfold stateRichness
  rw [hcommand]
  refine Nat.add_le_add_left ?_ _
  split
  · rename_i hkeys
    rw [if_pos]
    exact List.length_pos_iff.mpr
      (keys_foldl_set_ne_nil _ (List.length_pos_iff.mp hkeys))
  · exact Nat.zero_le _

theorem upsertAlarm_of_older {e i : ActiveAlarm} (h : i.eventTimeEpochMs < e.eventTimeEpochMs) :
    upsertAlarm e i = e := if_pos h

theorem upsertAlarm_of_not_older {e i : ActiveAlarm}
    (h : ¬ i.eventTimeEpochMs < e.eventTimeEpochMs)
    (hcommand : i.commandId = none ∨ i.commandId = e.commandId) :
    Same (upsertAlarm e i) (mergeFields e i) := by
  unfold upsertAlarm
  rw [if_neg h]
  split
  · dsimp only
    unfold preferRicherState
    rw [if_pos (stateRichness_mergeFields hcommand)]
    exact same_kept e _
  · exact same_kept e _

theorem upsertAlarm_details {e i : ActiveAlarm}
    (hcommand : i.commandId = none ∨ i.commandId = e.commandId) :
    (upsertAlarm e i).toAlarmDetails =
      if i.eventTimeEpochMs < e.eventTimeEpochMs then e.toAlarmDetails else i.toAlarmDetails := by
  split
  · rw [upsertAlarm_of_older ‹_›]
  · exact (upsertAlarm_of_not_older ‹_› hcommand).congr ActiveAlarm.toAlarmDetails fun _ _ => rfl

theorem upsertAlarm_commandId {e i : ActiveAlarm}
    (hcommand : i.commandId = none ∨ i.commandId = e.commandId) :
    (upsertAlarm e i).commandId = e.commandId := by
  by_cases holder : i.eventTimeEpochMs < e.eventTimeEpochMs
  · rw [upsertAlarm_of_older holder]
  · rw [(upsertAlarm_of_not_older holder hcommand).congr ActiveAlarm.commandId fun _ _ => rfl]
    show i.commandId.or e.commandId = e.commandId
    rcases hcommand with h | h
    · rw [h, Option.none_or]
    · rw [h, Option.or_self]

theorem upsertAlarm_twice_details {e i : ActiveAlarm} (hcommand : i.commandId = none) :
    (upsertAlarm e (upsertAlarm e i)).toAlarmDetails = (upsertAlarm e i).toAlarmDetails := by
  have hdetails := upsertAlarm_details (e := e) (.inl hcommand)
  rw [upsertAlarm_details (.inr (upsertAlarm_commandId (.inl hcommand)))]
  split
  · rename_i h
    rw [congrArg AlarmDetails.eventTimeEpochMs hdetails] at h
    split at h
    · exact absurd h (Int.lt_irrefl _)
    · exact absurd h ‹_›
  · rfl

/-! ## Acknowledgement lifecycle -/

def shouldApplyAckLifecycle (currentState : Option String) (incomingState : String) : Bool :=
  !(terminalAck (currentState.getD "") && !terminalAck incomingState)

structure AckTrace where
  commandId : Option String
  correlationId : Option String
  lifecycleId : Option String
  dcsSequenceId : Option String

def orTruthy (s was : Option String) : Option String := if s.getD "" ≠ "" then s else was

/-- `applyAckLifecycleToAlarm`, at the time `now` of the browser. -/
def applyAckLifecycleToAlarm (now : ℤ) (alarm : ActiveAlarm) (lifecycleState : String)
    (timestampEpochMs : Option ℤ) (trace : AckTrace) : ActiveAlarm :=
  if !shouldApplyAckLifecycle alarm.ackLifecycleState lifecycleState then alarm
  else
    let next := { alarm with
      ackLifecycleState := some lifecycleState
      commandId := orTruthy trace.commandId alarm.commandId
      correlationId := orTruthy trace.correlationId alarm.correlationId
      lifecycleId := orTruthy trace.lifecycleId alarm.lifecycleId
      dcsSequenceId := orTruthy trace.dcsSequenceId alarm.dcsSequenceId }
    let next :=
      if lifecycleState = "ACK_REQUESTED" ∨ lifecycleState = "ACK_QUEUED" then
        { next with
          ackRequestedAtEpochMs := some (timestampEpochMs.getD now)
          pendingAckActionId := trace.commandId.or next.pendingAckActionId }
      else next
    if lifecycleState = ACK_CONFIRMED then
      { next with
        acknowledged := true
        ackTimeEpochMs := next.ackTimeEpochMs.or (some (timestampEpochMs.getD now))
        state := if next.conditionActive then "ACKNOWLEDGED_UNCLEARED" else "ACKNOWLEDGED_CLEARED"
        pendingAckActionId := none }
    else if lifecycleState = "ACK_FAILED" ∨ lifecycleState = "ACK_TIMEOUT" then
      { next with pendingAckActionId := none }
    else if pendingAck lifecycleState then { next with acknowledged := false }
    else next

end OpenBridge.AlarmConsole
