import OpenBridge.Alarms.AlarmReload
import OpenBridge.Foundation.KeyText
import OpenBridge.Foundation.UnitOfWork

/-!
# Alarms: keys and identifiers of an alarm in both tiers

`AlarmPartitionKeys` of the services and `AlarmKeys` of the stream jobs.  The services put a version
in front and trim the parts, and lay the digest out in another byte order: the two keys of an alarm
never agree.

`md5` is the digest of a sequence of bytes, sixteen bytes long; `tryParse` is `Guid.TryParse`.
-/

namespace OpenBridge.Alarms

open OpenBridge.Foundation

structure AlarmName where
  server : String
  source : String
  condition : String
  subCondition : Option String
  deriving DecidableEq

def ofBigEndian (bytes : List ℕ) : ℕ := bytes.foldl (fun n b => 256 * n + b) 0

def guidOfBytes (bytes : List ℕ) : Guid := Fin.ofNat _ (ofBigEndian bytes)

/-! ## The services -/

namespace AlarmPartitionKeys

def V1Prefix : String := "v1|"

/-- `Normalize`: a blank part is empty. -/
def normalize (s : Option String) : String :=
  match s with
  | none => ""
  | some s => if s.toList.all isWhiteSpace then "" else trim s

/-- `AlarmInstanceKeyV1`, and `AlarmInstanceKey`, which is that. -/
def alarmInstanceKey (serverId : Guid) (sourceName conditionName : String)
    (subConditionName : Option String) : String :=
  V1Prefix ++ serverId.text ++ "|" ++ normalize (some sourceName) ++ "|" ++
    normalize (some conditionName) ++ "|" ++ normalize subConditionName

def stamped (hash : List ℕ) : List ℕ :=
  (hash.set 6 ((hash.getD 6 0 &&& 0x0F) ||| 0x30)).set 8 ((hash.getD 8 0 &&& 0x3F) ||| 0x80)

/-- `new Guid(bytes)`: the first three groups are read with their lowest byte first. -/
def newGuid (bytes : List ℕ) : Guid :=
  guidOfBytes ((bytes.take 4).reverse ++ ((bytes.drop 4).take 2).reverse ++
    ((bytes.drop 6).take 2).reverse ++ bytes.drop 8)

def deterministicAlarmId (md5 : List ℕ → List ℕ) (instanceKey : String) : Guid :=
  newGuid (stamped (md5 (Sha256.utf8 instanceKey)))

end AlarmPartitionKeys

/-! ## The stream jobs -/

namespace AlarmKeys

def alarmKey (serverId source condition : String) (subCondition : Option String) : String :=
  serverId ++ "|" ++ source ++ "|" ++ condition ++ "|" ++ subCondition.getD ""

/-- `stableAlarmId`: the digest as it is, highest byte first. -/
def stableAlarmId (md5 : List ℕ → List ℕ) (alarmKey : String) : String :=
  (guidOfBytes (md5 (Sha256.utf8 alarmKey))).text

end AlarmKeys

namespace AlarmName

def instanceKey (tryParse : String → Option Guid) (a : AlarmName) : Option String :=
  (tryParse a.server).map fun serverId =>
    AlarmPartitionKeys.alarmInstanceKey serverId a.source a.condition a.subCondition

def streamKey (a : AlarmName) : String :=
  AlarmKeys.alarmKey a.server a.source a.condition a.subCondition

/-- Both tiers have the same key and the same identifier for an alarm. -/
def SameEverywhere (md5 : List ℕ → List ℕ) (tryParse : String → Option Guid) (a : AlarmName) :
    Prop :=
  ∃ key, a.instanceKey tryParse = some key ∧ key = a.streamKey ∧
    (AlarmPartitionKeys.deterministicAlarmId md5 key).text =
      AlarmKeys.stableAlarmId md5 a.streamKey

/-! ## The keys differ -/

theorem head?_instanceKey {tryParse : String → Option Guid} {a : AlarmName} {key : String}
    (h : a.instanceKey tryParse = some key) : key.toList.head? = some 'v' := by
  obtain ⟨serverId, -, rfl⟩ := Option.map_eq_some_iff.mp h
  simp [AlarmPartitionKeys.alarmInstanceKey, AlarmPartitionKeys.V1Prefix]

theorem head?_streamKey (a : AlarmName) :
    a.streamKey.toList.head? = some (a.server.toList.headD '|') := by
  cases h : a.server.toList with
  | nil => simp [streamKey, AlarmKeys.alarmKey, h]
  | cons c rest => simp [streamKey, AlarmKeys.alarmKey, h]

/-- No alarm has the same key in both tiers.  A text that `Guid.TryParse` reads has no letter `v`:
it has hexadecimal digits, hyphens, brackets, commas, the letter `x` and white space only. -/
theorem not_sameEverywhere (md5 : List ℕ → List ℕ) (tryParse : String → Option Guid)
    (hparse : ∀ s serverId, tryParse s = some serverId → 'v' ∉ s.toList) (a : AlarmName) :
    ¬ a.SameEverywhere md5 tryParse := by
  rintro ⟨key, hkey, rfl, -⟩
  obtain ⟨serverId, hserver, -⟩ := Option.map_eq_some_iff.mp hkey
  have hhead := head?_instanceKey hkey
  rw [head?_streamKey, Option.some_inj] at hhead
  cases hs : a.server.toList with
  | nil => simp [hs] at hhead
  | cons c rest =>
    rw [hs, List.headD_cons] at hhead
    exact hparse _ _ hserver (by simp [hs, hhead])

def levelHigh : AlarmName where
  server := "7ce5ecbf-70c9-498d-b899-5c8bb7add383"
  source := "LIC-101"
  condition := "HI"
  subCondition := none

/-- `Guid.TryParse` of the server's text. -/
def parseServer (s : String) : Option Guid :=
  if s = levelHigh.server then some 0x7ce5ecbf70c9498db8995c8bb7add383 else none

theorem not_sameEverywhere_levelHigh : ¬ levelHigh.SameEverywhere (fun _ => []) parseServer :=
  not_sameEverywhere (fun _ => []) parseServer
    (by
      intro s serverId h
      unfold parseServer at h
      split at h
      · rename_i hs
        rw [hs]
        decide
      · cases h)
    levelHigh

/-- An alarm and another one whose parts are cut at another bar. -/
theorem keys_disagree :
    levelHigh.instanceKey parseServer =
      some "v1|7ce5ecbf-70c9-498d-b899-5c8bb7add383|LIC-101|HI|" ∧
    levelHigh.instanceKey parseServer ≠ some levelHigh.streamKey ∧
    ({ levelHigh with source := "LIC-101|HI" } : AlarmName) ≠
      { levelHigh with condition := "HI|HI" } ∧
    ({ levelHigh with source := "LIC-101|HI" } : AlarmName).streamKey =
      ({ levelHigh with condition := "HI|HI" } : AlarmName).streamKey := by
  decide

end AlarmName

/-!
# Alarms: what a normalized event does to the projection

`NormalizedAlarmIngestor.ProcessAsync`.

The category, the quality and the process values of an alarm are left out, with what is published.
A feed and a source event id are the texts of the attributes with these names.
-/

/-- A value of `OpcAttributes`. -/
inductive OpcAttribute where
  | text (s : String)
  | number (n : ℤ)
  | flag (b : Bool)
  deriving DecidableEq

/-- A row of the projection: the alarm, with the attributes of the OPC server. -/
structure AlarmRow extends ActiveAlarm where
  opcAttributes : Dict String OpcAttribute

namespace AlarmRow

/-- The row that is loaded where `r` was stored. -/
def reload (tryParse : String → Option AlarmState) (r : AlarmRow) : AlarmRow :=
  { r with toActiveAlarm := r.toActiveAlarm.reload tryParse }

/-- What `MergeOpcAttributes` is told. -/
structure OpcUpdate where
  activeTimeEpochMs : Option ℤ
  cookieOffset : Option ℤ
  alarmEventKind : Option String
  opcAckWriteable : Option Bool
  feed : Option String
  ackPath : Option String
  sourceEventId : Option String

def setOpc (d : Dict String OpcAttribute) (name : String) (value : Option OpcAttribute) :
    Dict String OpcAttribute :=
  match value with
  | none => d
  | some v => d.set name v

def nonEmpty (s : Option String) : Option String := s.filter (· ≠ "")

def mergeOpcAttributes (r : AlarmRow) (u : OpcUpdate) : AlarmRow :=
  let d := r.opcAttributes
  let d := setOpc d "activeTimeEpochMs" (u.activeTimeEpochMs.map .number)
  let d := setOpc d "cookieOffset" ((u.cookieOffset.filter (0 < ·)).map .number)
  let d := setOpc d "alarmEventKind" ((nonEmpty u.alarmEventKind).map .text)
  let d := setOpc d "opcAckWriteable" (u.opcAckWriteable.map .flag)
  let d := setOpc d "feed" ((nonEmpty u.feed).map .text)
  let d := setOpc d "ackPath" ((nonEmpty u.ackPath).map .text)
  let d := setOpc d "sourceEventId"
    ((u.sourceEventId.filter fun s => ¬ isWhiteSpaceOnly s).map fun s => .text (trim s))
  { r with opcAttributes := d }

/-- `SyncOpcActiveTime`, with the time in milliseconds and as it is stored. -/
def syncOpcActiveTime (r : AlarmRow) (activeTime activeTimeEpochMs : ℤ) : AlarmRow :=
  ({ r with toActiveAlarm := r.toActiveAlarm.syncOpcActiveTime activeTime }).mergeOpcAttributes
    { activeTimeEpochMs := some activeTimeEpochMs, cookieOffset := none, alarmEventKind := none,
      opcAckWriteable := none, feed := none, ackPath := none, sourceEventId := none }

/-- `TryGetStoredCookie`: a number of 32 bits, or the text of one. -/
def storedCookie (r : AlarmRow) : ℤ :=
  let cookie : Option ℤ :=
    match r.opcAttributes.get? "cookieOffset" with
    | some (.number n) => some n
    | some (.text s) => tryInteger (trim s)
    | _ => none
  (cookie.filter fun n => -2 ^ 31 ≤ n ∧ n < 2 ^ 31).getD 0

end AlarmRow

structure NormalizedAlarmEvent where
  eventType : String
  commandId : Option String
  correlationId : Option String
  lifecycleId : Option String
  dcsSequenceId : Option String
  alarmId : Option String
  serverId : String
  sourceName : String
  conditionName : Option String
  subConditionName : Option String
  message : Option String
  severity : ℤ
  priority : String
  alarmEventKind : String
  conditionActive : Bool
  acknowledged : Bool
  eventTimeEpochMs : ℤ
  activeTimeEpochMs : ℤ
  cookieOffset : ℤ
  feed : Option String
  sourceEventId : Option String
  ackLifecycleState : Option String
  pendingAckActionId : Option String
  ackRequestedAtEpochMs : Option ℤ
  deriving DecidableEq

namespace NormalizedAlarmIngestor

/-- What the runtime and the libraries give: `Guid.TryParse`, MD5, the upper case that texts are
compared in when case is ignored, and `Enum.TryParse` of a state. -/
structure Runtime where
  tryParseGuid : String → Option Guid
  md5 : List ℕ → List ℕ
  upper : Char → Char
  tryParseState : String → Option AlarmState

/-- `FromUnixTimeMilliseconds`: throws (`none`) beyond the years 1 to 9999. -/
def fromUnixTimeMilliseconds (ms : ℤ) : Option ℤ :=
  if -62135596800000 ≤ ms ∧ ms ≤ 253402300799999 then some (621355968000000000 + ms * 10000)
  else none

def isBlank (s : Option String) : Bool := s.all isWhiteSpaceOnly

def parsePriority (p : String) : AlarmPriority :=
  match toUpperInvariant p with
  | "CRITICAL" => .critical
  | "HIGH" => .high
  | "MEDIUM" => .medium
  | "LOW" => .low
  | "DIAGNOSTIC" => .diagnostic
  | _ => .low

variable (rt : Runtime)

/-- `StringComparison.OrdinalIgnoreCase`. -/
def sameText (s t : String) : Bool := s.toList.map rt.upper = t.toList.map rt.upper

def sameOptional (s t : Option String) : Bool :=
  match s, t with
  | none, none => true
  | some s, some t => sameText rt s t
  | _, _ => false

def startsWithText (s start : String) : Bool :=
  start.toList.map rt.upper <+: s.toList.map rt.upper

def afterLast (marker : List Char) : List Char → Option (List Char)
  | [] => none
  | c :: rest =>
      afterLast marker rest <|>
        if marker.map rt.upper <+: (c :: rest).map rt.upper then
          some ((c :: rest).drop marker.length)
        else none

def resolveSourceName (evt : NormalizedAlarmEvent) : String :=
  if isWhiteSpaceOnly evt.sourceName ∧ ¬ isBlank evt.message then
    match afterLast rt " on ".toList (evt.message.getD "").toList with
    | some rest => trim (String.ofList rest)
    | none => evt.sourceName
  else evt.sourceName

def matchesIngestEvent (alarm : AlarmRow) (evt : NormalizedAlarmEvent) : Bool :=
  sameOptional rt alarm.conditionName evt.conditionName ∧
    (isBlank evt.subConditionName ∨ sameOptional rt alarm.subConditionName evt.subConditionName)

def isHttpFeedEvent (evt : NormalizedAlarmEvent) : Bool :=
  evt.feed.any (sameText rt · "http-current-alarms")

def isOpcAckWriteable (evt : NormalizedAlarmEvent) (cookie : ℤ) : Bool :=
  if isHttpFeedEvent rt evt then evt.conditionActive ∧ ¬ isBlank evt.conditionName
  else
    0 < cookie ∧ evt.conditionActive ∧ ¬ isBlank evt.conditionName ∧
      sameText rt evt.alarmEventKind "CONDITION" ∧
      ¬ startsWithText rt evt.sourceName "Tracking" ∧ ¬ startsWithText rt evt.sourceName "System"

def isOperatorAckProjection (evt : NormalizedAlarmEvent) : Bool :=
  (AlarmRow.nonEmpty evt.commandId).isSome ∨ (AlarmRow.nonEmpty evt.pendingAckActionId).isSome

def isAckStateUpdate (evt : NormalizedAlarmEvent) : Bool := sameText rt evt.eventType "ACK_STATE_UPDATE"

def ackProjection (evt : NormalizedAlarmEvent) : Option String :=
  if isOperatorAckProjection evt then AlarmRow.nonEmpty evt.ackLifecycleState else none

/-- What `ApplyAckLifecycle` is told of an event. -/
def ackDetails (evt : NormalizedAlarmEvent) : ActiveAlarm.AckDetails where
  commandId := evt.commandId <|> evt.pendingAckActionId
  requestedAtEpochMs := evt.ackRequestedAtEpochMs
  detail := none
  correlationId := evt.correlationId
  lifecycleId := evt.lifecycleId
  dcsSequenceId := evt.dcsSequenceId

def resolveAlarmIdentity (evt : NormalizedAlarmEvent) (serverId : Guid) : Guid × String :=
  let instanceKey := AlarmPartitionKeys.alarmInstanceKey serverId evt.sourceName
    (evt.conditionName.getD "") evt.subConditionName
  let key := if isBlank evt.alarmId then instanceKey else evt.alarmId.getD ""
  let given := if isBlank evt.alarmId then none else rt.tryParseGuid key
  (given.getD (AlarmPartitionKeys.deterministicAlarmId rt.md5 key), key)

/-- The times of an event in ticks, and the clock when it is handled. -/
structure Times where
  eventTime : ℤ
  activeTime : ℤ
  now : ℤ

variable (evt : NormalizedAlarmEvent) (times : Times)

def applyOpcTiming (alarm : AlarmRow) : AlarmRow :=
  let cookie := if evt.cookieOffset ≠ 0 then evt.cookieOffset else alarm.storedCookie
  let merged := alarm.mergeOpcAttributes
    { activeTimeEpochMs := if evt.conditionActive then some evt.activeTimeEpochMs else none
      cookieOffset := if 0 < cookie then some cookie else none
      alarmEventKind := some evt.alarmEventKind
      opcAckWriteable := some (isOpcAckWriteable rt evt cookie)
      feed := if isHttpFeedEvent rt evt then some "http-current-alarms" else none
      ackPath := if isHttpFeedEvent rt evt then some "http" else none
      sourceEventId := evt.sourceEventId }
  if evt.conditionActive then merged.syncOpcActiveTime times.activeTime evt.activeTimeEpochMs
  else merged

def reconciled (alarm : AlarmRow) : AlarmRow :=
  { alarm with
    toActiveAlarm := alarm.toActiveAlarm.reconcileAcknowledgement times.eventTime none none
    opcAttributes := alarm.opcAttributes.set "ackSource" (.text "External OPC Client") }

def reconciledRow (alarm : AlarmRow) : AlarmRow :=
  reconciled times (alarm.mergeOpcAttributes
    { activeTimeEpochMs := none, cookieOffset := none, alarmEventKind := none,
      opcAckWriteable := some false, feed := none, ackPath := none,
      sourceEventId := evt.sourceEventId })

/-- `ApplyConditionChange` of the event. -/
def applyConditionChange (alarm : AlarmRow) : AlarmRow :=
  { alarm with
    toActiveAlarm := (alarm.toActiveAlarm.applyConditionChange evt.conditionActive evt.message
      evt.severity times.eventTime).1 }

def updateMatch (alarm : AlarmRow) : AlarmRow × Bool :=
  let alarm := applyOpcTiming rt evt times alarm
  match ackProjection evt with
  | some state =>
      -- only the acknowledgement, never the condition
      ({ alarm with
         toActiveAlarm := alarm.toActiveAlarm.applyAckLifecycle state (ackDetails evt) times.now },
       false)
  | none =>
      if isAckStateUpdate rt evt then (alarm, false)
      else if evt.acknowledged ∧ ¬ alarm.acknowledged then
        (applyConditionChange evt times (reconciledRow evt times alarm), ¬ evt.conditionActive)
      else if evt.acknowledged then
        (applyConditionChange evt times alarm, ¬ evt.conditionActive)
      else
        (applyConditionChange evt times
          { alarm with toActiveAlarm := alarm.toActiveAlarm.clearOpcInferredAcknowledgement },
         ¬ evt.conditionActive)

/-- `PropagateCookieToSiblingRows`, for a row. -/
def propagateCookie (alarm : AlarmRow) : AlarmRow :=
  if evt.cookieOffset ≤ 0 ∨ 0 < alarm.storedCookie ∨ ¬ alarm.conditionActive ∨
      ¬ sameText rt alarm.sourceName evt.sourceName then alarm
  else applyOpcTiming rt evt times alarm

def change (alarm : AlarmRow) : AlarmRow × Bool :=
  let updated := if matchesIngestEvent rt alarm evt then updateMatch rt evt times alarm
    else (alarm, false)
  (if isAckStateUpdate rt evt then updated.1 else propagateCookie rt evt times updated.1, updated.2)

def newAlarm (serverId : Guid) (sourceName : String) : Except String (Guid × AlarmRow) :=
  let identity := resolveAlarmIdentity rt evt serverId
  (ActiveAlarm.createFromOpcEvent identity.1
    { serverId := serverId, sourceName := sourceName, conditionName := evt.conditionName,
      subConditionName := evt.subConditionName, message := evt.message, severity := evt.severity,
      priority := parsePriority evt.priority, conditionActive := true,
      eventTime := times.eventTime, activeTime := times.activeTime }).map fun created =>
    let alarm := match ackProjection evt with
      | some state => created.1.applyAckLifecycle state (ackDetails evt) times.now
      | none => created.1
    let alarm := alarm.setAlarmIdentity identity.1 identity.2
    let row := applyOpcTiming rt evt times { toActiveAlarm := alarm, opcAttributes := Dict.empty }
    (identity.1, if evt.acknowledged ∧ ¬ row.acknowledged then reconciled times row else row)

def selects (serverId : Guid) (sourceName : String) (alarm : AlarmRow) : Bool :=
  alarm.serverId = serverId ∧ alarm.sourceName = sourceName

def skipped : UnitOfWork.Command Guid AlarmRow where
  selects _ := false
  finds _ := false
  change alarm := (alarm, false)
  create := .ok none

/-- `HandleDeleteAsync`. -/
def handleDelete (serverId : Guid) : UnitOfWork.Request Guid AlarmRow :=
  if isWhiteSpaceOnly evt.sourceName then .ok skipped
  else
    match fromUnixTimeMilliseconds evt.eventTimeEpochMs with
    | none => .error "The time is out of range"
    | some _ =>
        .ok
          { selects := selects serverId evt.sourceName
            finds := fun alarm => matchesIngestEvent rt alarm evt
            change := fun alarm => (alarm, matchesIngestEvent rt alarm evt)
            create := .ok none }

/-- `ProcessAsync`, with the clock when the event is handled. -/
def processAsync (now : ℤ) : UnitOfWork.Request Guid AlarmRow :=
  match rt.tryParseGuid evt.serverId with
  | none => .ok skipped
  | some serverId =>
      if sameText rt evt.eventType "ALARM_STATE_DELETE" then handleDelete rt evt serverId
      else
        let sourceName := resolveSourceName rt evt
        if isWhiteSpaceOnly sourceName then .ok skipped
        else
          match fromUnixTimeMilliseconds evt.eventTimeEpochMs,
            fromUnixTimeMilliseconds evt.activeTimeEpochMs with
          | some eventTime, some activeTime =>
              let times := { eventTime := eventTime, activeTime := activeTime, now := now }
              .ok
                { selects := selects serverId sourceName
                  finds := fun alarm => matchesIngestEvent rt alarm evt
                  change := change rt evt times
                  create :=
                    if evt.conditionActive ∧ ¬ isAckStateUpdate rt evt then
                      (newAlarm rt evt times serverId sourceName).map some
                    else .ok none }
          | _, _ => .error "The time is out of range"

end NormalizedAlarmIngestor

end OpenBridge.Alarms
