import OpenBridge.Foundation.Dict
import OpenBridge.Foundation.Machine

/-!
# Live plane: the Sparkplug publisher

`AlarmMetricPublisher.java` and `MetricAliasRegistry.java`: the main loop publishes births and data,
and the callback of the MQTT client resets what they share, each of them one instruction at a time.
The values, times and qualities of the metrics are left out, with the snapshots and the historian,
whose writes change nothing here.
-/

namespace OpenBridge.LivePlane

open OpenBridge.Foundation

/-! ## Messages -/

inductive MessageKind where
  | nbirth
  | dbirth
  | ddata
  deriving DecidableEq

/-- A metric of a payload: its name, empty in the data of an alarm, its alias, and the metric that
the publisher means. -/
structure SentMetric where
  name : String
  metricAlias : Option ℕ
  meant : String
  deriving DecidableEq

/-- The names of a device in its topic; that of a node's own message is empty. -/
structure DeviceTopic where
  group : String
  edge : String
  device : String
  deriving DecidableEq

structure SparkplugMessage where
  kind : MessageKind
  topic : DeviceTopic
  seq : ℕ
  metrics : List SentMetric
  deriving DecidableEq

structure SparkplugConfig where
  sparkplugGroup : String
  sparkplugEdge : String

/-- A record of one of the three topics; the last is blank or cannot be parsed. -/
inductive ConsumerRecord where
  | alarm (alarmId sourceName : String)
  | metric (group edge : Option String) (device metric : String)
  | loop (loopId metric : String)
  | unprocessable

/-- An instruction of the main loop. -/
inductive Instr where
  /-- `needsNBirth.compareAndSet(true, false)`, and `publishNBirth` when it was set. -/
  | nbirthIfNeeded
  /-- Consumption is paused while the client is not connected. -/
  | pause
  | poll (records : List ConsumerRecord)
  /-- `bornDevices.contains(key)`: a device that was born skips its birth. -/
  | skipIfBorn (key : String) (birth : ℕ)
  /-- A payload with `seq.getAndIncrement()`. -/
  | start (kind : MessageKind) (topic : DeviceTopic)
  /-- A metric is added to the payload, with its name, its alias, or both. -/
  | put (named aliased : Bool) (metric : String)
  | publishMqtt
  | addBorn (key : String)

namespace AlarmMetricPublisher

variable (cfg : SparkplugConfig)

def alarmMetrics : List String :=
  ["alarmId", "severity", "state", "acknowledged", "conditionActive", "priority", "sourceName",
    "conditionName", "message"]

def nodeTopic : DeviceTopic := ⟨cfg.sparkplugGroup, cfg.sparkplugEdge, ""⟩

def publishNBirth : List Instr :=
  [.start .nbirth (nodeTopic cfg), .put true false "bdSeq", .publishMqtt]

def publishDBirth (deviceId : String) : List Instr :=
  .start .dbirth { nodeTopic cfg with device := deviceId } ::
    (alarmMetrics.map (.put true true) ++ [.publishMqtt])

def publishDData (deviceId : String) : List Instr :=
  .start .ddata { nodeTopic cfg with device := deviceId } ::
    (alarmMetrics.map (.put false true) ++ [.publishMqtt])

def ensureProcessDeviceBorn (topic : DeviceTopic) (metric : String) : List Instr :=
  let key := topic.group ++ "/" ++ topic.edge ++ "/" ++ topic.device
  [.skipIfBorn key 4, .start .dbirth topic, .put true false metric, .publishMqtt, .addBorn key]

def publishMetricDData (topic : DeviceTopic) (metric : String) : List Instr :=
  [.start .ddata topic, .put true false metric, .publishMqtt]

/-- `replaceAll("[^a-zA-Z0-9_\\-]", "_")`. -/
def sanitized (s : String) : String :=
  String.ofList (s.toList.map fun c => if c.isAlphanum ∨ c = '_' ∨ c = '-' then c else '_')

/-- The device of an alarm: its source, or the front of its id; `substring` fails on an id that is
too short without its hyphens. -/
def alarmDevice (alarmId sourceName : String) : Option String :=
  if sourceName = "" then
    let stripped := alarmId.toList.filter (· ≠ '-')
    let n := min 8 alarmId.length
    if n ≤ stripped.length then some ("alarm_" ++ String.ofList (stripped.take n)) else none
  else some (sanitized sourceName)

def processRecord (alarmId sourceName : String) : List Instr :=
  if alarmId = "" then []
  else
    match alarmDevice alarmId sourceName with
    | none => []
    | some deviceId =>
        .skipIfBorn deviceId 12 ::
          (publishDBirth cfg deviceId ++ .addBorn deviceId :: publishDData cfg deviceId)

def processMetricRecord (group edge : Option String) (device metric : String) : List Instr :=
  if device = "" ∨ metric = "" then []
  else
    let topic := ⟨group.getD cfg.sparkplugGroup, edge.getD cfg.sparkplugEdge, device⟩
    ensureProcessDeviceBorn topic metric ++ publishMetricDData topic metric

def processLoopMetricRecord (loopId metric : String) : List Instr :=
  if loopId = "" ∨ metric = "" then []
  else
    let topic := { nodeTopic cfg with device := sanitized loopId }
    ensureProcessDeviceBorn topic metric ++ publishMetricDData topic metric

def process : ConsumerRecord → List Instr
  | .alarm alarmId sourceName => processRecord cfg alarmId sourceName
  | .metric group edge device metric => processMetricRecord cfg group edge device metric
  | .loop loopId metric => processLoopMetricRecord cfg loopId metric
  | .unprocessable => []

end AlarmMetricPublisher

/-! ## The publisher and its client -/

/-- An instruction of `connectComplete`. -/
inductive CallbackInstr where
  | resetSeq
  | clearBornDevices
  | clearNameToAlias
  | clearAliasToName
  | resetCounter
  | setNeedsNBirth

/-- The callback, with `MetricAliasRegistry.reset`. -/
def connectComplete : List CallbackInstr :=
  [.resetSeq, .clearBornDevices, .clearNameToAlias, .clearAliasToName, .resetCounter,
    .setNeedsNBirth]

/-- The shared state of the publisher, what is left of the callback and of the main loop, and the
messages of the MQTT session. -/
structure Publisher where
  seq : ℕ
  bornDevices : List String
  nameToAlias : Dict String ℕ
  aliasToName : Dict ℕ String
  counter : ℕ
  needsNBirth : Bool
  connected : Bool
  sent : List SparkplugMessage
  callback : List CallbackInstr
  pausedForMqtt : Bool
  payload : SparkplugMessage
  todo : List Instr
  /-- The records of the batch that are left. -/
  batch : List ConsumerRecord

namespace Publisher

def initial : Publisher where
  seq := 0
  bornDevices := []
  nameToAlias := .empty
  aliasToName := .empty
  counter := 0
  needsNBirth := false
  connected := false
  sent := []
  callback := []
  pausedForMqtt := false
  payload := ⟨.nbirth, ⟨"", "", ""⟩, 0, []⟩
  todo := []
  batch := []

def aliasFor (metric : String) (s : Publisher) : ℕ × Publisher :=
  match s.nameToAlias.get? metric with
  | some a => (a, s)
  | none => (s.counter, { s with
      nameToAlias := s.nameToAlias.set metric s.counter
      aliasToName := s.aliasToName.set s.counter metric
      counter := s.counter + 1 })

def addMetric (named aliased : Bool) (metric : String) (s : Publisher) : Publisher :=
  let name := if named then metric else ""
  if aliased then
    let (a, s) := s.aliasFor metric
    { s with payload := { s.payload with metrics := s.payload.metrics ++ [⟨name, some a, metric⟩] } }
  else
    { s with payload := { s.payload with metrics := s.payload.metrics ++ [⟨name, none, metric⟩] } }

def publishFailed (s : Publisher) : Publisher :=
  if s.payload.kind = .nbirth then s else { s with todo := [], batch := [] }

def execute (cfg : SparkplugConfig) (succeeds : Bool) (s : Publisher) : Instr → Publisher
  | .nbirthIfNeeded =>
      if s.needsNBirth then
        { s with
          needsNBirth := false
          todo := AlarmMetricPublisher.publishNBirth cfg ++ s.todo }
      else s
  | .pause => { s with pausedForMqtt := !s.connected }
  | .poll records => { s with batch := if s.pausedForMqtt then [] else records }
  | .skipIfBorn key birth =>
      if key ∈ s.bornDevices then { s with todo := s.todo.drop birth } else s
  | .start kind topic => { s with seq := s.seq + 1, payload := ⟨kind, topic, s.seq, []⟩ }
  | .put named aliased metric => s.addMetric named aliased metric
  | .publishMqtt =>
      if s.connected ∧ succeeds then { s with sent := s.sent ++ [s.payload] } else s.publishFailed
  | .addBorn key => { s with bornDevices := key :: s.bornDevices }

def runCallback (s : Publisher) : CallbackInstr → Publisher
  | .resetSeq => { s with seq := 0 }
  | .clearBornDevices => { s with bornDevices := [] }
  | .clearNameToAlias => { s with nameToAlias := .empty }
  | .clearAliasToName => { s with aliasToName := .empty }
  | .resetCounter => { s with counter := 0 }
  | .setNeedsNBirth => { s with needsNBirth := true }

inductive Event where
  /-- A new MQTT session; the client calls `connectComplete`. -/
  | connect
  /-- The callback goes on. -/
  | callback
  | disconnect
  /-- The main loop goes round; these are the records to be polled. -/
  | iterate (records : List ConsumerRecord)
  /-- The main loop goes on; a publish of its own succeeds, or does not. -/
  | main (succeeds : Bool)

def advance (cfg : SparkplugConfig) (succeeds : Bool) (s : Publisher) : Publisher :=
  match s.todo with
  | i :: rest => { s with todo := rest }.execute cfg succeeds i
  | [] =>
      match s.batch with
      | r :: rest => { s with todo := AlarmMetricPublisher.process cfg r, batch := rest }
      | [] => s

def step (cfg : SparkplugConfig) (s : Publisher) (e : Event) : Publisher × List Unit :=
  (match e with
    | .connect =>
        if s.connected then s
        else { s with connected := true, sent := [], callback := s.callback ++ connectComplete }
    | .callback =>
        match s.callback with
        | i :: rest => { s with callback := rest }.runCallback i
        | [] => s
    | .disconnect => { s with connected := false }
    | .iterate records =>
        match s.todo, s.batch with
        | [], [] => { s with todo := [.nbirthIfNeeded, .pause, .poll records] }
        | _, _ => s
    | .main succeeds => s.advance cfg succeeds,
    [])

end Publisher

end OpenBridge.LivePlane
