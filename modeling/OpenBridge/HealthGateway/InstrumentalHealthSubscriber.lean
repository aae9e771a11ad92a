import OpenBridge.GateConfig.CanonicalJson
import OpenBridge.HealthGateway.HealthDedupe

/-!
# Health gateway: the topic and the contract of a message

`HealthTopic.TryParse` and `InstrumentalHealthValidator.Validate`: the shape of the topic, and what a
payload must be before the gateway looks at its order.  The evaluation of a schema, the reading of a
time and the formatting of a number are the platform's.
-/

namespace OpenBridge.HealthGateway

open OpenBridge.Foundation
open OpenBridge.InstrumentHealth (JsonObject)

inductive HealthTopicKind where
  | state | events | availability
  deriving DecidableEq

def HealthTopicKind.text : HealthTopicKind → String
  | state => "State"
  | events => "Events"
  | availability => "Availability"

structure HealthTopic where
  kind : HealthTopicKind
  tenantId : String
  siteId : String
  deviceId : Option String
  sourceId : Option String
  deriving DecidableEq

namespace HealthTopic

def expectedMessageKind (t : HealthTopic) : String :=
  match t.kind with
  | .state => "STATE_SNAPSHOT"
  | .events => "STATE_EVENT"
  | .availability => "SOURCE_AVAILABILITY"

/-- The parts of a text between slashes (`Split('/')`). -/
def splitSlash (cs : List Char) : List String := (cs.splitOn '/').map String.ofList

/-- `TryParse`, with the reason why there is no topic. -/
def tryParse (topicPrefix topic : String) : Except String HealthTopic :=
  if ¬ startsWith topic (topicPrefix ++ "/") then
    .error ("topic is outside the prefix '" ++ topicPrefix ++ "'")
  else
    let rest := splitSlash (topic.toList.drop (topicPrefix.length + 1))
    if rest.any (· = "") then
      .error ("expected \x7btenant\x7d/\x7bsite\x7d/devices/\x7bdevice\x7d/(state|events) or " ++
        "\x7btenant\x7d/\x7bsite\x7d/sources/\x7bsource\x7d/availability")
    else
      match rest with
      | [tenant, site, "devices", device, "state"] => .ok ⟨.state, tenant, site, some device, none⟩
      | [tenant, site, "devices", device, "events"] => .ok ⟨.events, tenant, site, some device, none⟩
      | [tenant, site, "sources", source, "availability"] =>
          .ok ⟨.availability, tenant, site, none, some source⟩
      | [_, _, collection, _, leaf] =>
          .error ("unknown topic shape '" ++ collection ++ "/.../" ++ leaf ++ "'")
      | _ =>
          .error ("expected \x7btenant\x7d/\x7bsite\x7d/devices/\x7bdevice\x7d/(state|events) or " ++
            "\x7btenant\x7d/\x7bsite\x7d/sources/\x7bsource\x7d/availability")

end HealthTopic

structure InstrumentalHealthSettings where
  topicPrefix : String
  tenantId : String
  siteId : String
  allowedSourceIds : List String
  maxSkewSeconds : ℕ
  maxMessageBytes : ℕ
  deriving DecidableEq

/-- What `JsonNode.Parse` makes of a payload: a text that is no JSON, with the message of the error,
another value than an object, or an object. -/
inductive ParsedPayload where
  | malformed (message : String)
  | notObject
  | object (o : JsonObject)

structure Payload where
  length : ℕ
  parsed : ParsedPayload

structure Refusal where
  reason : String
  detail : String
  deriving DecidableEq

/-- What the validator takes from the platform: the errors of a schema at a valid version and kind
(`none` when the object meets it), the ticks of a time, and a number without decimals. -/
structure ContractPlatform where
  schemaErrors : String → JsonObject → Option String
  ticks : String → Option ℤ
  formatF0 : Double → String

namespace InstrumentalHealthValidator

variable (platform : ContractPlatform) (settings : InstrumentalHealthSettings)

def skewSeconds (ticks : ℤ) : Double := ((Double.ofInt ticks).div 10000000).abs

def checkIdentity (topic : HealthTopic) (o : JsonObject) : Except Refusal Unit :=
  if str o "tenant_id" ≠ some topic.tenantId ∨ str o "site_id" ≠ some topic.siteId then
    .error ⟨"IDENTITY_MISMATCH", "tenant_id/site_id differ from the topic"⟩
  else if topic.tenantId ≠ settings.tenantId ∨ topic.siteId ≠ settings.siteId then
    .error ⟨"IDENTITY_MISMATCH", "topic scope is not this source's tenant/site"⟩
  else if topic.deviceId.isSome ∧ str o "device_id" ≠ topic.deviceId then
    .error ⟨"IDENTITY_MISMATCH", "device_id differs from the topic"⟩
  else if topic.sourceId.isSome ∧ str o "source_id" ≠ topic.sourceId then
    .error ⟨"IDENTITY_MISMATCH", "source_id differs from the topic"⟩
  else
    let source := (str o "source_id").getD ""
    if settings.allowedSourceIds ≠ [] ∧ source ∉ settings.allowedSourceIds then
      .error ⟨"SOURCE_NOT_ALLOWED",
        "source_id '" ++ source ++ "' is not allow-listed for this data source"⟩
    else .ok ()

/-- The time of publication is near the receipt; a time that cannot be read is not checked. -/
def checkSkew (o : JsonObject) (receivedAt : ℤ) : Except Refusal Unit :=
  match (str o "published_at").bind platform.ticks with
  | none => .ok ()
  | some published =>
      let skew := skewSeconds (receivedAt - published)
      if (Double.ofInt settings.maxSkewSeconds).lt skew then
        .error ⟨"TIMESTAMP_SKEW", "published_at is " ++ platform.formatF0 skew ++
          " s from receipt (max " ++ toString settings.maxSkewSeconds ++ ")"⟩
      else .ok ()

/-- `Validate`: the observation, or why the message is refused. -/
def validate (topic : HealthTopic) (payload : Payload) (receivedAt : ℤ) :
    Except Refusal JsonObject :=
  if settings.maxMessageBytes < payload.length then
    .error ⟨"TOO_LARGE",
      toString payload.length ++ " bytes > " ++ toString settings.maxMessageBytes⟩
  else
    match payload.parsed with
    | .malformed message => .error ⟨"NOT_JSON", message⟩
    | .notObject => .error ⟨"NOT_JSON", "root is not an object"⟩
    | .object o =>
        let version := str o "schema_version"
        if version ≠ some "1.0" then
          .error ⟨"UNSUPPORTED_VERSION", "schema_version '" ++ version.getD "(missing)" ++ "'"⟩
        else
          let kind := str o "message_kind"
          if kind ≠ some topic.expectedMessageKind then
            .error ⟨"KIND_MISMATCH", "message_kind '" ++ kind.getD "(missing)" ++ "' on a " ++
              topic.kind.text ++ " topic"⟩
          else
            match platform.schemaErrors topic.expectedMessageKind o with
            | some errors => .error ⟨"SCHEMA_INVALID", errors⟩
            | none => do
                checkIdentity settings topic o
                checkSkew platform settings o receivedAt
                return o

theorem payload_of_validate {platform : ContractPlatform} {settings : InstrumentalHealthSettings}
    {topic : HealthTopic} {payload : Payload} {receivedAt : ℤ} {o : JsonObject}
    (h : validate platform settings topic payload receivedAt = .ok o) :
    payload.parsed = .object o := by
  rw [validate] at h
  split at h
  · exact absurd h (by simp)
  split at h
  · exact absurd h (by simp)
  · exact absurd h (by simp)
  · rename_i o' hparsed
    rw [hparsed]
    simp only [] at h
    split at h
    · exact absurd h (by simp)
    split at h
    · exact absurd h (by simp)
    split at h
    · exact absurd h (by simp)
    · cases hidentity : checkIdentity settings topic o' with
      | error e => simp [hidentity, bind, Except.bind] at h
      | ok u =>
        cases hskew : checkSkew platform settings o' receivedAt with
        | error e => simp [hidentity, hskew, bind, Except.bind] at h
        | ok u' =>
          simp only [hidentity, hskew, bind, Except.bind, pure, Except.pure, Except.ok.injEq] at h
          rw [h]

end InstrumentalHealthValidator

/-!
# Health gateway: one message

`InstrumentalHealthSubscriber.ProcessOne`: topic, contract, de-duplication, epoch discipline, and
the record that is forwarded.
-/

/-- What the content hash takes from the platform: the text of a key and of a scalar.  A scalar keeps
the value of its literal only. -/
structure ScalarText where
  serialize : String → String
  toJsonString : Json → String

namespace HealthDedupe

variable (scalars : ScalarText)

def sortedMembers (ms : List (String × String)) : String :=
  ",".intercalate ((ms.insertionSort fun a b => GateConfig.CanonicalJson.keyLe a.1 b.1 = true).map
    fun m => scalars.serialize m.1 ++ ":" ++ m.2)

mutual

def canonical : Json → String
  | .null => "null"
  | .object members => "\x7b" ++ sortedMembers scalars (canonicalMembers members) ++ "\x7d"
  | .array items => "[" ++ ",".intercalate (canonicalItems items) ++ "]"
  | .bool b => scalars.toJsonString (.bool b)
  | .number n => scalars.toJsonString (.number n)
  | .text s => scalars.toJsonString (.text s)

def canonicalItems : List Json → List String
  | [] => []
  | j :: rest => canonical j :: canonicalItems rest

def canonicalMembers : List (String × Json) → List (String × String)
  | [] => []
  | (name, j) :: rest => (name, canonical j) :: canonicalMembers rest

end

def canonicalHash (o : JsonObject) : String :=
  GateConfig.CanonicalJson.sha256Hex (canonical scalars (.object o.entries))

end HealthDedupe

structure MqttMessage where
  topic : String
  payload : Payload
  retained : Bool
  receivedAt : ℤ

/-- The record that is forwarded (`Wrap`). -/
structure GatewayRecord where
  receivedAt : ℤ
  topic : String
  kind : HealthTopicKind
  mqttRetained : Bool
  authenticatedProducer : String
  configId : String
  flags : List String
  observation : JsonObject

/-- What `ProcessOne` decides. -/
inductive Outcome where
  | forward (key : String) (record : GatewayRecord)
  | duplicate
  | deadLetter (key : Option String) (refusal : Refusal)

structure InstrumentalHealthSubscriber where
  settings : InstrumentalHealthSettings
  username : String
  configId : String
  dedupe : HealthDedupe
  epochs : EpochTracker

namespace InstrumentalHealthSubscriber

def new (settings : InstrumentalHealthSettings) (username configId : String) (capacity : ℕ) :
    InstrumentalHealthSubscriber :=
  ⟨settings, username, configId, HealthDedupe.new capacity, Dict.empty⟩

structure Platform where
  contract : ContractPlatform
  scalars : ScalarText

variable (platform : Platform) (s : InstrumentalHealthSubscriber)

def admitted (m : MqttMessage) : Except Refusal (HealthTopic × JsonObject) :=
  match HealthTopic.tryParse s.settings.topicPrefix m.topic with
  | .error e => .error ⟨"TOPIC_SHAPE", e⟩
  | .ok topic =>
      (InstrumentalHealthValidator.validate platform.contract s.settings topic m.payload
        m.receivedAt).map fun o => (topic, o)

def wrap (m : MqttMessage) (topic : HealthTopic) (o : JsonObject) (flags : List String) :
    GatewayRecord :=
  { receivedAt := m.receivedAt
    topic := m.topic
    kind := topic.kind
    mqttRetained := m.retained
    authenticatedProducer := s.username
    configId := s.configId
    flags
    observation := o }

def conflict (o : JsonObject) : Refusal :=
  ⟨"INTEGRITY_CONFLICT", "observation " ++ HealthDedupe.key o ++
    " was already received with a different payload"⟩

def parked (reason : Option String) : Refusal :=
  ⟨reason.getD "", "an event/incomplete state for a producer epoch whose complete snapshot has " ++
    "not arrived; replay after the snapshot"⟩

def sequenced (m : MqttMessage) (topic : HealthTopic) (o : JsonObject) :
    InstrumentalHealthSubscriber × Outcome :=
  let seq := s.epochs.check o
  ({ s with epochs := seq.1 },
    match seq.2.action with
    | .park => .deadLetter topic.deviceId (parked seq.2.reason)
    | .flag => .forward (topic.deviceId.getD "") (s.wrap m topic o [seq.2.reason.getD ""])
    | .accept => .forward (topic.deviceId.getD "") (s.wrap m topic o []))

def disciplined (m : MqttMessage) (topic : HealthTopic) (o : JsonObject) :
    InstrumentalHealthSubscriber × Outcome :=
  let checked := s.dedupe.check (HealthDedupe.key o)
    (HealthDedupe.canonicalHash platform.scalars o)
  let s := { s with dedupe := checked.1 }
  match checked.2 with
  | .duplicate => (s, .duplicate)
  | .conflict => (s, .deadLetter topic.deviceId (conflict o))
  | .new => s.sequenced m topic o

def processOne (m : MqttMessage) : InstrumentalHealthSubscriber × Outcome :=
  match s.admitted platform m with
  | .error refusal => (s, .deadLetter none refusal)
  | .ok (topic, o) =>
      if topic.kind = .availability then
        (s, .forward (topic.sourceId.getD "") (s.wrap m topic o []))
      else s.disciplined platform m topic o

end InstrumentalHealthSubscriber

end OpenBridge.HealthGateway
