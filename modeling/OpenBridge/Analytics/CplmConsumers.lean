import OpenBridge.Foundation.Json
import OpenBridge.Foundation.Machine

/-!
# Analytics: the consumers of the performance results

`CplmResultConsumerService`, `CplmEventFrameService`, `CplmConditionConsumerService` and
`CplmConfigAckConsumerService`.  Their loops are one: a record is polled and handled, and its offset
is stored unless the handling throws; the client commits the stored offsets from time to time.

A partition is consumed by one process at a time.  `records` says what is stored at each offset:
`none` where a partition has no record there.
-/

namespace OpenBridge.Analytics

open OpenBridge.Foundation

/-- What the handlers take from the libraries: `JsonDocument.Parse` (`none` for a `JsonException`)
and `Guid.TryParse`. -/
structure Reader where
  parse : String → Option Json
  tryParseGuid : String → Bool

inductive Handling
  /-- It returns: the record is blank, unparsable, or none of the consumer's. -/
  | skips
  /-- It writes to the database. -/
  | applies
  /-- It throws, whatever the database answers. -/
  | throws
  deriving DecidableEq

/-! ## Reading a record -/

def isNullOrWhiteSpace (s : Option String) : Bool := s.all fun t => t.toList.all isWhiteSpace

/-- `GetString`, `Str` and `S` on an object. -/
def getString (root : Json) (name : String) : Option String :=
  match root.get name with
  | some (.text s) => some s
  | _ => none

/-- The largest argument of `FromUnixTimeMilliseconds`. -/
def maxUnixMs : ℤ := 253402300799999

def int64? (root : Json) (name : String) : Option ℤ :=
  match root.get name with
  | some (.number n) => n.tryGetInt64
  | _ => none

/-- `TryGetInt32`. -/
def int32? (n : JsonNumber) : Option ℤ :=
  n.tryGetInt64.filter fun v => -2 ^ 31 ≤ v ∧ v < 2 ^ 31

/-- The member is there and is no number, so that `TryGetInt64` throws. -/
def isNoNumber (root : Json) (name : String) : Bool := (root.get name).any fun j => !j.isNumber

/-- `FromUnixTimeMilliseconds` throws for the time of a member. -/
def isOutOfRange (root : Json) (name : String) : Bool :=
  (int64? root name).any fun ms => maxUnixMs < ms

def loopIdOf (root : Json) : Option String :=
  (getString root "loop_id").or (getString root "tagId")

/-! ## The handlers -/

/-- The topics of `CplmResultConsumerService`. -/
inductive ResultTopic
  | gateResults
  | shortFeatures
  | longFeatures
  | other
  deriving DecidableEq

def hasUsableWindowEnd (root : Json) : Bool := (int64? root "windowEndMs").any fun ms => 0 < ms

/-- The checks that `PersistGateAsync` and `PersistFeatureAsync` share. -/
def persist (root : Json) : Handling :=
  if !root.isObject then .throws
  else if isNullOrWhiteSpace (loopIdOf root) then .skips
  else if !hasUsableWindowEnd root then .skips
  -- `AddTimestamp`
  else if isOutOfRange root "windowStartMs" || isOutOfRange root "windowEndMs" then .throws
  else .applies

def persistGateAsync (root : Json) : Handling := persist root

/-- `PersistFeatureAsync`, for both kinds. -/
def persistFeatureAsync (root : Json) : Handling := persist root

/-- `ParseVerdict` and `ApplyAsync` of the event frames. -/
def applyFrame (root : Json) : Handling :=
  if !root.isObject then .throws
  else if isNullOrWhiteSpace (loopIdOf root) then .skips
  -- recomputed history must not rewrite the operational timeline
  else if !isNullOrWhiteSpace (getString root "calculation_source") &&
      getString root "calculation_source" != some "flink" then .skips
  else if !isNullOrWhiteSpace (getString root "purpose") &&
      getString root "purpose" != some "LIVE" then .skips
  else if isNoNumber root "windowEndMs" || isOutOfRange root "windowEndMs" then .throws
  else if isNoNumber root "windowStartMs" || isOutOfRange root "windowStartMs" then .throws
  else .applies

/-- `ConditionEventStore.Parse` and `ApplyAsync` of the conditions. -/
def applyCondition (root : Json) : Handling :=
  if !root.isObject then .skips
  else if getString root "eventType" != some "CPLM_CONDITION" then .skips
  else if isNullOrWhiteSpace (getString root "loop_id") ||
      isNullOrWhiteSpace (getString root "gate") || isNullOrWhiteSpace (getString root "kind") ||
      isNullOrWhiteSpace (getString root "state") then .skips
  else if isNoNumber root "start_ms" then .throws
  else if (int64? root "start_ms").isNone then .skips
  else .applies

/-- `k.GetString()` of the record kind: `none` when it throws. -/
def recordKind (root : Json) : Option (Option String) :=
  match root.get "record_kind" with
  | none => some none
  | some .null => some none
  | some (.text s) => some (some s)
  | some _ => none

/-- The capability of a worker: `GetProperty` and `GetString` of the job's name, `GetInt64` of the
time. -/
def applyCapability (root : Json) : Handling :=
  match root.get "job_name" with
  | some .null | some (.text _) =>
      match root.get "emitted_at_ms" with
      | some (.number n) => if n.tryGetInt64.isNone then .throws else .applies
      | _ => .applies
  | _ => .throws

/-- The acknowledgement of a worker: `GetInt32` of its subtask. -/
def applyAck (reader : Reader) (root : Json) : Handling :=
  if !(getString root "deployment_id").any reader.tryParseGuid then .skips
  else
    match root.get "subtask_index" with
    | some (.number n) => if (int32? n).isNone then .throws else .applies
    | _ => .applies

/-- `ApplyAsync` of the configuration acknowledgements. -/
def applyConfigAck (reader : Reader) (root : Json) : Handling :=
  if !root.isObject then .throws
  else
    match recordKind root with
    | none => .throws
    | some kind =>
        if kind = some "CAPABILITY" then applyCapability root
        else if kind = some "ACK" ∨ kind = some "NACK" then applyAck reader root
        else .skips

inductive CplmConsumer (π : Type)
  | results (topicOf : π → ResultTopic)
  | frames
  | conditions
  | configAcks

def CplmConsumer.apply {π : Type} (reader : Reader) (p : π) (root : Json) :
    CplmConsumer π → Handling
  | .results topicOf =>
      match topicOf p with
      | .gateResults => persistGateAsync root
      | .shortFeatures => persistFeatureAsync root
      | .longFeatures => persistFeatureAsync root
      | .other => .skips
  | .frames => applyFrame root
  | .conditions => applyCondition root
  | .configAcks => applyConfigAck reader root

def CplmConsumer.handling {π : Type} (reader : Reader) (consumer : CplmConsumer π) (p : π)
    (value : Option String) : Handling :=
  if isNullOrWhiteSpace value then .skips
  else
    match value.bind reader.parse with
    | none => .skips
    | some root => consumer.apply reader p root

/-! ## The loop -/

inductive ApplyOutcome
  /-- The transaction is committed. -/
  | applied
  /-- The transaction is committed, and something throws after it. -/
  | appliedThenThrew
  /-- It throws, and nothing is committed. -/
  | failed
  deriving DecidableEq

/-- What happens to a consumer. -/
inductive LoopEvent (π : Type)
  /-- A partition is assigned. -/
  | assigned (p : π)
  /-- Partitions are revoked, or their process ends. -/
  | revoked (ps : List π)
  /-- `Consume` returns the record at an offset, which is handled. -/
  | consumed (p : π) (offset : ℕ) (outcome : ApplyOutcome)
  /-- `Consume` returns no record, or throws. -/
  | idle
  /-- The client commits the offset stored for a partition. -/
  | committed (p : π)
  deriving DecidableEq

/-- The committed offsets, those that are polled next and those stored to be committed, and the
offsets applied in each partition, the last one last.  The last field is none of the code's: a record
of the partition was not applied since it was assigned. -/
structure ConsumerLoop (π : Type) where
  committed : π → ℕ
  position : π → Option ℕ
  stored : π → Option ℕ
  applied : π → List ℕ
  failed : π → Bool

namespace ConsumerLoop

variable {π : Type}

def start : ConsumerLoop π :=
  ⟨fun _ => 0, fun _ => none, fun _ => none, fun _ => [], fun _ => false⟩

/-- The record at the offset is the next one at or after the position. -/
def Next (records : π → ℕ → Option (Option String)) (s : ConsumerLoop π) (p : π)
    (offset : ℕ) : Prop :=
  ∃ n, s.position p = some n ∧ n ≤ offset ∧ ∀ m < offset, n ≤ m → records p m = none

instance (records : π → ℕ → Option (Option String)) (s : ConsumerLoop π) (p : π) (offset : ℕ) :
    Decidable (s.Next records p offset) :=
  match h : s.position p with
  | none => .isFalse fun ⟨_, hn, _⟩ => Option.some_ne_none _ (hn.symm.trans h)
  | some n =>
      decidable_of_iff (n ≤ offset ∧ ∀ m < offset, n ≤ m → records p m = none)
        ⟨fun hn => ⟨n, h, hn⟩, fun ⟨m, hm, hn⟩ => by
          obtain rfl : m = n := Option.some.inj (hm.symm.trans h)
          exact hn⟩

variable [DecidableEq π] (reader : Reader) (consumer : CplmConsumer π)
  (records : π → ℕ → Option (Option String))

def storeOffset (s : ConsumerLoop π) (p : π) (offset : ℕ) : ConsumerLoop π :=
  { s with stored := Function.update s.stored p (some (offset + 1)) }

def apply (s : ConsumerLoop π) (p : π) (offset : ℕ) : ConsumerLoop π :=
  { s with applied := Function.update s.applied p (s.applied p ++ [offset]) }

/-- The body of the loop for a polled record; an exception is logged, and the loop goes on. -/
def handle (s : ConsumerLoop π) (p : π) (offset : ℕ) (outcome : ApplyOutcome) :
    Handling → ConsumerLoop π
  | .skips => s.storeOffset p offset
  | .throws => s
  | .applies =>
      match outcome with
      | .applied => (s.apply p offset).storeOffset p offset
      | .appliedThenThrew => s.apply p offset
      | .failed => { s with failed := Function.update s.failed p true }

/-- One event. -/
def step (s : ConsumerLoop π) : LoopEvent π → ConsumerLoop π × List Empty
  | .assigned p =>
      ({ s with
          position := Function.update s.position p (some (s.committed p))
          stored := Function.update s.stored p none
          failed := Function.update s.failed p false }, [])
  | .revoked ps =>
      ({ s with
          position := fun p => if p ∈ ps then none else s.position p
          stored := fun p => if p ∈ ps then none else s.stored p }, [])
  | .consumed p offset outcome =>
      match records p offset with
      | none => (s, [])
      | some value =>
          if s.Next records p offset then
            (handle { s with position := Function.update s.position p (some (offset + 1)) } p offset
              outcome (consumer.handling reader p value), [])
          else (s, [])
  | .idle => (s, [])
  | .committed p =>
      ({ s with committed := Function.update s.committed p ((s.stored p).getD (s.committed p)) },
        [])

def after (events : List (LoopEvent π)) : ConsumerLoop π :=
  Machine.stateAfter (step reader consumer records) start events

end ConsumerLoop

end OpenBridge.Analytics
