import OpenBridge.Foundation.Machine

/-!
# Alarms: the consumer of the projected alarms

`NormalizedAlarmConsumerService`: the loop that polls `current-alarm-state`, the batch that is
persisted and then committed, the dead-letter topic and the handler of revoked partitions.  Any
number of consumers share the partitions and the committed offsets; a run is any interleaving of
their steps, with a crash possible between any two.

`records` says what is stored at each offset: `none` where a partition has no record there.
-/

namespace OpenBridge.Alarms

open OpenBridge.Foundation

/-- What `NormalizedAlarmEventJson.Parse` makes of a record. -/
inductive Parsed
  /-- An event. -/
  | event
  /-- `null`: the value is blank, or JSON `null`. -/
  | null
  /-- A `JsonException`. -/
  | unparsable
  /-- Any other exception. -/
  | failed
  deriving DecidableEq

structure RecordId (π : Type) where
  /-- The partition. -/
  partition : π
  /-- The offset in it. -/
  offset : ℕ
  deriving DecidableEq

/-- Where the loop stands. -/
inductive Phase (π : Type)
  /-- In `Consume`. -/
  | consuming
  /-- In `SendToDeadLetterAsync` for a record that could not be parsed. -/
  | deadLetteringRecord (r : RecordId π)
  /-- In the `Commit` after that write. -/
  | committingRecord (r : RecordId π)
  /-- In the processing or the `SaveChangesAsync` of an attempt of `FlushBatchAsync`. -/
  | persisting (attempt : ℕ)
  /-- Between the `SaveChangesAsync` of an attempt and the end of its `Commit`. -/
  | committing (attempt : ℕ)
  /-- In `SendToDeadLetterAsync` for the records of the batch that are left. -/
  | deadLettering (left : List (RecordId π)) (allDelivered : Bool)
  /-- In the `Commit` after these writes. -/
  | committingDeadLettered
  deriving DecidableEq

/-- The service in one process. -/
structure NormalizedAlarmConsumer (π : Type) where
  /-- The offset that is polled next in an assigned partition. -/
  position : π → Option ℕ
  /-- `_batch`: where its events come from. -/
  batch : List (RecordId π)
  /-- `_offsets`. -/
  offsets : π → Option ℕ
  /-- Where the loop stands. -/
  phase : Phase π
  /-- No field of the code: the polled records that were last neither added to the batch nor written
  to the dead-letter topic. -/
  skipped : List (RecordId π)

/-- An interaction of a consumer with its brokers and its database. -/
inductive ConsumerEvent (π : Type)
  /-- A partition is assigned. -/
  | assigned (p : π)
  /-- Partitions are revoked. -/
  | revoked (ps : List π)
  /-- `Consume` returns the record at an offset. -/
  | polled (p : π) (offset : ℕ)
  /-- `Consume` returns no record, or the loop has ended. -/
  | idle
  /-- `SaveChangesAsync` succeeds. -/
  | saved
  /-- The processing of the batch or `SaveChangesAsync` throws. -/
  | saveThrew (cancelled : Bool)
  /-- The broker acknowledges the dead letter, or `PublishAsync` throws. -/
  | delivered (acknowledged : Bool)
  /-- `Commit` succeeds. -/
  | committed
  /-- `Commit` throws, after the broker has stored the offsets of some partitions, or something
  before it throws and none is stored. -/
  | commitThrew (reached : List π) (cancelled : Bool)
  /-- The process ends, and another is started in its place. -/
  | crashed
  deriving DecidableEq

def batchSize : ℕ := 100

def maxFlushAttempts : ℕ := 4

namespace NormalizedAlarmConsumer

variable {π : Type}

def started : NormalizedAlarmConsumer π :=
  { position := fun _ => none
    batch := []
    offsets := fun _ => none
    phase := .consuming
    skipped := [] }

/-- The beginning of `FlushBatchAsync`. -/
def flush (c : NormalizedAlarmConsumer π) : NormalizedAlarmConsumer π :=
  if c.batch = [] then c else { c with phase := .persisting 1 }

/-- The end of `FlushBatchAsync` after a commit. -/
def clear (c : NormalizedAlarmConsumer π) : NormalizedAlarmConsumer π :=
  { c with batch := [], offsets := fun _ => none, phase := .consuming }

/-- The handlers of an exception in an attempt: another attempt, or the dead-letter topic. -/
def retry (c : NormalizedAlarmConsumer π) (attempt : ℕ) (cancelled : Bool) :
    NormalizedAlarmConsumer π :=
  if attempt < maxFlushAttempts ∧ cancelled = false then
    { c with phase := .persisting (attempt + 1) }
  else { c with phase := .deadLettering c.batch true }

def deliver (c : NormalizedAlarmConsumer π) (left : List (RecordId π)) (allDelivered : Bool) :
    NormalizedAlarmConsumer π :=
  match left, allDelivered with
  | [], true => { c with phase := .committingDeadLettered }
  | [], false => { c with phase := .consuming }
  | left, _ => { c with phase := .deadLettering left allDelivered }

def pendingCommit [DecidableEq π] (c : NormalizedAlarmConsumer π) (p : π) : Option ℕ :=
  match c.phase with
  | .committingRecord r => if p = r.partition then some (r.offset + 1) else none
  | .committing _ => c.offsets p
  | .committingDeadLettered => c.offsets p
  | _ => none

variable [DecidableEq π] (records : π → ℕ → Option Parsed)

/-- The record at the offset is the next one at or after the position. -/
def Next (c : NormalizedAlarmConsumer π) (p : π) (offset : ℕ) : Prop :=
  ∃ n, c.position p = some n ∧ n ≤ offset ∧ ∀ m < offset, n ≤ m → records p m = none

instance (c : NormalizedAlarmConsumer π) (p : π) (offset : ℕ) :
    Decidable (c.Next records p offset) :=
  match h : c.position p with
  | none => .isFalse fun ⟨_, hn, _⟩ => Option.some_ne_none _ (hn.symm.trans h)
  | some n =>
      decidable_of_iff (n ≤ offset ∧ ∀ m < offset, n ≤ m → records p m = none)
        ⟨fun hn => ⟨n, h, hn⟩, fun ⟨m, hm, hn⟩ => by
          obtain rfl : m = n := Option.some.inj (hm.symm.trans h)
          exact hn⟩

def handle (c : NormalizedAlarmConsumer π) (r : RecordId π) :
    Parsed → NormalizedAlarmConsumer π
  | .event =>
      let c := { c with
        batch := c.batch ++ [r]
        offsets := Function.update c.offsets r.partition (some r.offset)
        skipped := c.skipped.filter (· ≠ r) }
      if batchSize ≤ c.batch.length then c.flush else c
  | .null =>
      let c := { c with skipped := c.skipped ++ [r] }
      if batchSize ≤ c.batch.length then c.flush else c
  | .unparsable => { c with phase := .deadLetteringRecord r, skipped := c.skipped ++ [r] }
  | .failed => { c with skipped := c.skipped ++ [r] }

/-- `Consume` returns a record. -/
def poll (c : NormalizedAlarmConsumer π) (p : π) (offset : ℕ) : NormalizedAlarmConsumer π :=
  match records p offset with
  | none => c
  | some parsed =>
      if c.Next records p offset then
        handle { c with position := Function.update c.position p (some (offset + 1)) }
          ⟨p, offset⟩ parsed
      else c

/-- A step of a consumer, and the records it makes durable: by a successful `SaveChangesAsync`, or by
a dead letter that the broker acknowledged.  An interaction that the phase does not wait for changes
nothing. -/
def step (committed : π → ℕ) (c : NormalizedAlarmConsumer π) :
    ConsumerEvent π → NormalizedAlarmConsumer π × List (RecordId π)
  | .crashed => (started, [])
  | .assigned p =>
      match c.phase with
      | .consuming =>
          ({ c with position := Function.update c.position p (some (committed p)) }, [])
      | _ => (c, [])
  | .revoked ps =>
      match c.phase with
      | .consuming => (flush { c with position := fun p => if p ∈ ps then none else c.position p }, [])
      | _ => (c, [])
  | .polled p offset =>
      match c.phase with
      | .consuming => (c.poll records p offset, [])
      | _ => (c, [])
  | .idle =>
      match c.phase with
      | .consuming => (c.flush, [])
      | _ => (c, [])
  | .saved =>
      match c.phase with
      | .persisting attempt => ({ c with phase := .committing attempt }, c.batch)
      | _ => (c, [])
  | .saveThrew cancelled =>
      match c.phase with
      | .persisting attempt => (c.retry attempt cancelled, [])
      | _ => (c, [])
  | .delivered acknowledged =>
      match c.phase, acknowledged with
      | .deadLetteringRecord r, true =>
          ({ c with phase := .committingRecord r, skipped := c.skipped.filter (· ≠ r) }, [r])
      | .deadLetteringRecord _, false => ({ c with phase := .consuming }, [])
      | .deadLettering (r :: left) allDelivered, true => (c.deliver left allDelivered, [r])
      | .deadLettering (_ :: left) _, false => (c.deliver left false, [])
      | _, _ => (c, [])
  | .committed =>
      match c.phase with
      | .committingRecord _ => ({ c with phase := .consuming }, [])
      | .committing _ => (c.clear, [])
      | .committingDeadLettered => (c.clear, [])
      | _ => (c, [])
  | .commitThrew _ cancelled =>
      match c.phase with
      | .committingRecord _ => ({ c with phase := .consuming }, [])
      | .committing attempt => (c.retry attempt cancelled, [])
      | .committingDeadLettered => ({ c with phase := .consuming }, [])
      | _ => (c, [])

end NormalizedAlarmConsumer

/-! ## The consumers of a group -/

structure ConsumerGroup (ι π : Type) where
  /-- The committed offsets. -/
  committed : π → ℕ
  /-- The processes. -/
  consumer : ι → NormalizedAlarmConsumer π

def ConsumerEvent.stores {π : Type} [DecidableEq π] : ConsumerEvent π → π → Bool
  | .committed, _ => true
  | .commitThrew reached _, p => decide (p ∈ reached)
  | _, _ => false

namespace ConsumerGroup

variable {ι π : Type}

def start : ConsumerGroup ι π :=
  { committed := fun _ => 0, consumer := fun _ => .started }

variable [DecidableEq ι] [DecidableEq π] (records : π → ℕ → Option Parsed)

def step (s : ConsumerGroup ι π) (i : ι × ConsumerEvent π) :
    ConsumerGroup ι π × List (RecordId π) :=
  let c := s.consumer i.1
  let next := c.step records s.committed i.2
  ({ committed := fun p =>
       if i.2.stores p then (c.pendingCommit p).getD (s.committed p) else s.committed p
     consumer := Function.update s.consumer i.1 next.1 }, next.2)

def NoLoss (events : List (ι × ConsumerEvent π)) : Prop :=
  ∀ (p : π) (offset : ℕ), offset < (Machine.stateAfter (step records) start events).committed p →
    (records p offset).isSome → ⟨p, offset⟩ ∈ Machine.outputs (step records) start events

end ConsumerGroup

end OpenBridge.Alarms
