import OpenBridge.Foundation.F64
import OpenBridge.Foundation.Json
import OpenBridge.Foundation.Machine

/-!
# Historian: landing the raw loop samples

`RawLoopIotDbConsumer`: samples are read from a topic, buffered by device, and written in batches; a
batch that the database refuses is halved until the refused rows stand alone.  The catch-all handler
of the loop throws the buffer away and reads on.

The consumer keeps the partitions it was assigned.  Times are milliseconds, one reading of the clock
an iteration.  `written` and `refused` keep what the flushes did; the consumer does not read them.
-/

namespace OpenBridge.Historian

open OpenBridge.Foundation

namespace RawLoopIotDbConsumer

def FlushRows : ℕ := 500

def FlushInterval : ℕ := 5000

/-- How many rows must be refused, with none landing, for the server to be at fault. -/
def MinRejectedForServerVerdict : ℕ := 5

structure Message where
  key : Option String
  value : Option String
  deriving DecidableEq

abbrev Log := ℕ → ℕ → Message

/-- A row of a device: the time, and the values of the measurements. -/
structure Row where
  ts : ℤ
  pv : Option F64
  sp : Option F64
  op : Option F64
  vp : Option F64
  mode : Option String
  deriving DecidableEq

abbrev Sample := String × Row

/-! ## Reading a record -/

/-- What reading a record takes from the runtime: `JsonDocument.Parse` (none where it throws a
`JsonException`), `double.TryParse`, the classes of characters, and the root of the devices. -/
structure Reader where
  parse : String → Option Json
  tryParseDouble : String → Option F64
  isLetterOrDigit : Char → Bool
  isDigit : Char → Bool
  loopRootPrefix : String

def isNullOrWhiteSpace (s : Option String) : Bool := s.all fun t => t.toList.all isWhiteSpace

variable (reader : Reader)

/-- `SafeNode`; a character beyond the first plane counts as two. -/
def safeNode (id : String) : String :=
  if isNullOrWhiteSpace (some id) then "unknown"
  else
    let s := id.toList.flatMap fun ch =>
      if 0x10000 ≤ ch.toNat then ['_', '_']
      else if reader.isLetterOrDigit ch then [ch] else ['_']
    String.ofList (if s.head?.any reader.isDigit then '_' :: s else s)

def getString (r : Json) (name : String) : Option String :=
  match r.get name with
  | some (.text s) => some s
  | _ => none

def getDouble (r : Json) (name : String) : Option F64 :=
  match r.get name with
  | some (.number n) => some (some n.toDouble)
  | some (.text s) => reader.tryParseDouble s
  | _ => none

/-- `TryGetProperty` and `TryGetInt64`, which throws where the property is not a number. -/
def tryGetInt64 (r : Json) (name : String) : Except String (Option ℤ) :=
  match r.get name with
  | none => .ok none
  | some (.number n) => .ok n.tryGetInt64
  | some _ => .error "InvalidOperationException"

/-- `TryParse` of a record whose text is `value`: an unexpected exception is an error, and a record
that is dropped gives nothing. -/
def tryParse (key : Option String) (value : String) : Except String (Option Sample) :=
  match reader.parse value with
  | none => .ok none
  | some r =>
      if ¬ r.isObject then .error "InvalidOperationException"
      else
        let loopId := getString r "loop_id" <|> getString r "tagId" <|> key
        if isNullOrWhiteSpace loopId then .ok none
        else
          let device := reader.loopRootPrefix ++ "." ++ safeNode reader (loopId.getD "")
          let row (ts : ℤ) : Sample :=
            (device,
             { ts := ts, pv := getDouble reader r "pv", sp := getDouble reader r "sp",
               op := getDouble reader r "op", vp := getDouble reader r "vp",
               mode := getString r "mode" })
          match tryGetInt64 r "event_ts_ms" with
          | .error e => .error e
          | .ok (some ts) => .ok (some (row ts))
          | .ok none => (tryGetInt64 r "timestamp").map fun ts => ts.map row

def sampleOf (m : Message) : Option Sample :=
  if isNullOrWhiteSpace m.value then none
  else (tryParse reader m.key (m.value.getD "")).toOption.join

/-! ## Writing a buffer -/

inductive IotDbWriteOutcome where
  | ok
  | rejected
  | unavailable
  deriving DecidableEq

abbrev Database := ℕ → String → List Row → IotDbWriteOutcome

/-- What a bisection did: the rows that landed, those that were refused alone, whether the server was
down, and the number of the next statement. -/
structure Bisection where
  landed : List Row
  rejected : List Row
  serverDown : Bool
  next : ℕ

/-- `InsertBisectingAsync`. -/
def insertBisecting (db : Database) (device : String) (rows : List Row) (n : ℕ) : Bisection :=
  if rows = [] then ⟨[], [], false, n⟩
  else
    match db n device rows with
    | .ok => ⟨rows, [], false, n + 1⟩
    | .unavailable => ⟨[], [], true, n + 1⟩
    | .rejected =>
        if rows.length ≤ 1 then ⟨[], rows, false, n + 1⟩
        else
          let mid := rows.length / 2
          let left := insertBisecting db device (rows.take mid) (n + 1)
          if left.serverDown then left
          else
            let right := insertBisecting db device (rows.drop mid) left.next
            ⟨left.landed ++ right.landed, left.rejected ++ right.rejected, right.serverDown,
              right.next⟩
termination_by rows.length
decreasing_by
  · rw [List.length_take]
    omega
  · rw [List.length_drop]
    omega

structure Flush where
  landed : List Sample
  rejected : List Sample
  serverDown : Bool

def flush (db : Database) : List (String × List Row) → ℕ → Flush
  | [], _ => ⟨[], [], false⟩
  | (device, rows) :: rest, n =>
      let outcome := insertBisecting db device rows n
      let landed := outcome.landed.map (device, ·)
      let rejected := outcome.rejected.map (device, ·)
      if outcome.serverDown then ⟨landed, rejected, true⟩
      else
        let more := flush db rest outcome.next
        ⟨landed ++ more.landed, rejected ++ more.rejected, more.serverDown⟩

def Flush.infrastructureFault (f : Flush) : Bool :=
  f.serverDown ∨ (f.landed = [] ∧ MinRejectedForServerVerdict ≤ f.rejected.length)

/-! ## The loop -/

/-- The consumer, the offsets it has read up to and stored, and what the flushes did. -/
structure State where
  pending : Dict String (List Row)
  pendingOffsets : List (ℕ × ℕ)
  lastFlush : ℕ
  paused : Bool
  clock : ℕ
  position : ℕ → ℕ
  stored : ℕ → ℕ
  written : List Sample
  refused : List Sample

/-- What `Consume` gives. -/
inductive Consumed where
  | nothing
  | throws
  | record (partition : ℕ)
  deriving DecidableEq

/-- A later call of the client that throws: the pause, the resumption, or a store of an offset. -/
inductive Fault where
  | pause
  | resume
  | store (k : ℕ)
  deriving DecidableEq

structure Iteration where
  elapsed : ℕ
  consumed : Consumed
  database : Database
  fault : Option Fault

def State.rows (s : State) : List Sample := s.pending.entries.flatMap fun e => e.2.map (e.1, ·)

def start : State :=
  { pending := Dict.empty, pendingOffsets := [], lastFlush := 0, paused := false, clock := 0,
    position := fun _ => 0, stored := fun _ => 0, written := [], refused := [] }

def addRow (pending : Dict String (List Row)) (x : Sample) : Dict String (List Row) :=
  pending.set x.1 ((pending.get? x.1).getD [] ++ [x.2])

/-- The head of the iteration: what is consumed goes into the buffer.  An error is an exception, with
the state it leaves; a paused partition delivers nothing. -/
def receive (log : Log) (s : State) : Consumed → Except State State
  | .nothing => .ok s
  | .throws => .error s
  | .record p =>
      if s.paused then .ok s
      else
        let offset := s.position p
        let m := log p offset
        let s := { s with position := Function.update s.position p (offset + 1) }
        if isNullOrWhiteSpace m.value then .ok s
        else
          match tryParse reader m.key (m.value.getD "") with
          | .error _ => .error s
          | .ok none => .ok { s with pendingOffsets := s.pendingOffsets ++ [(p, offset)] }
          | .ok (some x) =>
              .ok { s with pending := addRow s.pending x
                           pendingOffsets := s.pendingOffsets ++ [(p, offset)] }

/-- `StoreOffset` of some records. -/
def storeAll (stored : ℕ → ℕ) (offsets : List (ℕ × ℕ)) : ℕ → ℕ :=
  offsets.foldl (fun stored o => Function.update stored o.1 (o.2 + 1)) stored

def storeOffsets (s : State) (fault : Option Fault) : Except State State :=
  match fault with
  | some (.store k) =>
      if k < s.pendingOffsets.length then
        .error { s with stored := storeAll s.stored (s.pendingOffsets.take k) }
      else .ok { s with stored := storeAll s.stored s.pendingOffsets }
  | _ => .ok { s with stored := storeAll s.stored s.pendingOffsets }

def ruleOn (s : State) (fault : Option Fault) (f : Flush) : Except State State :=
  let s := { s with written := f.landed ++ s.written
                    refused := if f.landed = [] then s.refused else f.rejected ++ s.refused }
  if f.infrastructureFault then
    if ¬ s.paused ∧ fault = some .pause then .error s
    -- the buffer and the offsets are kept
    else .ok { s with paused := true }
  else if f.landed = [] ∧ f.rejected ≠ [] then
    -- too few rows to tell: the buffer is kept, and reading goes on unless it is paused already
    .ok { s with lastFlush := s.clock }
  else if s.paused ∧ fault = some .resume then .error s
  else
    (storeOffsets { s with paused := false } fault).map fun s =>
      { s with pending := Dict.empty, pendingOffsets := [], lastFlush := s.clock }

def State.flushDue (s : State) : Bool :=
  s.rows ≠ [] ∧ (FlushRows ≤ s.rows.length ∨ s.lastFlush + FlushInterval ≤ s.clock)

def flushIfDue (s : State) (e : Iteration) : Except State State :=
  if s.rows = [] ∧ s.pendingOffsets ≠ [] ∧ s.lastFlush + FlushInterval ≤ s.clock then
    (storeOffsets s e.fault).map fun s => { s with pendingOffsets := [], lastFlush := s.clock }
  else if s.flushDue then ruleOn s e.fault (flush e.database s.pending.entries 0)
  else .ok s

def State.tick (s : State) (e : Iteration) : State := { s with clock := s.clock + e.elapsed }

def body (log : Log) (s : State) (e : Iteration) : Except State State :=
  (receive reader log (s.tick e) e.consumed).bind fun s => flushIfDue s e

def caught (s : State) : State :=
  { s with pending := Dict.empty, pendingOffsets := [], paused := false }

def iterate (log : Log) (s : State) (e : Iteration) : State :=
  match body reader log s e with
  | .ok s => s
  | .error s => caught s

/-- What happens to the consumer: an iteration, or a restart at the offsets that were committed,
which are stored ones. -/
inductive Event where
  | iteration (e : Iteration)
  | restart (committed : ℕ → ℕ)

def restarted (s : State) (committed : ℕ → ℕ) : State :=
  let position := fun p => min (committed p) (s.stored p)
  { caught s with lastFlush := s.clock, position := position, stored := position }

def step (log : Log) (s : State) : Event → State × List Empty
  | .iteration e => (iterate reader log s e, [])
  | .restart committed => (restarted s committed, [])

abbrev after (log : Log) (events : List Event) : State :=
  Machine.stateAfter (step reader log) start events

end RawLoopIotDbConsumer

end OpenBridge.Historian
