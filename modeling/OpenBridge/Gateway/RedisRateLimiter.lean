import Mathlib.Algebra.Group.Int.Defs
import OpenBridge.Foundation.Machine

/-!
# Gateway: the rate limiter

`RateLimitClasses`, `RedisCircuit`, `LocalWindowCounter` and `RedisRateLimiter`.

A run is any interleaving of the requests before and after the call to Redis and of what Redis does
with the calls.  Instants are in ticks of 100 ns since the Unix epoch.
-/

namespace OpenBridge.Gateway

open OpenBridge.Foundation

inductive RouteClass
  | login
  | session
  | snapshot
  | historian
  | mutation
  | read
  | global
  deriving DecidableEq

/-- `FailClosed`, as `FromConfig` sets it: the class is enforced in the process while Redis is
unreachable. -/
def RouteClass.failClosed : RouteClass → Bool
  | .login => true
  | .mutation => true
  | _ => false

/-- The options under `RateLimiting` that the limiter reads. -/
structure RateLimiting where
  limit : RouteClass → ℕ
  windowSeconds : ℕ
  circuitFailureThreshold : ℕ
  circuitOpenSeconds : ℕ
  windowSeconds_pos : 0 < windowSeconds

def RateLimiting.default : RateLimiting where
  limit
    | .login => 10
    | .session => 60
    | .snapshot => 30
    | .historian => 120
    | .mutation => 120
    | .read => 600
    | .global => 2000
  windowSeconds := 60
  circuitFailureThreshold := 3
  circuitOpenSeconds := 30
  windowSeconds_pos := Nat.succ_pos 59

/-- `rl:{routeClass}:{clientId}:{windowStart}`, by its parts: no name of a class has a colon in it,
and nothing follows the last one but the digits of the start. -/
structure CounterKey where
  routeClass : RouteClass
  clientId : String
  windowStart : ℕ
  deriving DecidableEq

/-- What `CheckAsync` is asked about. -/
structure RateLimitRequest where
  cls : RouteClass
  clientId : String
  ip : String
  deriving DecidableEq

inductive DecisionSource
  /-- `redis`. -/
  | redis
  /-- `local`: Redis is unreachable, and the class is enforced in the process. -/
  | localCounters
  /-- `open`: Redis is unreachable, and the class passes. -/
  | failOpen
  deriving DecidableEq

structure RateLimitDecision where
  allowed : Bool
  retryAfter : ℕ
  source : DecisionSource
  limitedBy : Option RouteClass
  deriving DecidableEq

def toUnixTimeSeconds (now : ℕ) : ℕ := now / 10000000

/-! ## The breaker -/

structure RedisCircuit where
  consecutiveFailures : ℕ
  openUntil : Option ℕ
  lastFailure : Option ℕ
  trips : ℕ
  deriving DecidableEq

namespace RedisCircuit

def closed : RedisCircuit := ⟨0, none, none, 0⟩

/-- `IsOpen`: do not call Redis. -/
def isOpen (c : RedisCircuit) (now : ℕ) : Bool := c.openUntil.any fun t => now < t

def recordFailure (threshold openSeconds : ℕ) (c : RedisCircuit) (now : ℕ) : RedisCircuit :=
  let c' := { c with consecutiveFailures := c.consecutiveFailures + 1, lastFailure := some now }
  if c'.consecutiveFailures < max 1 threshold then c'
  else
    { c' with
      openUntil := some (now + openSeconds * 10000000)
      trips := if c.isOpen now then c.trips else c.trips + 1 }

def recordSuccess (c : RedisCircuit) : RedisCircuit :=
  { c with consecutiveFailures := 0, openUntil := none }

end RedisCircuit

/-! ## The counters of the process -/

/-- `LocalWindowCounter`; a key that is absent counts as zero. -/
structure LocalWindowCounter where
  counts : CounterKey → ℕ
  sweptBelow : ℤ

namespace LocalWindowCounter

/-- `_sweptBelow` begins with `long.MinValue`. -/
def empty : LocalWindowCounter := ⟨fun _ => 0, -2 ^ 63⟩

def sweepBefore (c : LocalWindowCounter) (windowStart : ℤ) : LocalWindowCounter :=
  if windowStart ≤ c.sweptBelow then c
  else ⟨fun key => if (key.windowStart : ℤ) < windowStart then 0 else c.counts key, windowStart⟩

/-- `Increment`: the counters after it, and the new count of the key. -/
def increment (c : LocalWindowCounter) (key : CounterKey) (windowStart windowSeconds : ℕ) :
    LocalWindowCounter × ℕ :=
  let c := c.sweepBefore (windowStart - windowSeconds)
  ({ c with counts := Function.update c.counts key (c.counts key + 1) }, c.counts key + 1)

end LocalWindowCounter

/-! ## The limiter -/

/-- A request that waits for Redis: when it began, and what Redis has counted for it. -/
structure RedisCall where
  request : RateLimitRequest
  now : ℕ
  counted : Option (ℕ × ℕ)
  deriving DecidableEq

structure RedisRateLimiter where
  redis : CounterKey → ℕ
  locals : LocalWindowCounter
  circuit : RedisCircuit
  inFlight : List RedisCall

/-- A request that has been decided: the counts that Redis answered in time, if it did, and the
decision. -/
structure Checked where
  request : RateLimitRequest
  now : ℕ
  answer : Option (ℕ × ℕ)
  decision : RateLimitDecision
  deriving DecidableEq

/-- What happens to the limiter. -/
inductive LimiterEvent
  /-- `CheckAsync` is called. -/
  | arrived (request : RateLimitRequest) (now : ℕ)
  /-- Redis runs the script of a call. -/
  | executed (call : RedisCall)
  /-- Redis runs the script of a call that has been given up, or of another gateway. -/
  | executedElsewhere (classKey globalKey : CounterKey)
  /-- The answer arrives in time. -/
  | answered (call : RedisCall)
  /-- The call throws, or the time is over. -/
  | failed (call : RedisCall)
  /-- The request is aborted while it waits. -/
  | aborted (call : RedisCall)
  deriving DecidableEq

variable (o : RateLimiting)

def windowStart (now : ℕ) : ℕ :=
  toUnixTimeSeconds now - toUnixTimeSeconds now % o.windowSeconds

def classKey (request : RateLimitRequest) (now : ℕ) : CounterKey :=
  ⟨request.cls, request.clientId, windowStart o now⟩

def globalKey (request : RateLimitRequest) (now : ℕ) : CounterKey :=
  ⟨.global, request.ip, windowStart o now⟩

def retryAfter (now : ℕ) : ℕ := windowStart o now + o.windowSeconds - toUnixTimeSeconds now

def RateLimitDecision.decide (cls : RouteClass) (classCount globalCount retryAfter : ℕ)
    (source : DecisionSource) : RateLimitDecision :=
  if o.limit cls < classCount then ⟨false, retryAfter, source, some cls⟩
  else if o.limit .global < globalCount then ⟨false, retryAfter, source, some .global⟩
  else ⟨true, 0, source, none⟩

namespace RedisRateLimiter

def new (redis : CounterKey → ℕ) : RedisRateLimiter := ⟨redis, .empty, .closed, []⟩

def runScript (redis : CounterKey → ℕ) (classKey globalKey : CounterKey) :
    (CounterKey → ℕ) × (ℕ × ℕ) :=
  let first := Function.update redis classKey (redis classKey + 1)
  let second := Function.update first globalKey (first globalKey + 1)
  (second, (first classKey, second globalKey))

/-- The end of `CheckAsync` when Redis cannot decide. -/
def decideLocally (s : RedisRateLimiter) (request : RateLimitRequest) (now : ℕ) :
    RedisRateLimiter × List Checked :=
  if !request.cls.failClosed && !RouteClass.global.failClosed then
    (s, [⟨request, now, none, ⟨true, 0, .failOpen, none⟩⟩])
  else
    let (locals, la) :=
      if request.cls.failClosed then
        s.locals.increment (classKey o request now) (windowStart o now) o.windowSeconds
      else (s.locals, 0)
    let (locals, lb) :=
      if RouteClass.global.failClosed then
        locals.increment (globalKey o request now) (windowStart o now) o.windowSeconds
      else (locals, 0)
    ({ s with locals := locals },
      [⟨request, now, none,
        RateLimitDecision.decide o request.cls la lb (retryAfter o now) .localCounters⟩])

/-- One event.  An event about a call that is not under way changes nothing. -/
def step (s : RedisRateLimiter) : LimiterEvent → RedisRateLimiter × List Checked
  | .arrived request now =>
      if s.circuit.isOpen now then s.decideLocally o request now
      else ({ s with inFlight := ⟨request, now, none⟩ :: s.inFlight }, [])
  | .executed call =>
      if call ∈ s.inFlight ∧ call.counted = none then
        let (redis, counts) :=
          runScript s.redis (classKey o call.request call.now) (globalKey o call.request call.now)
        ({ s with
            redis := redis
            inFlight := { call with counted := some counts } :: s.inFlight.erase call }, [])
      else (s, [])
  | .executedElsewhere classKey globalKey =>
      ({ s with redis := (runScript s.redis classKey globalKey).1 }, [])
  | .answered call =>
      match call.counted with
      | none => (s, [])
      | some (a, b) =>
          if call ∈ s.inFlight then
            ({ s with
                circuit := s.circuit.recordSuccess
                inFlight := s.inFlight.erase call },
              [⟨call.request, call.now, some (a, b),
                RateLimitDecision.decide o call.request.cls a b (retryAfter o call.now) .redis⟩])
          else (s, [])
  | .failed call =>
      if call ∈ s.inFlight then
        decideLocally o
          { s with
            circuit :=
              s.circuit.recordFailure o.circuitFailureThreshold o.circuitOpenSeconds call.now
            inFlight := s.inFlight.erase call } call.request call.now
      else (s, [])
  | .aborted call => ({ s with inFlight := s.inFlight.erase call }, [])

end RedisRateLimiter

end OpenBridge.Gateway
