import OpenBridge.Foundation.EventTime
import OpenBridge.Foundation.FirstsBy
import OpenBridge.Foundation.Machine
import OpenBridge.Samples.CplmNormalizedSample

/-!
# Long windows: the rolling buffers of one loop

`CplmLongDiagnosticsStreamJob.LongDiagnosticsProcessFunction`: a loop's own samples and those of its
peers are buffered for a day, and a timer at a quarter of an hour evicts what is older and evaluates
the last 4, 12 and 24 hours.
-/

namespace OpenBridge.LongWindow

open OpenBridge.Foundation
open OpenBridge.Samples (CplmNormalizedSample)

/-- `TIMER_INTERVAL_MS`. -/
def timerIntervalMs : ℤ := 900000

/-- `BUFFER_RETENTION_MS`: 24 hours and 10 minutes. -/
def bufferRetentionMs : ℤ := 87000000

/-- `MIN_SAMPLES`. -/
def minSamples : ℕ := 32

structure LongSample where
  sample : CplmNormalizedSample
  peerOfLoopId : Option String
  configuredPeers : Option (List String)
  relationshipRevision : ℤ

namespace LongSample

/-- `eventTsMs`. -/
def ts (s : LongSample) : ℤ := s.sample.eventTsMs

def peerKey (s : LongSample) : String := s.sample.loopId.getD "null" ++ "|" ++ toString s.ts

end LongSample

/-- `LongDiagnosticsCalculator.PeerContext`, the samples of the peers in the order of their arrival. -/
structure PeerContext where
  configuredPeers : List String
  samples : List LongSample
  relationshipRevision : ℤ

inductive WindowKind
  | h4
  | h12
  | h24
  deriving DecidableEq

/-- `WINDOW_4H_MS`, `WINDOW_12H_MS` and `WINDOW_24H_MS`. -/
def WindowKind.sizeMs : WindowKind → ℤ
  | .h4 => 14400000
  | .h12 => 43200000
  | .h24 => 86400000

/-- An evaluation of a window: its slice, and the peers it is analysed with. -/
structure Evaluation where
  kind : WindowKind
  windowStart : ℤ
  windowEnd : ℤ
  slice : List LongSample
  peers : PeerContext

/-- A result is computed and collected only of a slice with enough samples. -/
def Evaluation.collected (e : Evaluation) : Bool := minSamples ≤ e.slice.length

/-- The boundary that the code aligns a time to: its quarter of an hour, rounded toward zero, and the
next. -/
def alignedNext (t : ℤ) : ℤ := wrap64 ((t.tdiv timerIntervalMs + 1) * timerIntervalMs)

structure LongDiagnosticsProcessFunction where
  rollingBuffer : List LongSample
  peerBuffer : List LongSample
  nextTimerTs : Option ℤ

namespace LongDiagnosticsProcessFunction

def new : LongDiagnosticsProcessFunction := ⟨[], [], none⟩

variable (f : LongDiagnosticsProcessFunction)

/-- `processElement`: the state, and the timer that is registered. -/
def processElement (s : LongSample) : LongDiagnosticsProcessFunction × Option ℤ :=
  if s.peerOfLoopId.isSome then ({ f with peerBuffer := f.peerBuffer ++ [s] }, none)
  else
    let f := { f with rollingBuffer := f.rollingBuffer ++ [s] }
    let next := alignedNext s.ts
    match f.nextTimerTs with
    | none => ({ f with nextTimerTs := some next }, some next)
    | some current =>
        if next > current then ({ f with nextTimerTs := some next }, some next) else (f, none)

def retained (timestamp : ℤ) : List LongSample :=
  firstsBy LongSample.ts
    (f.rollingBuffer.filter fun s => s.ts ≥ wrap64 (timestamp - bufferRetentionMs))

def peerRetained (timestamp : ℤ) : List LongSample :=
  firstsBy LongSample.peerKey
    (f.peerBuffer.filter fun s => ¬ s.ts < wrap64 (timestamp - bufferRetentionMs))

def evaluate (timestamp : ℤ) (kind : WindowKind) : Evaluation :=
  let retained := f.retained timestamp
  let newest := retained.getLast?
  let cutoff := wrap64 (timestamp - kind.sizeMs)
  { kind := kind
    windowStart := cutoff
    windowEnd := timestamp
    slice := retained.filter fun s => s.ts ≥ cutoff ∧ s.ts < timestamp
    peers :=
      { configuredPeers := (newest.bind LongSample.configuredPeers).getD []
        samples := f.peerRetained timestamp
        relationshipRevision := (newest.map LongSample.relationshipRevision).getD 0 } }

def nextTimer (timestamp watermark : ℤ) : ℤ :=
  let next := wrap64 (timestamp + timerIntervalMs)
  if watermark ≥ next then alignedNext watermark else next

/-- `onTimer`: the state, the evaluations, and the timer that is registered. -/
def onTimer (timestamp watermark : ℤ) :
    LongDiagnosticsProcessFunction × List Evaluation × ℤ :=
  let next := nextTimer timestamp watermark
  ({ rollingBuffer := f.retained timestamp
     peerBuffer := f.peerRetained timestamp
     nextTimerTs := some next },
   [f.evaluate timestamp .h4, f.evaluate timestamp .h12, f.evaluate timestamp .h24], next)

end LongDiagnosticsProcessFunction

/-! ## The operator -/

/-- The function of one key with its timers and the watermark, and whether the timers that are due are
being fired. -/
structure LongOperator where
  fn : LongDiagnosticsProcessFunction
  timers : Timers
  watermark : ℤ
  draining : Bool

/-- A step of the operator.  A watermark is followed by the timers that are due, and these by the next
sample or watermark: a step out of turn changes nothing, as does a watermark that goes back. -/
inductive LongInput
  | element (s : LongSample)
  | watermark (w : ℤ)
  | fire

/-- What a run leaves behind: the own samples, each with the watermark at its arrival, and the
evaluations. -/
inductive LongTrace
  | arrived (s : LongSample) (watermark : ℤ)
  | evaluated (e : Evaluation)

namespace LongOperator

def new : LongOperator := ⟨.new, .empty, minLong, false⟩

/-- A step. -/
def step (o : LongOperator) : LongInput → LongOperator × List LongTrace
  | .element s =>
      if o.draining then (o, [])
      else
        let processed := o.fn.processElement s
        ({ o with
            fn := processed.1
            timers := processed.2.elim o.timers o.timers.register },
          if s.peerOfLoopId.isSome then [] else [.arrived s o.watermark])
  | .watermark w =>
      if o.draining ∨ w < o.watermark then (o, [])
      else ({ o with watermark := w, draining := true }, [])
  | .fire =>
      if o.draining then
        match o.timers.pop o.watermark with
        | none => ({ o with draining := false }, [])
        | some (t, rest) =>
            let fired := o.fn.onTimer t o.watermark
            ({ o with fn := fired.1, timers := rest.register fired.2.2 },
              fired.2.1.map .evaluated)
      else (o, [])

def after (inputs : List LongInput) : LongOperator := Machine.stateAfter step new inputs

def trace (inputs : List LongInput) : List LongTrace := Machine.outputs step new inputs

def arrivals (ts : List LongTrace) : List LongSample :=
  ts.filterMap fun
    | .arrived s _ => some s
    | .evaluated _ => none

def evaluations (ts : List LongTrace) : List Evaluation :=
  ts.filterMap fun
    | .arrived _ _ => none
    | .evaluated e => some e

end LongOperator

end OpenBridge.LongWindow
