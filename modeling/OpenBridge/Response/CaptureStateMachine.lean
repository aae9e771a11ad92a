import Mathlib.Data.List.Sort
import Mathlib.Data.Rat.Floor

/-!
# Response: the detection of steps and ramps

`event/ResponseEventDetector.java`: a change of a signal counts when it exceeds a trigger taken from
the signal before it and persists for the dwell; a sustained slope is a ramp.  Times and values are
the exact numbers that the doubles of the code stand for.
-/

namespace OpenBridge.Response

inductive EventType
  | servoStep
  | cascadeSpStep
  | loadResponse
  | unmeasuredDisturbanceResponse
  | inputTest
  | rampTracking
  | routineIdentification
  deriving DecidableEq

/-- `median`: the middle value, or the mean of the two middle ones. -/
def median (values : List ℚ) : ℚ :=
  let s := values.insertionSort (· ≤ ·)
  let n := s.length
  if n % 2 = 1 then s.getD (n / 2) 0 else 1 / 2 * (s.getD (n / 2 - 1) 0 + s.getD (n / 2) 0)

namespace ResponseEventDetector

structure Settings where
  stepMinInputEu : ℚ
  stepMinSpanFraction : ℚ
  span : ℚ
  noiseMultiplier : ℚ
  preSupportS : ℚ
  eventDwellS : ℚ
  rampMinSlopeEuPerS : ℚ
  rampMinDurationS : ℚ

structure Candidate where
  type : EventType
  index : ℕ
  amplitude : ℚ
  deriving DecidableEq

/-- One position of the arrays `t`, `sp` and `valid`. -/
structure Point where
  t : ℚ
  sp : ℚ
  valid : Bool
  deriving DecidableEq, Inhabited

/-- `detrend`: what is left of a line fitted to the values. -/
def detrend (x : List ℚ) : List ℚ :=
  let n : ℚ := x.length
  let indexed := x.zipIdx
  let sx := (indexed.map fun p => (p.2 : ℚ)).sum
  let sy := x.sum
  let sxx := (indexed.map fun p => (p.2 : ℚ) * p.2).sum
  let sxy := (indexed.map fun p => (p.2 : ℚ) * p.1).sum
  let den := n * sxx - sx * sx
  let b := if den = 0 then 0 else (n * sxy - sx * sy) / den
  let a := (sy - b * sx) / n
  indexed.map fun p => p.1 - (a + b * p.2)

def mad (x : List ℚ) : ℚ := median (x.map fun v => |v - median x|)

variable (s : Settings) (points : List Point)

def trigger (pre : List ℚ) : ℚ :=
  let noise := if 4 ≤ pre.length then 14826 / 10000 * mad (detrend pre) else 0
  max (max s.stepMinInputEu (s.stepMinSpanFraction * s.span)) (s.noiseMultiplier * noise)

def point (i : ℕ) : Point := points.getD i default

/-- `preFrom`: where the window before position `i` starts, moved back from a position. -/
def preFrom (i : ℕ) : ℕ → ℕ
  | 0 => 0
  | k + 1 =>
      if (point points (i - 1)).t - (point points k).t ≤ s.preSupportS then preFrom i k else k + 1

def slice (start stop : ℕ) : List ℚ :=
  (((points.drop start).take (stop - start)).filter Point.valid).map Point.sp

/-- `persists`: the valid values of the dwell stay near the level, and the dwell was observed. -/
def persists (start : ℕ) (level tol dwellS : ℚ) : Bool :=
  let until_ := (point points start).t + dwellS
  let dwell := ((points.drop start).takeWhile fun p => decide (p.t ≤ until_)).filter Point.valid
  dwell.all (fun p => decide (|p.sp - level| ≤ tol)) && !dwell.isEmpty &&
    decide (until_ ≤ (point points (points.length - 1)).t)

def lastWithin (start : ℕ) (horizonS : ℚ) : ℕ :=
  start + ((points.drop (start + 1)).takeWhile fun p =>
    decide (p.t - (point points start).t ≤ horizonS)).length

def isRamp (start : ℕ) : Bool :=
  let last := lastWithin points start s.rampMinDurationS
  let first := point points start
  let end_ := point points last
  let slope := (end_.sp - first.sp) / (end_.t - first.t)
  let tol := max (2 / 10 * |end_.sp - first.sp|) (1 / 1000000000)
  if end_.t - first.t < s.rampMinDurationS * (9 / 10) then false
  -- over no time at all the slope is NaN, which is below nothing
  else if end_.t - first.t ≠ 0 ∧ |slope| < s.rampMinSlopeEuPerS then false
  else (((points.drop (start + 1)).take (last - start)).filter Point.valid).all fun p =>
    decide (|p.sp - (first.sp + slope * (p.t - first.t))| ≤ tol)

/-- The body of the loop of `detect`. -/
def candidateAt (i : ℕ) : Option Candidate :=
  if !(point points i).valid || !(point points (i - 1)).valid then none
  else
    let pre := slice points (preFrom s points i (i - 1)) i
    if pre.length < 2 then none
    else
      let level := median pre
      let trig := trigger s pre
      let after := (point points i).sp
      if trig ≤ |after - level| ∧ persists points i after (trig / 2) s.eventDwellS then
        some ⟨if isRamp s points i then .rampTracking else .servoStep, i, after - level⟩
      else if isRamp s points i then
        let last := point points (lastWithin points i s.rampMinDurationS)
        if trig ≤ |last.sp - level| then some ⟨.rampTracking, i, last.sp - level⟩ else none
      else none

/-- `detect`: the first position at which a step or a ramp begins. -/
def detect : Option Candidate :=
  (List.range' 1 (points.length - 1)).findSome? (candidateAt s points)

variable {s points} {c : Candidate}

theorem candidateAt_index {i : ℕ} (h : candidateAt s points i = some c) : c.index = i := by
  unfold candidateAt at h
  dsimp only at h
  split at h
  · cases h
  · split at h
    · cases h
    · split at h
      · cases h
        rfl
      · split at h
        · split at h
          · cases h
            rfl
          · cases h
        · cases h

theorem detect_index (h : detect s points = some c) : 1 ≤ c.index ∧ c.index < points.length := by
  obtain ⟨i, hi, hc⟩ := List.exists_of_findSome?_eq_some h
  rw [candidateAt_index hc]
  obtain ⟨hlo, hhi⟩ := List.mem_range'_1.mp hi
  omega

end ResponseEventDetector

/-!
# Response: the lifecycle of an event

`event/ResponseEvent.java`, `event/InputPathResolver.java` and `event/CaptureStateMachine.java`.  The
open event is the last of the machine's events; here it stands beside the ended ones.
-/

inductive Path
  | opToPv
  | vpToPv
  | slaveSpToPv
  | exogenousTest
  deriving DecidableEq

/-- The command paths that `resolve` tells apart. -/
inductive CommandPath
  | opToSlaveSp
  | opToValve
  | opToVfd
  | other
  deriving DecidableEq

structure Resolution where
  path : Path
  uAppliedAvailable : Bool
  reason : String

def resolve (commandPath : CommandPath) (vpMapped approvedTestRecord : Bool) : Resolution :=
  if approvedTestRecord then ⟨.exogenousTest, true, "APPROVED_TEST_RECORD"⟩
  else match commandPath with
  | .opToSlaveSp => ⟨.slaveSpToPv, false, "CASCADE_MASTER_OP_IS_NOT_AN_APPLIED_INPUT"⟩
  | .opToValve | .opToVfd =>
      if vpMapped then ⟨.vpToPv, true, "VP_IS_THE_APPLIED_INPUT"⟩
      else ⟨.opToPv, true, "OP_ASSUMED_APPLIED"⟩
  | .other => ⟨.opToPv, false, "COMMAND_PATH_UNKNOWN"⟩

inductive CaptureState
  | candidate
  | capturing
  | qualified
  | complete
  | rejected
  | censored
  deriving DecidableEq

/-- `censorReason`; `none` is the empty one. -/
inductive CensorReason
  | none
  | captureMax
  | supersededByEvent
  | modeTransfer
  | sourceGap
  | healthIneligible
  | captureTooShort
  deriving DecidableEq

/-- What names an event: `idFor` hashes these two with the loop and the configuration of the capture,
which are the same for all of its events. -/
structure EventId where
  t0Ms : ℤ
  type : EventType
  deriving DecidableEq

/-- The cast to `long`, toward zero. -/
def truncate (q : ℚ) : ℤ := if 0 ≤ q then ⌊q⌋ else ⌈q⌉

theorem truncate_intCast (n : ℤ) : truncate n = n := by
  unfold truncate
  split
  · exact Int.floor_intCast n
  · exact Int.ceil_intCast n

def idFor (t0Ms : ℤ) (type : EventType) : EventId := ⟨t0Ms, type⟩

/-- A change of the input, `[tMs, value]`. -/
structure InputChange where
  tMs : ℚ
  value : ℚ
  deriving DecidableEq

/-- `ResponseEvent`; the end is missing while the event is open. -/
structure ResponseEvent where
  eventId : EventId
  type : EventType
  pathId : Path
  t0Ms : ℚ
  preAmplitude : ℚ
  postAmplitude : ℚ
  inputSequence : List InputChange
  tEndMs : Option ℚ := none
  captureState : CaptureState := .candidate
  censorReason : CensorReason := .none
  deriving DecidableEq

namespace ResponseEvent

def t0 (e : ResponseEvent) : ℚ := e.t0Ms / 1000

def ended (e : ResponseEvent) (state : CaptureState) (why : CensorReason) (atS : ℚ) : ResponseEvent :=
  { e with tEndMs := some (atS * 1000), captureState := state, censorReason := why }

variable (e : ResponseEvent) (state : CaptureState) (why : CensorReason) (atS : ℚ)

@[simp] theorem ended_eventId : (e.ended state why atS).eventId = e.eventId := rfl

@[simp] theorem ended_type : (e.ended state why atS).type = e.type := rfl

@[simp] theorem ended_t0Ms : (e.ended state why atS).t0Ms = e.t0Ms := rfl

@[simp] theorem ended_t0 : (e.ended state why atS).t0 = e.t0 := rfl

@[simp] theorem ended_inputSequence :
    (e.ended state why atS).inputSequence = e.inputSequence := rfl

@[simp] theorem ended_tEndMs : (e.ended state why atS).tEndMs = some (atS * 1000) := rfl

@[simp] theorem ended_captureState : (e.ended state why atS).captureState = state := rfl

end ResponseEvent

/-- `CaptureStateMachine.State`, as far as the capture drives it. -/
inductive State
  | idle
  | candidate
  | capturing
  | qualified
  | complete
  | rejected
  | censored
  deriving DecidableEq

structure CaptureStateMachine where
  preSupportS : ℚ
  minCaptureS : ℚ
  maxCaptureS : ℚ
  endedEvents : List ResponseEvent := []
  state : State := .idle
  reason : CensorReason := .none
  open_ : Option ResponseEvent := none

namespace CaptureStateMachine

def events (m : CaptureStateMachine) : List ResponseEvent := m.endedEvents ++ m.open_.toList

/-- What `complete`, `reject` and `censor` have in common: the open event ends. -/
def endOpen (m : CaptureStateMachine) (captureState : CaptureState) (why : CensorReason)
    (state : State) (atS : ℚ) : CaptureStateMachine :=
  match m.open_ with
  | none => m
  | some e =>
    { m with
      endedEvents := m.endedEvents ++ [e.ended captureState why atS]
      state := state
      open_ := none }

def censor (m : CaptureStateMachine) (why : CensorReason) (atS : ℚ) : CaptureStateMachine :=
  if m.open_.isNone then m else { m.endOpen .censored why .censored atS with reason := why }

def reject (m : CaptureStateMachine) (why : CensorReason) (atS : ℚ) : CaptureStateMachine :=
  { m.endOpen .rejected why .rejected atS with reason := why }

def complete (m : CaptureStateMachine) (atS : ℚ) : CaptureStateMachine :=
  m.endOpen .complete .none .complete atS

def advance (m : CaptureStateMachine) (captureState : CaptureState) (state : State) :
    CaptureStateMachine :=
  { m with state := state, open_ := m.open_.map fun e => { e with captureState := captureState } }

/-- `onNewEvent`: the open event is superseded, and the next one carries its input sequence. -/
def onNewEvent (m : CaptureStateMachine) (next : ResponseEvent) (atS : ℚ) : CaptureStateMachine :=
  let carried := (m.open_.map ResponseEvent.inputSequence).getD []
  let merged := next.inputSequence.foldl (fun acc change =>
    if acc.any (fun c => c.tMs = change.tMs) then acc else acc ++ [change]) carried
  { m.censor .supersededByEvent atS with
    open_ := some { next with inputSequence := merged, captureState := .capturing }
    state := .capturing
    reason := .none }

def onCandidate (m : CaptureStateMachine) (e : ResponseEvent) (atS : ℚ) : CaptureStateMachine :=
  if m.open_.isSome then m.onNewEvent e atS
  else { m with
    open_ := some { e with captureState := .candidate }, state := .candidate, reason := .none }

/-- `onSample`: the guard of the longest capture. -/
def onSample (m : CaptureStateMachine) (atS : ℚ) : CaptureStateMachine :=
  match m.open_ with
  | none => m
  | some e =>
    if m.maxCaptureS < atS - e.t0 then m.censor .captureMax atS
    else if m.state = .candidate ∧ 0 ≤ atS - e.t0 then m.advance .capturing .capturing
    else m

def onModeTransfer (m : CaptureStateMachine) (atS : ℚ) : CaptureStateMachine :=
  m.censor .modeTransfer atS

def onSourceGap (m : CaptureStateMachine) (atS : ℚ) : CaptureStateMachine := m.censor .sourceGap atS

def onHealthIneligible (m : CaptureStateMachine) (atS : ℚ) : CaptureStateMachine :=
  m.censor .healthIneligible atS

def qualified (m : CaptureStateMachine) (atS : ℚ) : CaptureStateMachine :=
  match m.open_ with
  | none => m
  | some e =>
    if atS - e.t0 < m.minCaptureS then m.reject .captureTooShort atS
    else m.advance .qualified .qualified

end CaptureStateMachine

end OpenBridge.Response
