import OpenBridge.Foundation.F64
import OpenBridge.Foundation.Text

/-!
# Event frames: the lifecycle of one episode

`EventFrameLifecycle`: what one gate verdict does to the open frame of its loop and window kind.
Times are whole milliseconds; the window count, the support and the revision are integers far from
the ends of their types.
-/

namespace OpenBridge.EventFrames

open OpenBridge.Foundation

/-- A `DateTime` of whole milliseconds since the epoch. -/
structure DateTime where
  ms : ℤ
  range : -2 ^ 48 < ms ∧ ms < 2 ^ 48
  deriving DecidableEq

def DateTime.ofMs (ms : ℤ) : DateTime where
  ms := max (-2 ^ 48 + 1) (min (2 ^ 48 - 1) ms)
  range := by omega

inductive ResultClass where
  | fault
  | clear
  | unobservable
  deriving DecidableEq

inductive TransitionKind where
  | ignore
  | open
  | extend
  | observe
  | markUnobservable
  | close
  | closeAndOpen
  | escalate
  deriving DecidableEq

/-- `AvailabilityState`: whether the newest result could judge the loop at all. -/
inductive AvailabilityState where
  | observed
  | unobservable
  deriving DecidableEq

/-- `ConditionState`: whether the condition is still standing. -/
inductive ConditionState where
  | open
  | closed
  deriving DecidableEq

inductive CloseReason where
  | recovered
  | familyChanged
  deriving DecidableEq

/-- The durable state of one episode row. -/
structure FrameState where
  family : String
  openedAt : DateTime
  closedAt : Option DateTime
  peakDiagnosis : String
  peakConfidence : Double
  lastDiagnosis : Option String
  lastConfidence : Option Double
  severity : Option String
  windowCount : ℤ
  availabilityState : AvailabilityState
  conditionState : ConditionState
  qualifiedSupportMs : ℤ
  supportUntil : Option DateTime
  resultRevision : ℤ
  closeReason : Option CloseReason := none
  candidateFamily : Option String := none
  candidateWindows : ℕ := 0
  deriving DecidableEq

structure GateVerdict where
  diagnosis : Option String
  confidence : Double
  severity : Option String
  windowStart : DateTime
  windowEnd : DateTime
  qualifiedSupportMs : ℤ
  recoverySupportS : Double
  resultRevision : ℤ
  deriving DecidableEq

/-- A transition: what happened, the frame it leaves, and the frame it closed on the way. -/
structure Transition where
  kind : TransitionKind
  frame : Option FrameState
  reason : String
  closed : Option FrameState := none
  deriving DecidableEq

namespace EventFrameLifecycle

def classify (diagnosis : Option String) : ResultClass :=
  match diagnosis with
  | none => .unobservable
  | some d =>
      if trim d = "" then .unobservable
      else if startsWith d "EXCLUDED" ∨ d = "INSUFFICIENT_DATA" then .unobservable
      else if d = "INSUFFICIENT_EVIDENCE" ∨ d = "NO_CALL" then .clear
      else .fault

def bands : List String := ["CONFIRMED_", "SUSPECTED_", "DETECTED_", "CLASSIFIED_"]

/-- `FamilyOf`: the diagnosis without its band prefix. -/
def familyOf (diagnosis : String) : String :=
  match bands.find? (startsWith diagnosis) with
  | some band => String.ofList (diagnosis.toList.drop band.toList.length)
  | none => diagnosis

/-- `BandRank`: an unknown band ranks lowest. -/
def bandRank (severity : Option String) : ℕ :=
  match severity.map fun s => toUpperInvariant (trim s) with
  | some "LOW" => 1
  | some "MEDIUM" => 2
  | some "HIGH" => 3
  | _ => 0

/-- `Open`. -/
def openFrame (family : String) (diagnosis : String) (v : GateVerdict) : FrameState :=
  { family := family, openedAt := v.windowEnd, closedAt := none, peakDiagnosis := diagnosis,
    peakConfidence := v.confidence, lastDiagnosis := v.diagnosis,
    lastConfidence := some v.confidence, severity := v.severity, windowCount := 1,
    availabilityState := .observed, conditionState := .open,
    qualifiedSupportMs := max 0 v.qualifiedSupportMs, supportUntil := some v.windowEnd,
    resultRevision := v.resultRevision }

/-- `Close`. -/
def closeFrame (f : FrameState) (v : GateVerdict) (reason : CloseReason) : FrameState :=
  { f with
    closedAt := some v.windowEnd, conditionState := .closed, availabilityState := .observed,
    lastDiagnosis := v.diagnosis, lastConfidence := some v.confidence,
    resultRevision := v.resultRevision, closeReason := some reason, candidateFamily := none,
    candidateWindows := 0 }

/-- The support a window adds to an episode covered until `supportUntil`: its part past the covered
time, scaled by the share of the window that its own support fills. -/
def addedSupport (supportUntil : Option DateTime) (v : GateVerdict) : ℤ :=
  let start := v.windowStart.ms
  let stop := v.windowEnd.ms
  let coveredUntil := (supportUntil.getD v.windowStart).ms
  let newFrom := if coveredUntil < start then start else coveredUntil
  let added := if newFrom < stop then stop - newFrom else 0
  let spanMs := F64.max (F64.ofInt 1) (F64.ofInt (stop - start))
  let share := F64.div (F64.ofInt v.qualifiedSupportMs) spanMs
  let fraction := F64.min (F64.ofInt 1) (F64.max (F64.ofInt 0) share)
  F64.castLong (F64.round (F64.mul (F64.ofInt added) fraction))

def disjoint (supportUntil : Option DateTime) (v : GateVerdict) : Bool :=
  match supportUntil with
  | none => true
  | some u => u.ms ≤ v.windowStart.ms

def extendUntil (supportUntil : Option DateTime) (v : GateVerdict) : DateTime :=
  match supportUntil with
  | none => v.windowEnd
  | some u => if u.ms < v.windowEnd.ms then v.windowEnd else u

def extend (f : FrameState) (diagnosis : String) (v : GateVerdict) (peakEligible : Bool) :
    FrameState :=
  let peakUp := peakEligible && f.peakConfidence.lt v.confidence
  { f with
    peakDiagnosis := if peakUp then diagnosis else f.peakDiagnosis
    peakConfidence := if peakUp then v.confidence else f.peakConfidence
    lastDiagnosis := v.diagnosis
    lastConfidence := some v.confidence
    severity := v.severity <|> f.severity
    windowCount := f.windowCount + if disjoint f.supportUntil v then 1 else 0
    availabilityState := .observed
    conditionState := .open
    qualifiedSupportMs := f.qualifiedSupportMs + addedSupport f.supportUntil v
    supportUntil := some (extendUntil f.supportUntil v)
    resultRevision := v.resultRevision }

/-- `(long)(v.RecoverySupportS * 1000.0)`. -/
def recoverySupportMs (v : GateVerdict) : ℤ :=
  (v.recoverySupportS.mul (.finite 1000)).castLong

/-- The windows in a row for which `family`, not the frame's own, has been seen. -/
def held (f : FrameState) (family : String) : ℕ :=
  if f.candidateFamily = some family then f.candidateWindows + 1 else 1

/-- `Apply` on a fault verdict. -/
def applyFault (current : Option FrameState) (diagnosis : String) (v : GateVerdict)
    (familyChangeWindows : ℤ) : Transition :=
  let family := familyOf diagnosis
  match current with
  | none => { kind := .open, frame := some (openFrame family diagnosis v), reason := "OPENED" }
  | some f =>
      let kind : TransitionKind :=
        if bandRank f.severity < bandRank v.severity then .escalate else .extend
      if f.family ≠ family then
        if max 1 familyChangeWindows ≤ held f family then
          { kind := .closeAndOpen, frame := some (openFrame family diagnosis v),
            reason := "FAMILY_CHANGED", closed := some (closeFrame f v .familyChanged) }
        else
          -- the episode's own family alone may escalate or move its severity
          { kind := .extend, reason := "FAMILY_CANDIDATE",
            frame := some { extend f diagnosis v false with
              candidateFamily := some family, candidateWindows := held f family,
              severity := f.severity } }
      else
        { kind := kind, reason := if kind = .escalate then "ESCALATED" else "EXTENDED",
          frame := some { extend f diagnosis v true with
            candidateFamily := none, candidateWindows := 0 } }

def apply (current : Option FrameState) (v : GateVerdict) (familyChangeWindows : ℤ) : Transition :=
  match classify v.diagnosis with
  | .unobservable =>
      match current with
      | none => { kind := .ignore, frame := none, reason := "NO_OPEN_FRAME" }
      | some f =>
          { kind := .markUnobservable, reason := "EVIDENCE_MISSING",
            frame := some { f with
              availabilityState := .unobservable, lastDiagnosis := v.diagnosis,
              lastConfidence := some v.confidence, resultRevision := v.resultRevision } }
  | .clear =>
      match current with
      | none => { kind := .ignore, frame := none, reason := "NO_OPEN_FRAME" }
      | some f =>
          if recoverySupportMs v ≤ v.qualifiedSupportMs then
            { kind := .close, frame := some (closeFrame f v .recovered), reason := "RECOVERED" }
          else
            { kind := .observe, reason := "CLEAR_INSUFFICIENT_SUPPORT",
              frame := some { f with
                availabilityState := .observed, lastDiagnosis := v.diagnosis,
                lastConfidence := some v.confidence, resultRevision := v.resultRevision } }
  | .fault => applyFault current (v.diagnosis.getD "") v familyChangeWindows

end EventFrameLifecycle

end OpenBridge.EventFrames
