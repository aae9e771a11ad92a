import OpenBridge.Foundation.Machine
import OpenBridge.Foundation.Spaced
import OpenBridge.Response.CaptureStateMachine

/-!
# Response: the capture of the events of one loop

`ResponseCapture.java`: a ring of the recent samples, the detection of events on it, and the
triggers that segment the open event.
-/

namespace OpenBridge.Response

open OpenBridge.Foundation

/-- `ResponseJobConfig`, as far as the capture and the observed settling read it. -/
structure ResponseJobConfig where
  preSupportS : ℚ := 120
  minCaptureS : ℚ := 180
  maxCaptureS : ℚ := 4 * 3600
  maxGapS : ℚ := 60
  tailDwellS : ℚ := 120
  stableBandEu : ℚ := 1 / 2
  stepMinInputEu : ℚ := 1
  stepMinSpanFraction : ℚ := 1 / 100
  noiseMultiplier : ℚ := 4
  eventDwellS : ℚ := 30
  rampMinSlopeEuPerS : ℚ := 2 / 100
  rampMinDurationS : ℚ := 120
  absSettlingBandEu : ℚ := 1 / 10
  relSettlingBand : ℚ := 2 / 100
  noiseFloorEu : ℚ := 5 / 100
  minResponseEu : ℚ := 1 / 2
  targetBandEu : ℚ := 1 / 2
  fallbackSpanEu : ℚ := 100
  vpMaxAgeS : ℚ := 60
  governingBundleHash : Option String := none

/-- The role observation of VP, as far as `vpEligible` reads it. -/
structure VpObservation where
  legacyTuple : Bool
  good : Bool
  held : Bool
  ageMs : ℤ

/-- A sample of the loop.  The reader of the tuples refuses those whose PV, SP or OP is not finite, and
drops a VP that is not. -/
structure ResponseSample where
  eventTsMs : ℤ
  pv : ℚ
  sp : ℚ
  op : ℚ
  vp : Option ℚ := none
  vpRole : Option VpObservation := none
  isAutoMode : Bool := true
  isGoodQuality : Bool := true

def ResponseSample.vpEligible (s : ResponseSample) (maxAgeS : ℚ) : Bool :=
  match s.vp, s.vpRole with
  | none, _ => false
  | some _, none => true
  | some _, some o =>
      if o.legacyTuple then true
      else if !o.good then false
      else !(o.held && decide (maxAgeS * 1000 < o.ageMs))

/-- A row of the ring: `[tS, pv, sp, uApplied, valid, modeAuto]`. -/
structure Row where
  tS : ℚ
  pv : ℚ
  sp : ℚ
  uApplied : ℚ
  good : Bool
  auto : Bool
  deriving DecidableEq, Inhabited

/-- One position of the arrays of an `EventDataset`. -/
structure DataPoint where
  t : ℚ
  y : ℚ
  r : ℚ
  u : ℚ
  valid : Bool
  deriving DecidableEq, Inhabited

/-- `EventDataset`: its constructor refuses times that do not strictly increase. -/
structure EventDataset where
  points : List DataPoint
  t0 : ℚ
  tEnd : ℚ
  increasing : points.Pairwise fun a b => a.t < b.t

structure Closed where
  event : ResponseEvent
  data : EventDataset
  u0 : ℚ
  r0 : ℚ
  r1 : ℚ
  duApplied : Option ℚ
  pathReason : String
  uAppliedAvailable : Bool

def advancing (after : Option ℚ) : List Row → List Row
  | [] => []
  | row :: rest =>
      if after.all (· < row.tS) then row :: advancing (some row.tS) rest else advancing after rest

theorem lt_of_mem_advancing {after : Option ℚ} {rows : List Row} {row : Row}
    (h : row ∈ advancing after rows) : ∀ t ∈ after, t < row.tS := by
  induction rows generalizing after with
  | nil => cases h
  | cons r rest ih =>
    intro t ht
    rw [Option.mem_def.mp ht] at h
    rw [advancing] at h
    split at h
    · rename_i hlt
      have hlt : t < r.tS := by simpa using hlt
      rcases List.mem_cons.mp h with rfl | h
      · exact hlt
      · exact hlt.trans (ih h r.tS rfl)
    · exact ih h t rfl

theorem pairwise_advancing (after : Option ℚ) (rows : List Row) :
    (advancing after rows).Pairwise fun a b => a.tS < b.tS := by
  induction rows generalizing after with
  | nil => exact List.Pairwise.nil
  | cons r rest ih =>
    rw [advancing]
    split
    · exact List.pairwise_cons.mpr ⟨fun row h => lt_of_mem_advancing h r.tS rfl, ih _⟩
    · exact ih _

theorem advancing_eq_self {after : Option ℚ} {rows : List Row}
    (h : rows.Pairwise fun a b => a.tS < b.tS) (hafter : ∀ t ∈ after, ∀ row ∈ rows, t < row.tS) :
    advancing after rows = rows := by
  induction rows generalizing after with
  | nil => rfl
  | cons r rest ih =>
    obtain ⟨hhead, hrest⟩ := List.pairwise_cons.mp h
    have hkeep : after.all (· < r.tS) = true := by
      cases after with
      | none => rfl
      | some t => simpa using hafter t rfl r List.mem_cons_self
    rw [advancing, if_pos hkeep, ih hrest]
    rintro t ⟨⟩ row hrow
    exact hhead row hrow

def bundleRows (ring : List Row) (start stop : ℚ) : List Row :=
  advancing none (ring.filter fun row => decide (start ≤ row.tS ∧ row.tS ≤ stop))

def Row.point (row : Row) : DataPoint :=
  ⟨row.tS, row.pv, row.sp, row.uApplied, row.good && row.auto⟩

theorem pairwise_points (ring : List Row) (start stop : ℚ) :
    ((bundleRows ring start stop).map Row.point).Pairwise fun a b => a.t < b.t :=
  List.pairwise_map.mpr (pairwise_advancing none _)

def responseBand (absBandEu relBand dy noiseFloorEu : ℚ) : ℚ :=
  max (max absBandEu (relBand * |dy|)) noiseFloorEu

/-- `max - min` is not above the band. -/
def within (band : ℚ) (values : List ℚ) : Bool :=
  values.all fun a => values.all fun b => decide (a - b ≤ band)

/-- `ResponseCapture`.  `none` stands for NaN and for `null`; `changeValue` is read only where
`changeSinceS` is set. -/
structure ResponseCapture where
  cfg : ResponseJobConfig
  machine : CaptureStateMachine
  ring : List Row := []
  lastTs : Option ℚ := none
  droppedDuplicate : ℕ := 0
  droppedLate : ℕ := 0
  lastMode : Option Bool := none
  commandPath : CommandPath := .opToValve
  healthIneligible : Bool := false
  vpMappedAtCapture : Bool := false
  lastVpUsable : Option Bool := none
  lastEventT0 : Option ℚ := none
  changeSinceS : Option ℚ := none
  changeValue : ℚ := 0
  emitted : List EventId := []

namespace ResponseCapture

def create (cfg : ResponseJobConfig) : ResponseCapture :=
  { cfg := cfg
    machine :=
      { preSupportS := cfg.preSupportS, minCaptureS := cfg.minCaptureS, maxCaptureS := cfg.maxCaptureS } }

variable (c : ResponseCapture)

def retainedS : ℚ := c.cfg.preSupportS + c.cfg.maxCaptureS + c.cfg.tailDwellS

def idle : Bool :=
  c.machine.state = .idle || c.machine.state = .complete || c.machine.state = .rejected ||
    c.machine.state = .censored

def bundle (e : ResponseEvent) (tEnd : ℚ) : Closed :=
  let rows := bundleRows c.ring (e.t0 - c.cfg.preSupportS) tEnd
  let valid := rows.filter fun row => row.good && row.auto
  let before := (valid.filter fun row => decide (row.tS < e.t0)).getLast?
  let first := rows.headD default
  let res := resolve c.commandPath c.vpMappedAtCapture false
  { event := e
    data := ⟨rows.map Row.point, e.t0, tEnd, pairwise_points _ _ _⟩
    u0 := (before.map Row.uApplied).getD first.uApplied
    r0 := (before.map Row.sp).getD first.sp
    r1 := (valid.getLast?.map Row.sp).getD (rows.getLastD default).sp
    duApplied := if e.type = .inputTest then some (e.postAmplitude - e.preAmplitude) else none
    pathReason := res.reason
    uAppliedAvailable := res.uAppliedAvailable }

def close (e : ResponseEvent) : ResponseCapture × List Closed :=
  match e.tEndMs with
  | none => (c, [])
  | some tEndMs =>
    if e.eventId ∈ c.emitted then (c, [])
    else
      let tEnd := tEndMs / 1000
      let marked := { c with emitted := e.eventId :: c.emitted }
      if (bundleRows c.ring (e.t0 - c.cfg.preSupportS) tEnd).length < 4 then (marked, [])
      else (marked, [c.bundle e tEnd])

def closeLast : ResponseCapture × List Closed :=
  match c.machine.events.getLast? with
  | none => (c, [])
  | some e => c.close e

/-- `closeSuperseded`: the event before the newly opened one. -/
def closeSuperseded : ResponseCapture × List Closed :=
  match c.machine.events.dropLast.getLast? with
  | none => (c, [])
  | some e => c.close e

def onHealth (ineligible : Bool) (atS : ℚ) : ResponseCapture × List Closed :=
  let c := { c with healthIneligible := ineligible }
  if ineligible && c.machine.open_.isSome then
    { c with machine := c.machine.onHealthIneligible atS }.closeLast
  else (c, [])

/-- The rows that detection looks at: the last `reachS` seconds, and the newest row in any case. -/
def recent (nowS reachS : ℚ) : List Row → List Row
  | [] => []
  | [row] => [row]
  | row :: next :: rest =>
      if reachS < nowS - row.tS then recent nowS reachS (next :: rest) else row :: next :: rest

def detectorSettings (cfg : ResponseJobConfig) : ResponseEventDetector.Settings :=
  { stepMinInputEu := cfg.stepMinInputEu
    stepMinSpanFraction := cfg.stepMinSpanFraction
    span := cfg.fallbackSpanEu
    noiseMultiplier := cfg.noiseMultiplier
    preSupportS := cfg.preSupportS
    eventDwellS := cfg.eventDwellS
    rampMinSlopeEuPerS := cfg.rampMinSlopeEuPerS
    rampMinDurationS := cfg.rampMinDurationS }

def freshCandidate (rows : List Row) (signal : Row → ℚ) : Option ResponseEventDetector.Candidate :=
  (ResponseEventDetector.detect (detectorSettings c.cfg)
    (rows.map fun row => ⟨row.tS, signal row, row.good && row.auto⟩)).filter fun found =>
      c.lastEventT0.all (· < (rows.getD found.index default).tS)

def newEvent (t0 : ℚ) (type : EventType) (pathId : Path) (pre post : ℚ) : ResponseEvent :=
  { eventId := idFor (truncate (t0 * 1000)) type
    type := type
    pathId := pathId
    t0Ms := t0 * 1000
    preAmplitude := pre
    postAmplitude := post
    inputSequence := [⟨t0 * 1000, post⟩] }

/-- The event that `detect` finds on the ring: a change of the reference, else of the applied input. -/
def detected (vpMapped : Bool) (nowS : ℚ) : Option ResponseEvent :=
  if c.ring.length < 4 then none
  else
    let rows := recent nowS (c.cfg.preSupportS + c.cfg.eventDwellS) c.ring
    if rows.length < 4 then none
    else
      let at_ (i : ℕ) := rows.getD i default
      let pathId := (resolve c.commandPath vpMapped false).path
      match c.freshCandidate rows Row.sp with
      | some found =>
          some (newEvent (at_ found.index).tS
            (if found.type = .rampTracking then .rampTracking else .servoStep) pathId
            (at_ (found.index - 1)).sp (at_ found.index).sp)
      | none =>
          (c.freshCandidate rows Row.uApplied).map fun found =>
            newEvent (at_ found.index).tS .inputTest pathId
              (at_ (found.index - 1)).uApplied (at_ found.index).uApplied

def detect (vpMapped : Bool) (nowS : ℚ) : ResponseCapture :=
  match c.detected vpMapped nowS with
  | none => c
  | some e =>
    { c with
      lastEventT0 := some e.t0
      vpMappedAtCapture := vpMapped
      machine := (c.machine.onCandidate e e.t0).onSample nowS }

def changeThreshold (cfg : ResponseJobConfig) : ℚ :=
  max cfg.stepMinInputEu (cfg.stepMinSpanFraction * cfg.fallbackSpanEu)

def driving (e : ResponseEvent) (sp uApplied : ℚ) : ℚ := if e.type ≠ .inputTest then sp else uApplied

def level (e : ResponseEvent) : ℚ :=
  (e.inputSequence.getLast?.map InputChange.value).getD e.postAmplitude

def supersedeOnChange (sp uApplied nowS : ℚ) (vpMapped : Bool) : ResponseCapture × Bool :=
  match c.machine.open_ with
  | none => (c, false)
  | some open_ =>
    if nowS - open_.t0 < c.cfg.eventDwellS then (c, false)
    else
      let now := driving open_ sp uApplied
      let threshold := changeThreshold c.cfg
      if |now - level open_| < threshold then ({ c with changeSinceS := none }, false)
      else match c.changeSinceS with
      | none => ({ c with changeSinceS := some nowS, changeValue := now }, false)
      | some since =>
        -- still moving: not a step yet
        if threshold ≤ |now - c.changeValue| then
          ({ c with changeSinceS := some nowS, changeValue := now }, false)
        else if nowS - since < c.cfg.eventDwellS then (c, false)
        else
          let pathId := (resolve c.commandPath vpMapped false).path
          let next := newEvent since open_.type pathId (level open_) c.changeValue
          ({ c with
            lastEventT0 := some since
            changeSinceS := none
            machine := c.machine.onCandidate next nowS }, true)

def bandEntry (t0 yss band : ℚ) : Option ℚ → List Row → Option ℚ
  | entry, [] => entry
  | entry, row :: older =>
      if row.tS < t0 then entry
      else if !row.good then bandEntry t0 yss band entry older
      else if band < |row.pv - yss| then entry
      else bandEntry t0 yss band (some row.tS) older

def tail (nowS : ℚ) : List ℚ :=
  ((c.ring.reverse.takeWhile fun row => decide (nowS - c.cfg.tailDwellS ≤ row.tS)).filter
    Row.good).map Row.pv

def preValues (t0 : ℚ) : List ℚ :=
  (c.ring.filter fun row =>
    decide (t0 - c.cfg.preSupportS ≤ row.tS ∧ row.tS < t0) && row.good).map Row.pv

def settled (nowS : ℚ) : Bool :=
  match c.machine.open_ with
  | none => false
  | some e =>
    let tail := c.tail nowS
    if nowS - e.t0 < c.cfg.minCaptureS then false
    else if tail.length < 3 then false
    else if !within c.cfg.stableBandEu tail then false
    else
      let yss := median tail
      let pre := c.preValues e.t0
      let dy := if 3 ≤ pre.length then yss - median pre else 0
      let band := responseBand c.cfg.absSettlingBandEu c.cfg.relSettlingBand dy c.cfg.noiseFloorEu
      (bandEntry e.t0 yss band none c.ring.reverse).any fun entry =>
        decide (c.cfg.tailDwellS ≤ nowS - entry)

def segment (gap auto : Bool) (tS : ℚ) : ResponseCapture × List Closed :=
  if c.machine.open_.isNone then (c, [])
  else if gap then
    { c with machine := c.machine.onSourceGap (c.lastTs.getD tS) }.closeLast
  else if c.lastMode.any (auto != ·) && !auto then
    { c with machine := c.machine.onModeTransfer tS }.closeLast
  else (c, [])

def evict (nowS : ℚ) (ring : List Row) : List Row :=
  ring.dropWhile fun row => decide (c.retainedS < nowS - row.tS)

def joined (gap vpMapped : Bool) (row : Row) : ResponseCapture :=
  { c with
    ring := c.evict row.tS ((if gap then [] else c.ring) ++ [row])
    lastEventT0 := if gap then none else c.lastEventT0
    lastTs := some row.tS
    lastMode := some row.auto
    lastVpUsable := some vpMapped }

def finish (nowS : ℚ) : ResponseCapture × List Closed :=
  let c := { c with machine := c.machine.onSample nowS }
  if c.machine.state = .censored then c.closeLast
  else if c.settled nowS then
    let c := { c with machine := c.machine.qualified nowS }
    if c.machine.state = .qualified then
      { c with machine := c.machine.complete nowS }.closeLast
    else c.closeLast
  else (c, [])

/-- A sample may show a change of the open event's signal only when it is good and in AUT. -/
def changed (vpMapped : Bool) (row : Row) : ResponseCapture × Bool :=
  if row.good && row.auto then c.supersedeOnChange row.sp row.uApplied row.tS vpMapped
  else (c, false)

def observe (vpMapped : Bool) (row : Row) : ResponseCapture × List Closed :=
  let changed := c.changed vpMapped row
  let superseded := if changed.2 then changed.1.closeSuperseded else (changed.1, [])
  let finished := superseded.1.finish row.tS
  (finished.1, superseded.2 ++ finished.2)

def examine (vpMapped : Bool) (row : Row) : ResponseCapture × List Closed :=
  if c.healthIneligible then (c, [])
  else if c.machine.open_.isNone then
    (if row.auto && row.good then c.detect vpMapped row.tS else c, [])
  else c.observe vpMapped row

def vpMapped (s : ResponseSample) (vpUsable : Bool) : Bool := vpUsable && s.vp.isSome

def row (s : ResponseSample) (vpUsable : Bool) : Row :=
  { tS := s.eventTsMs / 1000
    pv := s.pv
    sp := s.sp
    uApplied := if vpMapped s vpUsable then s.vp.getD s.op else s.op
    good := s.isGoodQuality
    auto := s.isAutoMode }

def gapBefore (tS : ℚ) (vpMapped : Bool) : Bool :=
  c.lastTs.any (fun last => decide (c.cfg.maxGapS < tS - last)) || c.lastVpUsable.any (· != vpMapped)

def dropped (tS : ℚ) : ResponseCapture :=
  if c.lastTs = some tS then { c with droppedDuplicate := c.droppedDuplicate + 1 }
  else { c with droppedLate := c.droppedLate + 1 }

def onSample (s : ResponseSample) (vpUsable : Bool) : ResponseCapture × List Closed :=
  let row := row s vpUsable
  let vpMapped := vpMapped s vpUsable
  if c.lastTs.any (fun last => decide (row.tS ≤ last)) then (c.dropped row.tS, [])
  else
    let gap := c.gapBefore row.tS vpMapped
    let segmented := c.segment gap row.auto row.tS
    let examined := (segmented.1.joined gap vpMapped row).examine vpMapped row
    (examined.1, segmented.2 ++ examined.2)

end ResponseCapture

inductive CaptureInput
  | sample (s : ResponseSample) (vpUsable : Bool)
  | health (ineligible : Bool) (atS : ℚ)

def ResponseCapture.step (c : ResponseCapture) : CaptureInput → ResponseCapture × List Closed
  | .sample s vpUsable => c.onSample s vpUsable
  | .health ineligible atS => c.onHealth ineligible atS

end OpenBridge.Response
