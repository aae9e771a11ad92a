import OpenBridge.Foundation.Machine
import OpenBridge.Foundation.ReadDouble

/-!
# Live plane: report by exception

`LoopLiveRbeJob`: the points of one metric of one loop pass a filter that publishes a number when it
moved beyond the deadband and a text or a quality when it changed.  Timers are the times that are
registered for the key.
-/

namespace OpenBridge.LivePlane

open OpenBridge.Foundation

/-- One value of one metric at one instant. -/
structure MetricPoint where
  loopId : String
  metric : String
  ts : ℤ
  sourceTs : ℤ
  verifiedTs : ℤ
  numeric : F64
  text : Option String
  isNumeric : Bool
  quality : Option String
  deriving DecidableEq

namespace MetricPoint

def num (loopId metric : String) (ts : ℤ) (v : F64) (quality : Option String) : MetricPoint :=
  ⟨loopId, metric, ts, ts, ts, v, none, true, quality⟩

def str (loopId metric : String) (ts : ℤ) (v : Option String) (quality : Option String) :
    MetricPoint :=
  ⟨loopId, metric, ts, ts, ts, F64.ofInt 0, v, false, quality⟩

/-- The value as a text: `Double.toString` or `String.valueOf`. -/
def current (p : MetricPoint) : String :=
  if p.isNumeric then (p.numeric.map javaText).getD "NaN" else p.text.getD "null"

structure Reportable (p : MetricPoint) : Prop where
  finite : p.isNumeric = true → p.numeric.IsFinite
  text : p.isNumeric = false → p.text.isSome
  quality : p.quality.isSome

end MetricPoint

abbrev ReportedPoint := { p : MetricPoint // p.Reportable }

inductive LiveValue where
  | number (v : F64)
  | text (t : Option String)
  deriving DecidableEq

/-- A live record. -/
structure LiveRecord where
  loopId : String
  metric : String
  ts : ℤ
  sourceTs : ℤ
  verifiedTs : ℤ
  emissionTs : ℤ
  value : LiveValue
  quality : Option String
  heartbeat : Bool
  deriving DecidableEq

namespace LoopLiveRbeJob

/-- `DEFAULT_DEADBAND`. -/
def defaultDeadband : F64 := F64.ofRat (5 / 100)

/-- `DEFAULT_HEARTBEAT_SECONDS`. -/
def defaultHeartbeatSeconds : ℤ := 300

/-- Whether a value moved beyond the deadband from a text that was published: any text change, and
any number where the published text is none. -/
def moved (prevValue : String) (p : MetricPoint) (deadband : F64) : Bool :=
  if p.isNumeric then
    let prevVal : F64 := (parseDouble prevValue).getD none
    prevVal.isNone || F64.lt deadband (F64.abs (F64.sub p.numeric prevVal))
  else prevValue ≠ p.current

def shouldEmit (prevValue prevQuality : Option String) (p : MetricPoint) (deadband : F64) : Bool :=
  match prevValue with
  | none => true
  | some prevValue =>
      moved prevValue p deadband || (prevQuality.isSome && decide (prevQuality ≠ p.quality))

def render (p : MetricPoint) (heartbeat : Bool) (emissionTs : ℤ) : LiveRecord where
  loopId := p.loopId
  metric := p.metric
  ts := p.ts
  sourceTs := if p.sourceTs > 0 then p.sourceTs else p.ts
  verifiedTs := if p.verifiedTs > 0 then p.verifiedTs else p.ts
  emissionTs := emissionTs
  value := if p.isNumeric then .number p.numeric else .text p.text
  quality := p.quality
  heartbeat := heartbeat

end LoopLiveRbeJob

structure RbeFilter where
  deadband : F64
  heartbeatSeconds : ℤ

/-- The state of the filter for one key, with the timers that are registered for it. -/
structure RbeState where
  lastEmitted : Option String
  lastEmittedQuality : Option String
  lastPoint : Option MetricPoint
  timerAt : Option ℤ
  timers : Finset ℤ

namespace RbeFilter

open LoopLiveRbeJob

def start : RbeState := ⟨none, none, none, none, ∅⟩

def heartbeatMs (f : RbeFilter) : ℤ := max 0 f.heartbeatSeconds * 1000

def scheduleHeartbeat (f : RbeFilter) (now : ℤ) (s : RbeState) : RbeState :=
  if f.heartbeatMs ≤ 0 then s
  else
    let timers := match s.timerAt with
      | some prev => s.timers.erase prev
      | none => s.timers
    { s with timers := insert (now + f.heartbeatMs) timers, timerAt := some (now + f.heartbeatMs) }

/-- `onTimer`: publish the latest point again. -/
def onTimer (f : RbeFilter) (now : ℤ) (s : RbeState) : RbeState × List LiveRecord :=
  match s.lastPoint with
  | none => (s, [])
  | some p => (f.scheduleHeartbeat now s, [render p true now])

/-- `processElement`: publish the point when it is an exception. -/
def processElement (f : RbeFilter) (p : MetricPoint) (now : ℤ) (s : RbeState) :
    RbeState × List LiveRecord :=
  let emit := shouldEmit s.lastEmitted s.lastEmittedQuality p f.deadband
  let s := { s with lastPoint := some p }
  if emit then
    (f.scheduleHeartbeat now
      { s with lastEmitted := some p.current, lastEmittedQuality := p.quality },
      [render p false now])
  else (s, [])

/-- What happens to a key: a point arrives, or a timer that is registered fires. -/
inductive Event where
  | point (p : ReportedPoint) (now : ℤ)
  | timer (time now : ℤ)

/-- One event at the filter; a timer that is not registered does not fire. -/
def step (f : RbeFilter) (s : RbeState) : Event → RbeState × List LiveRecord
  | .point p now => f.processElement p now s
  | .timer time now =>
      if time ∈ s.timers then f.onTimer now { s with timers := s.timers.erase time } else (s, [])

end RbeFilter

/-!
# Live plane: what the screen shows of a metric

The filter compares a point with the last regular record, and a heartbeat publishes the latest
point, which may differ from it by the deadband: a point that is no exception may then be twice the
deadband from what the screen shows.
-/

open LoopLiveRbeJob

/-- A filter, the last record its consumer received, and the latest point that arrived. -/
structure LiveView where
  filter : RbeState
  shown : Option LiveRecord
  latest : Option MetricPoint

namespace LiveView

open RbeFilter (Event)

def start : LiveView := ⟨RbeFilter.start, none, none⟩

def arriving : Event → Option MetricPoint
  | .point p _ => some p
  | .timer .. => none

def step (f : RbeFilter) (v : LiveView) (e : Event) : LiveView × List LiveRecord :=
  (⟨(f.step v.filter e).1, (f.step v.filter e).2.getLast?.or v.shown, (arriving e).or v.latest⟩,
    (f.step v.filter e).2)

def after (f : RbeFilter) (events : List Event) : LiveView :=
  Machine.stateAfter (step f) start events

def Within (deadband a b : F64) : Prop :=
  a = b ∨ F64.lt deadband (F64.abs (F64.sub a b)) = false

/-- A value that stands for a point: a number within the deadband, or the text. -/
def ShowsValue (deadband : F64) (p : MetricPoint) : LiveValue → Prop
  | .number v => p.isNumeric = true ∧ Within deadband p.numeric v
  | .text t => p.isNumeric = false ∧ t = p.text

def Faithful (f : RbeFilter) (v : LiveView) : Prop :=
  ∀ p, v.latest = some p →
    ∃ r, v.shown = some r ∧ ShowsValue f.deadband p r.value ∧ r.quality = p.quality

/-- With heartbeats on, a key that has seen a point has one timer. -/
def OneTimer (f : RbeFilter) (v : LiveView) : Prop :=
  0 < f.heartbeatSeconds → v.latest.isSome → ∃ time, v.filter.timers = {time}

def SameKind (p : MetricPoint) : LiveValue → Prop
  | .number _ => p.isNumeric = true
  | .text _ => p.isNumeric = false

/-- A number within the deadband of a number; nothing is asked of texts. -/
def NearNumber (deadband : F64) (p : MetricPoint) : LiveValue → Prop
  | .number v => Within deadband p.numeric v
  | .text _ => True

/-- A point that is no exception has the kind of what is shown, and where a heartbeat is shown it is
within the deadband of it. -/
def Covered (f : RbeFilter) (v : LiveView) : Event → Prop
  | .timer .. => True
  | .point p _ =>
      shouldEmit v.filter.lastEmitted v.filter.lastEmittedQuality p f.deadband = false →
        ∀ r, v.shown = some r →
          SameKind p r.value ∧ (r.heartbeat = true → NearNumber f.deadband p r.value)

/-! ## What the filter remembers -/

def Remembers (text : String) : LiveValue → Prop
  | .number v => text = (v.map javaText).getD "NaN" ∧ v.IsFinite
  | .text t => t = some text

theorem current_of_text {p : MetricPoint} {t : String} (h : p.isNumeric = false)
    (ht : p.text = some t) : p.current = t := by
  unfold MetricPoint.current
  rw [h, ht]
  rfl

theorem text_eq_current {p : MetricPoint} (h : p.Reportable) (htext : p.isNumeric = false) :
    p.text = some p.current := by
  obtain ⟨t, ht⟩ := Option.isSome_iff_exists.mp (h.text htext)
  rw [current_of_text htext ht, ht]

theorem remembers_render {p : MetricPoint} (h : p.Reportable) (heartbeat : Bool) (now : ℤ) :
    Remembers p.current (render p heartbeat now).value := by
  unfold render
  cases hkind : p.isNumeric with
  | true =>
    refine ⟨?_, h.finite hkind⟩
    unfold MetricPoint.current
    rw [hkind]
    rfl
  | false => exact text_eq_current h hkind

theorem shows_render (deadband : F64) (p : MetricPoint) (heartbeat : Bool) (now : ℤ) :
    ShowsValue deadband p (render p heartbeat now).value := by
  unfold render
  cases hkind : p.isNumeric with
  | true => exact ⟨hkind, Or.inl rfl⟩
  | false => exact ⟨hkind, rfl⟩

theorem moved_number {text : String} {v deadband : F64} {p : MetricPoint}
    (h : Remembers text (.number v)) (hkind : p.isNumeric = true) :
    moved text p deadband = F64.lt deadband (F64.abs (F64.sub p.numeric v)) := by
  obtain ⟨rfl, q, rfl, hexact⟩ := h
  unfold moved
  rw [if_pos hkind]
  have hread : parseDouble (((some (Double.finite q) : F64).map javaText).getD "NaN") =
      some (some (.finite q)) := parseDouble_javaText hexact
  rw [hread]
  rfl

theorem moved_text {text : String} {deadband : F64} {p : MetricPoint} (hkind : p.isNumeric = false) :
    moved text p deadband = decide (text ≠ p.current) := by
  unfold moved
  rw [hkind]
  rfl

/-! ## The filter and its consumer -/

/-- What the filter remembers, the record that is shown, and the latest point. -/
structure Seen (v : LiveView) (p : MetricPoint) (r : LiveRecord) (text : String) : Prop where
  shown : v.shown = some r
  emitted : v.filter.lastEmitted = some text
  emittedQuality : v.filter.lastEmittedQuality = p.quality
  quality : r.quality = p.quality
  latestText : p.isNumeric = false → p.text = some text
  regular : r.heartbeat = false → Remembers text r.value
  shownText : ∀ t, r.value = .text t → t = some text

structure Sound (f : RbeFilter) (v : LiveView) : Prop where
  latest : v.filter.lastPoint = v.latest
  fresh : v.latest = none → v.filter = RbeFilter.start
  reportable : ∀ p, v.latest = some p → p.Reportable
  seen : ∀ p, v.latest = some p → ∃ r text, Seen v p r text
  timer : 0 < f.heartbeatSeconds → v.latest.isSome →
    ∃ time, v.filter.timers = {time} ∧ v.filter.timerAt = some time

variable {f : RbeFilter} {v : LiveView} {p : MetricPoint}

theorem schedule_frame (now : ℤ) (s : RbeState) :
    (f.scheduleHeartbeat now s).lastEmitted = s.lastEmitted ∧
      (f.scheduleHeartbeat now s).lastEmittedQuality = s.lastEmittedQuality ∧
        (f.scheduleHeartbeat now s).lastPoint = s.lastPoint := by
  unfold RbeFilter.scheduleHeartbeat
  split
  · exact ⟨rfl, rfl, rfl⟩
  · exact ⟨rfl, rfl, rfl⟩

theorem schedule_timer {s : RbeState} (h : 0 < f.heartbeatSeconds) (now : ℤ)
    (hs : s.timers = ∅ ∨ ∃ time, s.timerAt = some time ∧ s.timers = {time}) :
    ∃ time, (f.scheduleHeartbeat now s).timers = {time} ∧
      (f.scheduleHeartbeat now s).timerAt = some time := by
  have hon : ¬ f.heartbeatMs ≤ 0 := by
    unfold RbeFilter.heartbeatMs
    omega
  refine ⟨now + f.heartbeatMs, ?_, ?_⟩
  · unfold RbeFilter.scheduleHeartbeat
    rw [if_neg hon]
    dsimp only
    rcases hs with hempty | ⟨time, htime, htimers⟩
    · cases s.timerAt with
      | none => simp [hempty]
      | some prev => simp [hempty]
    · rw [htime, htimers]
      simp
  · unfold RbeFilter.scheduleHeartbeat
    rw [if_neg hon]

theorem sound_start (f : RbeFilter) : Sound f start where
  latest := rfl
  fresh := fun _ => rfl
  reportable := nofun
  seen := nofun
  timer := nofun

theorem Sound.timers (h : Sound f v) (hon : 0 < f.heartbeatSeconds) :
    v.filter.timers = ∅ ∨ ∃ time, v.filter.timerAt = some time ∧ v.filter.timers = {time} := by
  cases hlatest : v.latest with
  | none =>
    rw [h.fresh hlatest]
    exact Or.inl rfl
  | some p =>
    obtain ⟨time, htimers, htime⟩ := h.timer hon (by rw [hlatest]; rfl)
    exact Or.inr ⟨time, htime, htimers⟩

theorem Sound.unexceptional (h : Sound f v)
    (hemit : shouldEmit v.filter.lastEmitted v.filter.lastEmittedQuality p f.deadband = false) :
    ∃ p₀ r text, v.latest = some p₀ ∧ Seen v p₀ r text ∧ moved text p f.deadband = false ∧
      p.quality = p₀.quality := by
  cases hlatest : v.latest with
  | none =>
    rw [h.fresh hlatest] at hemit
    cases hemit
  | some p₀ =>
    obtain ⟨r, text, hseen⟩ := h.seen p₀ hlatest
    have hquality := (h.reportable p₀ hlatest).quality
    rw [hseen.emitted, hseen.emittedQuality] at hemit
    unfold shouldEmit at hemit
    dsimp only at hemit
    rw [Bool.or_eq_false_iff, hquality, Bool.true_and, decide_eq_false_iff_not, not_not] at hemit
    exact ⟨p₀, r, text, rfl, hseen, hemit.1, hemit.2.symm⟩

theorem step_emit {p : ReportedPoint} {now : ℤ}
    (h : shouldEmit v.filter.lastEmitted v.filter.lastEmittedQuality p f.deadband = true) :
    (step f v (.point p now)).1 =
      ⟨f.scheduleHeartbeat now { v.filter with
          lastPoint := some p.1, lastEmitted := some p.1.current, lastEmittedQuality := p.1.quality },
        some (render p false now), some p.1⟩ := by
  unfold step RbeFilter.step RbeFilter.processElement
  dsimp only
  rw [if_pos h]
  rfl

theorem step_suppress {p : ReportedPoint} {now : ℤ}
    (h : shouldEmit v.filter.lastEmitted v.filter.lastEmittedQuality p f.deadband = false) :
    (step f v (.point p now)).1 =
      ⟨{ v.filter with lastPoint := some p.1 }, v.shown, some p.1⟩ := by
  unfold step RbeFilter.step RbeFilter.processElement
  dsimp only
  rw [if_neg (Bool.eq_false_iff.mp h)]
  rfl

theorem Sound.emit (h : Sound f v) {p : ReportedPoint} {now : ℤ}
    (hemit : shouldEmit v.filter.lastEmitted v.filter.lastEmittedQuality p f.deadband = true) :
    Sound f (step f v (.point p now)).1 := by
  rw [step_emit hemit]
  refine ⟨(schedule_frame now _).2.2, nofun, ?_, ?_, ?_⟩
  · intro p' hp'
    obtain rfl := Option.some.inj hp'
    exact p.2
  · intro p' hp'
    obtain rfl := Option.some.inj hp'
    refine ⟨_, p.1.current, rfl, (schedule_frame now _).1, (schedule_frame now _).2.1, rfl,
      text_eq_current p.2, fun _ => remembers_render p.2 false now, fun t ht => ?_⟩
    have hremembers := remembers_render p.2 false now
    rw [ht] at hremembers
    exact hremembers
  · intro hon _
    exact schedule_timer hon now (h.timers hon)

theorem Sound.suppress (h : Sound f v) {p : ReportedPoint} {now : ℤ}
    (hemit : shouldEmit v.filter.lastEmitted v.filter.lastEmittedQuality p f.deadband = false) :
    Sound f (step f v (.point p now)).1 := by
  obtain ⟨p₀, r, text, hlatest, hseen, hmoved, hquality⟩ := h.unexceptional hemit
  rw [step_suppress hemit]
  refine ⟨rfl, nofun, ?_, ?_, ?_⟩
  · intro p' hp'
    obtain rfl := Option.some.inj hp'
    exact p.2
  · intro p' hp'
    obtain rfl := Option.some.inj hp'
    refine ⟨r, text, hseen.shown, hseen.emitted, hseen.emittedQuality.trans hquality.symm,
      hseen.quality.trans hquality.symm, fun hkind => ?_, hseen.regular, hseen.shownText⟩
    rw [moved_text hkind, decide_eq_false_iff_not, not_not] at hmoved
    rw [hmoved]
    exact text_eq_current p.2 hkind
  · intro hon _
    exact h.timer hon (by rw [hlatest]; rfl)

theorem step_timer {time now : ℤ} (hmem : time ∈ v.filter.timers)
    (hlatest : v.filter.lastPoint = some p) :
    (step f v (.timer time now)).1 =
      ⟨f.scheduleHeartbeat now { v.filter with timers := v.filter.timers.erase time },
        some (render p true now), v.latest⟩ := by
  unfold step RbeFilter.step RbeFilter.onTimer
  dsimp only
  rw [if_pos hmem, hlatest]
  rfl

theorem step_idle {time now : ℤ} (hmem : time ∉ v.filter.timers) :
    (step f v (.timer time now)).1 = v := by
  unfold step RbeFilter.step
  dsimp only
  rw [if_neg hmem]
  rfl

theorem Sound.latest_of_timer (h : Sound f v) {time : ℤ} (hmem : time ∈ v.filter.timers) :
    ∃ p, v.latest = some p := by
  cases hlatest : v.latest with
  | none =>
    rw [h.fresh hlatest] at hmem
    cases hmem
  | some p => exact ⟨p, rfl⟩

theorem Sound.fire (h : Sound f v) {time now : ℤ} (hmem : time ∈ v.filter.timers) :
    Sound f (step f v (.timer time now)).1 := by
  obtain ⟨p, hlatest⟩ := h.latest_of_timer hmem
  obtain ⟨r, text, hseen⟩ := h.seen p hlatest
  rw [step_timer hmem (h.latest.trans hlatest), hlatest]
  refine ⟨(schedule_frame now _).2.2.trans (h.latest.trans hlatest), nofun, ?_, ?_, ?_⟩
  · intro p' hp'
    obtain rfl := Option.some.inj hp'
    exact h.reportable p hlatest
  · intro p' hp'
    obtain rfl := Option.some.inj hp'
    refine ⟨_, text, rfl, (schedule_frame now _).1.trans hseen.emitted,
      (schedule_frame now _).2.1.trans hseen.emittedQuality, rfl, hseen.latestText, nofun,
      fun t ht => ?_⟩
    have hshows := shows_render f.deadband p true now
    rw [ht] at hshows
    exact hshows.2.trans (hseen.latestText hshows.1)
  · intro hon _
    obtain ⟨time', htimers, htime⟩ := h.timer hon (by rw [hlatest]; rfl)
    refine schedule_timer hon now (Or.inl ?_)
    rw [htimers] at hmem ⊢
    obtain rfl := Finset.mem_singleton.mp hmem
    exact Finset.erase_singleton time

theorem Sound.step (h : Sound f v) (e : Event) : Sound f (step f v e).1 := by
  cases e with
  | point p now =>
    cases hemit : shouldEmit v.filter.lastEmitted v.filter.lastEmittedQuality p f.deadband with
    | true => exact h.emit hemit
    | false => exact h.suppress hemit
  | timer time now =>
    by_cases hmem : time ∈ v.filter.timers
    · exact h.fire hmem
    · rw [step_idle hmem]
      exact h

/-! ## What the screen shows after an event -/

theorem shows_iff {r : LiveRecord} {text : String} {p₀ : MetricPoint} (hp : p.Reportable)
    (hseen : Seen v p₀ r text) (hmoved : moved text p f.deadband = false) :
    ShowsValue f.deadband p r.value ↔
      SameKind p r.value ∧ (r.heartbeat = true → NearNumber f.deadband p r.value) := by
  cases hvalue : r.value with
  | number x =>
    refine and_congr_right fun hkind => ⟨fun h _ => h, fun hnear => ?_⟩
    cases hheartbeat : r.heartbeat with
    | true => exact hnear hheartbeat
    | false =>
      have hremembers := hseen.regular hheartbeat
      rw [hvalue] at hremembers
      rw [moved_number hremembers hkind] at hmoved
      exact Or.inr hmoved
  | text t =>
    have htext := hseen.shownText t hvalue
    refine ⟨fun h => ⟨h.1, fun _ => trivial⟩, fun h => ⟨h.1, ?_⟩⟩
    rw [moved_text h.1, decide_eq_false_iff_not, not_not] at hmoved
    rw [htext, hmoved]
    exact (text_eq_current hp h.1).symm

theorem faithful_point_iff (h : Sound f v) (p : ReportedPoint) (now : ℤ) :
    Faithful f (LiveView.step f v (.point p now)).1 ↔ Covered f v (.point p now) := by
  unfold Covered
  dsimp only
  cases hemit : shouldEmit v.filter.lastEmitted v.filter.lastEmittedQuality p f.deadband with
  | true =>
    rw [step_emit hemit]
    refine iff_of_true ?_ (fun hfalse => absurd hfalse (by simp))
    intro p' hp'
    obtain rfl := Option.some.inj hp'
    exact ⟨_, rfl, shows_render f.deadband p.1 false now, rfl⟩
  | false =>
    obtain ⟨p₀, r, text, hlatest, hseen, hmoved, hquality⟩ := h.unexceptional hemit
    rw [step_suppress hemit]
    unfold Faithful
    simp only [Option.some.injEq, forall_eq', hseen.shown, exists_eq_left']
    rw [shows_iff p.2 hseen hmoved, true_imp_iff]
    exact and_iff_left (hseen.quality.trans hquality.symm)

theorem faithful_timer (h : Sound f v) (hfaithful : Faithful f v) (time now : ℤ) :
    Faithful f (LiveView.step f v (.timer time now)).1 := by
  by_cases hmem : time ∈ v.filter.timers
  · obtain ⟨p, hlatest⟩ := h.latest_of_timer hmem
    rw [step_timer hmem (h.latest.trans hlatest), hlatest]
    intro p' hp'
    obtain rfl := Option.some.inj hp'
    exact ⟨_, rfl, shows_render f.deadband p true now, rfl⟩
  · rw [step_idle hmem]
    exact hfaithful

theorem sound_after (f : RbeFilter) (events : List Event) : Sound f (after f events) :=
  Machine.invariant (Sound f) (sound_start f) (fun _ e h => h.step e) events

theorem Sound.oneTimer (h : Sound f v) : OneTimer f v := by
  intro hon hseen
  obtain ⟨time, htimers, -⟩ := h.timer hon hseen
  exact ⟨time, htimers⟩

/-- **Report by exception**: the screen shows the latest point after every event exactly when every
point that is no exception is covered by what is shown. -/
theorem faithful_throughout_iff (f : RbeFilter) (events : List Event) :
    (∀ pre, pre <+: events → Faithful f (after f pre) ∧ OneTimer f (after f pre)) ↔
      Machine.Always (LiveView.step f) (Covered f) start events := by
  rw [← Machine.throughout_iff_always (LiveView.step f) (Covered f)
    (Q := fun v => Sound f v ∧ Faithful f v) ⟨sound_start f, nofun⟩ ?_ events]
  · refine forall_congr' fun pre => imp_congr_right fun _ => ?_
    have hsound := sound_after f pre
    exact ⟨fun h => ⟨hsound, h.1⟩, fun h => ⟨h.2, hsound.oneTimer⟩⟩
  · rintro v e ⟨hsound, hfaithful⟩
    rw [and_iff_right (hsound.step e)]
    cases e with
    | point p now => exact faithful_point_iff hsound p now
    | timer time now => exact iff_of_true (faithful_timer hsound hfaithful time now) trivial

/-! A process value that drifts up by the deadband, a heartbeat, and a drift down. -/

private def reading (v : ℚ) (h : (Double.ofRat v).isFinite = true) (ts : ℤ) : ReportedPoint :=
  ⟨.num "FIC-101" "pv" ts (F64.ofRat v) (some "GOOD"), fun _ => F64.ofRat_isFinite h, nofun, rfl⟩

private def drift : List Event :=
  [.point (reading 1 (by decide +kernel) 0) 0, .point (reading (5 / 4) (by decide +kernel) 5) 5,
    .timer 300000 300000, .point (reading (3 / 4) (by decide +kernel) 300005) 300005]

private def driftFilter : RbeFilter := ⟨F64.ofRat (3 / 8), defaultHeartbeatSeconds⟩

/-- With a deadband of 0.375 the screen shows 1.25 when the latest value is 0.75. -/
theorem heartbeat_hides_drift :
    ¬ ∀ (f : RbeFilter) (events pre : List Event), pre <+: events →
      Faithful f (after f pre) ∧ OneTimer f (after f pre) := by
  intro h
  have hlatest : (after driftFilter drift).latest.map (·.numeric) = some (F64.ofRat (3 / 4)) := by
    decide +kernel
  have hshown : (after driftFilter drift).shown.map (·.value) =
      some (.number (F64.ofRat (5 / 4))) := by
    decide +kernel
  obtain ⟨p, hp, hnumeric⟩ := Option.map_eq_some_iff.mp hlatest
  obtain ⟨r, hr, hshows, -⟩ := (h driftFilter drift drift List.prefix_rfl).1 p hp
  rw [hr] at hshown
  have hvalue : r.value = .number (F64.ofRat (5 / 4)) := Option.some.inj hshown
  rw [hvalue] at hshows
  have hwithin := hshows.2
  rw [hnumeric] at hwithin
  revert hwithin
  unfold Within driftFilter
  decide +kernel

end LiveView

end OpenBridge.LivePlane
