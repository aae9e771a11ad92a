import Mathlib.Data.List.DropRight
import OpenBridge.Foundation.EventTime
import OpenBridge.Samples.CplmNormalizedSample
import OpenBridge.ShortWindow.ShortWindowSpecs

/-!
# Short windows: the buffer of one loop

`ShortFeatureBufferFn`: every sample is stored once under its arrival sequence, and an index of the
sequences of each minute turns a window into a run of minutes.  A sample is stored without its
profile, which the loop's registry keeps once under the key of its content.  The profiles are those
of any type with such a key.
-/

namespace OpenBridge.ShortWindow

open OpenBridge.Foundation
open OpenBridge.Samples (CplmNormalizedSample)

structure TimedSample (π : Type) where
  ts : ℤ
  sample : CplmNormalizedSample
  resolvedProfile : Option π

structure Member (π : Type) where
  sample : CplmNormalizedSample
  resolvedProfile : Option π

/-- A firing: the window of a kind that ends at a time, with its members in arrival order. -/
structure Firing (π : Type) where
  spec : Spec
  windowEnd : ℤ
  members : List (Member π)

structure BufferedSample where
  seq : ℤ
  ts : ℤ
  sample : CplmNormalizedSample
  profileKey : Option String

/-- One stored profile, and the latest buffered minute with a sample of it. -/
structure ProfileEntry (π : Type) where
  profile : π
  lastMinute : ℤ

/-- `RETAINED_SECONDS`. -/
def retainedSeconds : ℤ := 66 * 60

/-- `capFor`: the configured cap, or 1.4 times the samples of the retained span on the declared
grid. -/
def capFor (gridSeconds configured : ℤ) : ℤ :=
  if 0 < configured then configured
  else
    let grid := if 0 < gridSeconds then gridSeconds else 5
    let tenGrids := wrap32 (10 * grid)
    max (Int.tdiv (wrap32 (14 * retainedSeconds + tenGrids - 1)) tenGrids) 1100

/-- `ShortProfileRegistry`: the distinct profiles of a loop by their keys. -/
abbrev ShortProfileRegistry (π : Type) := Dict String (ProfileEntry π)

namespace ShortProfileRegistry

variable {π : Type}

/-- `detachAndRemember`: the profile is kept once under its key, with the latest minute. -/
def detachAndRemember (fingerprint : π → String) (profile : Option π) (minute : ℤ)
    (entries : ShortProfileRegistry π) : ShortProfileRegistry π × Option String :=
  match profile with
  | none => (entries, none)
  | some profile =>
      let key := fingerprint profile
      match entries.get? key with
      | none => (entries.set key ⟨profile, minute⟩, some key)
      | some e =>
          if e.lastMinute < minute then (entries.set key ⟨e.profile, minute⟩, some key)
          else (entries, some key)

/-- `attach`: every sample of a range with the profile of its key.  A key without an entry throws. -/
def attach (entries : ShortProfileRegistry π) (range : List BufferedSample) :
    Option (List (BufferedSample × Option π)) :=
  range.mapM fun b =>
    match b.profileKey with
    | none => some (b, none)
    | some key => (entries.get? key).map fun e => (b, some e.profile)

/-- `evictBefore`: drop every profile whose samples all sat in earlier minutes. -/
def evictBefore (firstKeptMinute : ℤ) (entries : ShortProfileRegistry π) : ShortProfileRegistry π :=
  (entries.entries.filter fun e => e.2.lastMinute < firstKeptMinute).foldl
    (fun kept e => kept.erase e.1) entries

end ShortProfileRegistry

/-- The keyed state.  `minutes` that are absent and empty are not told apart by the source. -/
structure ShortFeatureBufferFn (π : Type) where
  samples : Dict ℤ BufferedSample
  minuteIndex : Dict ℤ (List ℤ)
  minutes : List ℤ
  nextSeq : Option ℤ
  profiles : ShortProfileRegistry π
  bufferCount : Option ℤ

def liveWindows (wm ts : ℤ) : List (Spec × ℤ) :=
  ShortWindowSpecs.all.flatMap fun spec =>
    ((spec.windowEnds ts).filter fun e => wm < spec.cleanupTime e).map fun e => (spec, e)

/-- `fireNow`: the windows of a sample that are late but allowed. -/
def fireNow (wm ts : ℤ) : List (Spec × ℤ) := (liveWindows wm ts).filter fun f => f.2 - 1 ≤ wm

/-- `firstOnTimeEnd`: the first end of the windows of a sample that are on time, if there is one. -/
def firstOnTimeEnd (wm ts : ℤ) : Option ℤ :=
  (((liveWindows wm ts).filter fun f => wm < f.2 - 1).map Prod.snd).min?

namespace ShortFeatureBufferFn

variable {π : Type}

def new : ShortFeatureBufferFn π := ⟨Dict.empty, Dict.empty, [], none, Dict.empty, none⟩

variable (f : ShortFeatureBufferFn π)

/-- `holds`: a sample with the timestamp is buffered under one of the sequences. -/
def holds (idx : List ℤ) (ts : ℤ) : Bool :=
  idx.any fun s => (f.samples.get? s).any fun b => b.ts = ts

def bufferedSizeSlow : ℤ :=
  (f.minutes.map fun m => (((f.minuteIndex.get? m).getD []).length : ℤ)).sum

/-- `count`: the running count, counted once from the index where it is absent. -/
def count : ℤ × ShortFeatureBufferFn π :=
  match f.bufferCount with
  | some c => (c, f)
  | none =>
      let n := f.bufferedSizeSlow
      (n, if 0 < n then { f with bufferCount := some n } else f)

/-- `dropMinute`: remove the samples and the index entry of a minute. -/
def dropMinute (minute : ℤ) : ShortFeatureBufferFn π :=
  { f with
    samples := ((f.minuteIndex.get? minute).getD []).foldl Dict.erase f.samples
    minuteIndex := f.minuteIndex.erase minute }

/-- How many samples `dropMinute` removes. -/
def sizeOfMinute (minute : ℤ) : ℤ := ((f.minuteIndex.get? minute).getD []).length

def dropWhile (p : ℤ → ℤ → Bool) :
    List ℤ → ℤ → ShortFeatureBufferFn π → ShortFeatureBufferFn π × ℤ × List ℤ
  | [], count, f => (f, count, [])
  | m :: rest, count, f =>
      if p count m then dropWhile p rest (count - f.sizeOfMinute m) (f.dropMinute m)
      else (f, count, m :: rest)

/-- `keepFrom`: keep the minutes that are left, and the profiles with samples in them. -/
def keepFrom (left : List ℤ) : ShortFeatureBufferFn π :=
  match left with
  | [] => { f with minutes := [], bufferCount := none, profiles := Dict.empty }
  | first :: _ => { f with minutes := left, profiles := f.profiles.evictBefore first }

/-- `shrinkBefore`: evict whole oldest minutes before `m` until at most `target` samples remain. -/
def shrinkBefore (m target count : ℤ) : ℤ × ShortFeatureBufferFn π :=
  let dropped := dropWhile (fun count minute => target < count ∧ minute < m) f.minutes count f
  let kept := if dropped.2.2 = f.minutes then dropped.1 else dropped.1.keepFrom dropped.2.2
  (dropped.2.1,
    if dropped.2.2 = [] then kept else { kept with bufferCount := some dropped.2.1 })

/-- `addMinute`: a new minute is inserted from the end, before the minutes that are later. -/
def addMinute (m : ℤ) (ms : List ℤ) : List ℤ :=
  ms.rdropWhile (fun x => m < x) ++ m :: ms.rtakeWhile fun x => m < x

def append (fingerprint : π → String) (x : TimedSample π) (idx : Option (List ℤ)) :
    ShortFeatureBufferFn π :=
  let m := minuteOf x.ts
  let seq := f.nextSeq.getD 0
  let remembered := f.profiles.detachAndRemember fingerprint x.resolvedProfile m
  { f with
    nextSeq := some (seq + 1)
    profiles := remembered.1
    samples := f.samples.set seq ⟨seq, x.ts, x.sample, remembered.2⟩
    minuteIndex := f.minuteIndex.set m (idx.getD [] ++ [seq])
    minutes := if idx.isNone then addMinute m f.minutes else f.minutes }

/-- `read`: the buffered samples of the minutes that meet `[start, stop)`, in arrival order. -/
def read (start stop : ℤ) : List BufferedSample :=
  ((f.minutes.filter fun m => start < m + minuteMs ∧ m < stop).flatMap fun m =>
    ((f.minuteIndex.get? m).getD []).filterMap f.samples.get?).mergeSort fun a b => a.seq ≤ b.seq

end ShortFeatureBufferFn

/-- `fire`: the window of a kind that ends at a time, when it has members. -/
def fire {π : Type} (range : List (BufferedSample × Option π)) (spec : Spec) (e : ℤ) :
    List (Firing π) :=
  let members := (range.filter fun b => e - spec.sizeMs ≤ b.1.ts ∧ b.1.ts < e).map fun b =>
    Member.mk b.1.sample b.2
  if members = [] then [] else [⟨spec, e, members⟩]

namespace ShortFeatureBufferFn

variable {π : Type} (f : ShortFeatureBufferFn π)

/-- Fire several windows from one range that spans them.  `none` is the exception of `attach`. -/
def fireAll (windows : List (Spec × ℤ)) : Option (List (Firing π)) :=
  match (windows.map fun w => w.2 - w.1.sizeMs).min?, (windows.map Prod.snd).max? with
  | some start, some stop =>
      (f.profiles.attach (f.read start stop)).map fun range =>
        windows.flatMap fun w => fire range w.1 w.2
  | _, _ => some []

/-- The timer that a stored sample registers: the first boundary at which it is due on time, or else
the end of the minute of the watermark, which keeps the eviction going. -/
def timerFor (wm ts : ℤ) : ℤ :=
  match firstOnTimeEnd wm ts with
  | some e => e - 1
  | none => minuteOf wm + minuteMs - 1

/-- `processElement`: the state, what is fired now, and the timer that is registered.  At the cap,
whole oldest minutes go first, and then the sample itself. -/
def processElement (fingerprint : π → String) (maxSamplesPerLoop wm : ℤ) (x : TimedSample π) :
    ShortFeatureBufferFn π × Option (List (Firing π)) × Option ℤ :=
  if liveWindows wm x.ts = [] then (f, some [], none)
  else
    let idx := f.minuteIndex.get? (minuteOf x.ts)
    if idx.any fun seqs => f.holds seqs x.ts then (f, some [], none)
    else
      let cap := capFor x.sample.gridSeconds maxSamplesPerLoop
      let counted := f.count
      let room :=
        if cap ≤ counted.1 then counted.2.shrinkBefore (minuteOf x.ts) (cap - 1) counted.1
        else counted
      if cap ≤ room.1 then (room.2, some [], none)
      else
        let stored := ({ room.2 with bufferCount := some (room.1 + 1) }).append fingerprint x idx
        (stored, stored.fireAll (fireNow wm x.ts), some (timerFor wm x.ts))

/-- `evict`: drop every minute that no window can need after `t`, and whether anything is left. -/
def evict (t : ℤ) : ShortFeatureBufferFn π × Bool :=
  if f.minutes = [] then (f, false)
  else
    let counted := f.count
    let dropped := dropWhile
      (fun _ minute => ShortWindowSpecs.retainUntil (minute + minuteMs - 1) ≤ t) f.minutes
      counted.1 counted.2
    if dropped.2.2 = [] then ({ dropped.1.keepFrom [] with nextSeq := none }, false)
    else if dropped.2.2 = f.minutes then (dropped.1, true)
    else ({ dropped.1.keepFrom dropped.2.2 with bufferCount := some dropped.2.1 }, true)

def nextBoundary (t : ℤ) : ℤ := minuteOf t + 2 * minuteMs - 1

theorem lt_nextBoundary (t : ℤ) : t < nextBoundary t := by
  have h := lt_minuteOf_add t
  simp only [nextBoundary, minuteMs] at h ⊢
  omega

def dueAt (t : ℤ) : List (Spec × ℤ) :=
  (ShortWindowSpecs.all.filter fun spec => spec.endsAt (t + 1)).map fun spec => (spec, t + 1)

/-- `onTimer`: fire every window that ends at the boundary, evict, and register the next boundary
while anything is left.  Nothing is emitted where `attach` throws. -/
def onTimer (t : ℤ) : ShortFeatureBufferFn π × List (Firing π) × Option {u : ℤ // t < u} :=
  let evicted := f.evict t
  (evicted.1, (f.fireAll (dueAt t)).getD [],
    if evicted.2 then some ⟨nextBoundary t, lt_nextBoundary t⟩ else none)

end ShortFeatureBufferFn

/-! ## The operator -/

inductive Event (π : Type) where
  | sample (x : TimedSample π)
  | watermark (w : ℤ)

structure BufferOperator (π : Type) where
  fn : ShortFeatureBufferFn π
  timers : Timers
  watermark : ℤ

namespace BufferOperator

variable {π : Type}

def new : BufferOperator π := ⟨ShortFeatureBufferFn.new, Timers.empty, minLong⟩

def step (fingerprint : π → String) (maxSamplesPerLoop : ℤ) (o : BufferOperator π) :
    Event π → BufferOperator π × List (Firing π)
  | .sample x =>
      let processed := o.fn.processElement fingerprint maxSamplesPerLoop o.watermark x
      ({ o with
          fn := processed.1
          timers := processed.2.2.elim o.timers fun t => o.timers.register t },
        processed.2.1.getD [])
  | .watermark w =>
      let advanced := advance ShortFeatureBufferFn.onTimer w o.timers o.fn
      (⟨advanced.2.1, advanced.1, w⟩, advanced.2.2)

end BufferOperator

end OpenBridge.ShortWindow
