import OpenBridge.Foundation.BufferedWrites
import OpenBridge.LivePlane.LiveMetric
import Mathlib.Algebra.Order.Monoid.Unbundled.WithTop

/-!
# Live plane: the values on the screen

`mqttStore.ts`: births and snapshot responses write the map of live metrics at once; the values of
`DDATA` wait in `pendingMetrics` for the flush of the next 100 ms.  The alarm records and the trend
buffers are left out, and a snapshot may be requested at any moment.
-/

namespace OpenBridge.LivePlane

open OpenBridge.Foundation

variable {ν : Type}

/-- A metric of a decoded payload; the name of a metric that carries none is empty. -/
structure DecodedMetric (ν : Type) extends SparkplugMetric ν where
  name : String
  metricAlias : Option ℕ
  /-- `m.value !== undefined`. -/
  hasValue : Bool

/-- The `assets` of a snapshot response: the records of the metrics of each device. -/
abbrev Assets (ν : Type) := List (String × List (String × JsonValue ν))

def LiveMetric.sourceTime (m : LiveMetric ν) : WithBot ν :=
  match m.ts with
  | none => ⊥
  | some t => t

structure MqttStore (ν : Type) where
  metrics : Dict String (LiveMetric ν)
  aliasMap : Dict ℕ String
  pendingMetrics : Dict String (LiveMetric ν)
  flushTimer : Bool

namespace MqttStore

/-- `device/metric`. -/
def metricKey (device metric : String) : String := device ++ "/" ++ metric

def initial : MqttStore ν := ⟨.empty, .empty, .empty, false⟩

/-! ## The writers -/

/-- A metric of `DBIRTH`: its alias is registered, its value is shown. -/
def born (numbers : JsNumbers ν) (device : String) (payloadTs : ν) (s : MqttStore ν)
    (m : DecodedMetric ν) : MqttStore ν :=
  let s := match m.metricAlias with
    | some a => if m.name ≠ "" then { s with aliasMap := s.aliasMap.set a m.name } else s
    | none => s
  if m.name ≠ "" ∧ m.hasValue then
    { s with
      metrics := s.metrics.set (metricKey device m.name)
        (.metricFromSparkplug numbers m.toSparkplugMetric payloadTs) }
  else s

/-- The name of a metric of `DDATA`. -/
def nameOf (aliasMap : Dict ℕ String) (m : DecodedMetric ν) : String :=
  if m.name ≠ "" then m.name
  else (m.metricAlias.bind aliasMap.get?).getD ("alias_" ++ (m.metricAlias.map toString).getD "undefined")

/-- `handleMessage`; the parts of the topic are version, group, verb, edge and device. -/
def handleMessage (numbers : JsNumbers ν) (topic : List String) (timestamp : Option ν)
    (metrics : List (DecodedMetric ν)) (now : ν) (s : MqttStore ν) : MqttStore ν :=
  let verb := topic.getD 2 ""
  let device := topic.getD 4 ""
  let ts := timestamp.getD now
  if verb = "NBIRTH" then { s with aliasMap := .empty }
  else if verb = "DBIRTH" then metrics.foldl (born numbers device ts) s
  else if verb = "DDATA" then
    { s with
      pendingMetrics := metrics.foldl (fun pending m =>
        pending.set (metricKey device (nameOf s.aliasMap m))
          (.metricFromSparkplug numbers m.toSparkplugMetric ts)) s.pendingMetrics
      flushTimer := true }
  else s

/-- The callback of `scheduleFlush`. -/
def flush (s : MqttStore ν) : MqttStore ν :=
  if s.flushTimer then
    { s with
      metrics := s.pendingMetrics.entries.foldl (fun d e => d.set e.1 e.2) s.metrics
      pendingMetrics := .empty
      flushTimer := false }
  else s

def applySnapshotAssets (numbers : JsNumbers ν) (assets : Assets ν) (s : MqttStore ν) :
    MqttStore ν :=
  { s with
    metrics := assets.foldl (fun d asset => asset.2.foldl (fun d record =>
      match LiveMetric.parseSnapshotMetric numbers record.2 with
      | none => d
      | some mv => d.set (metricKey asset.1 record.1) mv) d) s.metrics }

/-! ## The values they write -/

def birthValues (numbers : JsNumbers ν) (device : String) (payloadTs : ν)
    (metrics : List (DecodedMetric ν)) : List (String × LiveMetric ν) :=
  metrics.filterMap fun m =>
    if m.name ≠ "" ∧ m.hasValue then
      some (metricKey device m.name, .metricFromSparkplug numbers m.toSparkplugMetric payloadTs)
    else none

def dataValues (numbers : JsNumbers ν) (aliasMap : Dict ℕ String) (device : String) (ts : ν)
    (metrics : List (DecodedMetric ν)) : List (String × LiveMetric ν) :=
  metrics.map fun m =>
    (metricKey device (nameOf aliasMap m), .metricFromSparkplug numbers m.toSparkplugMetric ts)

def snapshotValues (numbers : JsNumbers ν) (assets : Assets ν) : List (String × LiveMetric ν) :=
  assets.flatMap fun asset => asset.2.filterMap fun record =>
    (LiveMetric.parseSnapshotMetric numbers record.2).map (metricKey asset.1 record.1, ·)

def buffered (s : MqttStore ν) : Buffered String (LiveMetric ν) := ⟨s.metrics, s.pendingMetrics⟩

theorem buffered_born (numbers : JsNumbers ν) (device : String) (payloadTs : ν) (s : MqttStore ν)
    (m : DecodedMetric ν) : (born numbers device payloadTs s m).buffered =
      s.buffered.apply (.write (birthValues numbers device payloadTs [m])) := by
  unfold born birthValues
  dsimp only
  rw [List.filterMap_cons, List.filterMap_nil]
  split
  · split
    · split <;> rfl
    · rfl
  · split
    · split <;> rfl
    · rfl

theorem apply_write_append (b : Buffered String (LiveMetric ν))
    (ws ws' : List (String × LiveMetric ν)) :
    b.apply (.write (ws ++ ws')) = (b.apply (.write ws)).apply (.write ws') := by
  unfold Buffered.apply Buffered.writeAll
  dsimp only
  rw [List.foldl_append]

theorem buffered_births (numbers : JsNumbers ν) (device : String) (payloadTs : ν)
    (metrics : List (DecodedMetric ν)) (s : MqttStore ν) :
    (metrics.foldl (born numbers device payloadTs) s).buffered =
      s.buffered.apply (.write (birthValues numbers device payloadTs metrics)) := by
  induction metrics generalizing s with
  | nil => rfl
  | cons m metrics ih =>
    have happend : birthValues numbers device payloadTs (m :: metrics) =
        birthValues numbers device payloadTs [m] ++ birthValues numbers device payloadTs metrics :=
      List.filterMap_append (l := [m])
    rw [List.foldl_cons, ih, buffered_born, happend, apply_write_append]

theorem writeAll_dataValues (numbers : JsNumbers ν) (aliasMap : Dict ℕ String) (device : String)
    (ts : ν) (metrics : List (DecodedMetric ν)) (pending : Dict String (LiveMetric ν)) :
    Buffered.writeAll pending (dataValues numbers aliasMap device ts metrics) =
      metrics.foldl (fun pending m => pending.set (metricKey device (nameOf aliasMap m))
        (.metricFromSparkplug numbers m.toSparkplugMetric ts)) pending := by
  unfold Buffered.writeAll dataValues
  rw [List.foldl_map]

theorem writeAll_snapshotValues (numbers : JsNumbers ν) (assets : Assets ν)
    (d : Dict String (LiveMetric ν)) :
    Buffered.writeAll d (snapshotValues numbers assets) =
      assets.foldl (fun d asset => asset.2.foldl (fun d record =>
        match LiveMetric.parseSnapshotMetric numbers record.2 with
        | none => d
        | some mv => d.set (metricKey asset.1 record.1) mv) d) d := by
  unfold Buffered.writeAll snapshotValues
  rw [List.foldl_flatMap]
  congr 1
  funext d asset
  rw [List.foldl_filterMap]
  congr 1
  funext d record
  cases LiveMetric.parseSnapshotMetric numbers record.2 with
  | none => rfl
  | some mv => rfl

end MqttStore

/-! ## The store, the messages and the snapshots -/

/-- The records at the snapshot service, the responses under way and the store. -/
structure LiveScreen (ν : Type) where
  saved : Dict String (Dict String (JsonValue ν))
  responses : List (Assets ν)
  store : MqttStore ν

namespace LiveScreen

inductive Event (ν : Type) where
  /-- A Sparkplug message arrives. -/
  | message (topic : List String) (timestamp : Option ν) (metrics : List (DecodedMetric ν))
      (now : ν)
  | flush
  /-- The record of a metric is written at the snapshot service. -/
  | save (device metric : String) (raw : JsonValue ν)
  /-- A snapshot of some devices, or of all of them, is read. -/
  | read (devices : Option (List String))
  /-- A response arrives. -/
  | respond (i : ℕ)
  /-- A response is lost or no success. -/
  | fail (i : ℕ)

def snapshot (saved : Dict String (Dict String (JsonValue ν))) (devices : Option (List String)) :
    Assets ν :=
  (saved.entries.filter fun e => devices.all (e.1 ∈ ·)).map fun e => (e.1, e.2.entries)

def writes (numbers : JsNumbers ν) (w : LiveScreen ν) :
    Event ν → Buffered.Op String (LiveMetric ν)
  | .message topic timestamp metrics now =>
      let device := topic.getD 4 ""
      let ts := timestamp.getD now
      if topic.getD 2 "" = "NBIRTH" then .write []
      else if topic.getD 2 "" = "DBIRTH" then .write (MqttStore.birthValues numbers device ts metrics)
      else if topic.getD 2 "" = "DDATA" then
        .wait (MqttStore.dataValues numbers w.store.aliasMap device ts metrics)
      else .write []
  | .flush => if w.store.flushTimer then .flush else .write []
  | .respond i => .write (((w.responses[i]?).map (MqttStore.snapshotValues numbers)).getD [])
  | .save .. | .read _ | .fail _ => .write []

def step (numbers : JsNumbers ν) (w : LiveScreen ν) (e : Event ν) :
    LiveScreen ν × List (String × LiveMetric ν) :=
  (match e with
    | .message topic timestamp metrics now =>
        { w with store := w.store.handleMessage numbers topic timestamp metrics now }
    | .flush => { w with store := w.store.flush }
    | .save device metric raw =>
        { w with saved := w.saved.set device (((w.saved.get? device).getD .empty).set metric raw) }
    | .read devices => { w with responses := w.responses ++ [snapshot w.saved devices] }
    | .respond i =>
        match w.responses[i]? with
        | none => w
        | some assets =>
            { w with
              responses := w.responses.eraseIdx i
              store := w.store.applySnapshotAssets numbers assets }
    | .fail i => { w with responses := w.responses.eraseIdx i },
    (writes numbers w e).received)

def opened (saved : Dict String (Dict String (JsonValue ν))) : LiveScreen ν := ⟨saved, [], .initial⟩

variable {numbers : JsNumbers ν}

theorem buffered_handleMessage (w : LiveScreen ν) (topic : List String) (timestamp : Option ν)
    (metrics : List (DecodedMetric ν)) (now : ν) :
    (w.store.handleMessage numbers topic timestamp metrics now).buffered =
      w.store.buffered.apply (writes numbers w (.message topic timestamp metrics now)) := by
  unfold MqttStore.handleMessage writes
  dsimp only
  split
  · rfl
  · split
    · exact MqttStore.buffered_births ..
    · split
      · unfold MqttStore.buffered Buffered.apply
        dsimp only
        rw [MqttStore.writeAll_dataValues]
      · rfl

def view (w : LiveScreen ν) : Buffered String (LiveMetric ν) := w.store.buffered

theorem buffered_step (w : LiveScreen ν) (e : Event ν) :
    view (step numbers w e).1 = (view w).apply (writes numbers w e) := by
  cases e with
  | message topic timestamp metrics now => exact buffered_handleMessage w topic timestamp metrics now
  | flush =>
    unfold step writes MqttStore.flush
    dsimp only
    split <;> rfl
  | respond i =>
    unfold step writes
    dsimp only
    cases w.responses[i]? with
    | none => rfl
    | some assets =>
      unfold view MqttStore.applySnapshotAssets MqttStore.buffered Buffered.apply
      dsimp only [Option.map_some, Option.getD_some]
      rw [MqttStore.writeAll_snapshotValues]
  | save device metric raw => rfl
  | read devices => rfl
  | fail i => rfl

variable [LinearOrder ν]

/-- When an event is in order: no value replaces one of a later source time. -/
def InOrder (numbers : JsNumbers ν) (w : LiveScreen ν) (e : Event ν) : Prop :=
  Buffered.InOrder LiveMetric.sourceTime (view w) (writes numbers w e)

instance (w : LiveScreen ν) (e : Event ν) : Decidable (InOrder numbers w e) :=
  inferInstanceAs (Decidable (Buffered.InOrder LiveMetric.sourceTime (view w) (writes numbers w e)))

/-- No value that was shown has gone, or gone back in its source time. -/
def Forward (before after : LiveScreen ν) : Prop :=
  Buffered.Ascends LiveMetric.sourceTime before.store.metrics after.store.metrics

def Settled (w : LiveScreen ν) : Prop := w.store.pendingMetrics = .empty ∧ w.responses = []

/-- In a run of events in order no value goes back, and once everything is processed the value shown
for a key is one with the greatest source time received. -/
theorem forward_and_greatest {saved : Dict String (Dict String (JsonValue ν))}
    {es : List (Event ν)} (h : Machine.Always (step numbers) (InOrder numbers) (opened saved) es) :
    (∀ pre post, es = pre ++ post →
      Forward (Machine.stateAfter (step numbers) (opened saved) pre)
        (Machine.stateAfter (step numbers) (opened saved) es)) ∧
      ((Machine.stateAfter (step numbers) (opened saved) es).Settled →
        Buffered.HoldsGreatest LiveMetric.sourceTime
          (Machine.outputs (step numbers) (opened saved) es)
          (Machine.stateAfter (step numbers) (opened saved) es).store.metrics) := by
  refine ⟨?_, fun hsettled => ?_⟩
  · rintro pre post rfl
    rw [Machine.always_append] at h
    rw [Machine.stateAfter_append]
    exact Buffered.ascends_of_inOrder view (writes numbers) buffered_step h.2
  · have haccounts := Buffered.accounts_of_inOrder view (writes numbers) buffered_step
      (fun _ _ => rfl) Buffered.accounts_empty h
    rw [List.nil_append] at haccounts
    exact haccounts.holdsGreatest hsettled.1

def level (value ts : ℕ) : MetricRecord ℕ := ⟨.number value, 192, ts, none, none, none, none⟩

def savedLevel (value ts : ℕ) : Event ℕ :=
  .save "LT101" "level" (.object [(ascii "v", .number value), (ascii "q", .number 192),
    (ascii "ts", .number ts)])

def levelData (value ts : ℕ) : Event ℕ :=
  .message ["spBv1.0", "site", "DDATA", "edge", "LT101"] (some ts)
    [{ (level value ts).published with name := "level", metricAlias := none, hasValue := true }] ts

def promptSnapshot : List (Event ℕ) :=
  [savedLevel 20 1000, .read none, levelData 20 1000, .respond 0, .flush, levelData 21 2000, .flush]

theorem promptSnapshot_greatest :
    Buffered.HoldsGreatest LiveMetric.sourceTime
      (Machine.outputs (step .naturals) (opened .empty) promptSnapshot)
      (Machine.stateAfter (step .naturals) (opened .empty) promptSnapshot).store.metrics :=
  (forward_and_greatest (by decide)).2
    ⟨Dict.ext (List.isEmpty_iff.mp (by decide)), List.isEmpty_iff.mp (by decide)⟩

def lateSnapshot : List (Event ℕ) :=
  [savedLevel 20 1000, levelData 20 1000, .flush, .read none, savedLevel 21 2000, levelData 21 2000,
    .flush, .respond 0]

theorem lateSnapshot_times :
    ((Machine.stateAfter (step .naturals) (opened .empty)
        (lateSnapshot.take 7)).store.metrics.get? "LT101/level").map LiveMetric.sourceTime =
      some ((2000 : ℕ) : WithBot ℕ) ∧
    ((Machine.stateAfter (step .naturals) (opened .empty)
        lateSnapshot).store.metrics.get? "LT101/level").map LiveMetric.sourceTime =
      some ((1000 : ℕ) : WithBot ℕ) := by
  constructor <;> decide

/-- A snapshot that arrives late takes the shown value back, and it stays back. -/
theorem late_snapshot_goes_back :
    (Machine.stateAfter (step .naturals) (opened .empty) lateSnapshot).Settled ∧
      ¬ Forward (Machine.stateAfter (step .naturals) (opened .empty) (lateSnapshot.take 7))
        (Machine.stateAfter (step .naturals) (opened .empty) lateSnapshot) ∧
      ¬ Buffered.HoldsGreatest LiveMetric.sourceTime
        (Machine.outputs (step .naturals) (opened .empty) lateSnapshot)
        (Machine.stateAfter (step .naturals) (opened .empty) lateSnapshot).store.metrics := by
  obtain ⟨hbefore, hafter⟩ := lateSnapshot_times
  obtain ⟨before, hgetBefore, htsBefore⟩ := Option.map_eq_some_iff.mp hbefore
  obtain ⟨after, hgetAfter, htsAfter⟩ := Option.map_eq_some_iff.mp hafter
  have hlate : ¬ before.sourceTime ≤ after.sourceTime := by
    rw [htsBefore, htsAfter]
    decide
  refine ⟨⟨Dict.ext (List.isEmpty_iff.mp (by decide)),
    List.isEmpty_iff.mp (by decide)⟩, fun h => ?_, fun h => ?_⟩
  · obtain ⟨m, hm, hle⟩ := h _ before hgetBefore
    rw [hgetAfter] at hm
    obtain rfl := Option.some.inj hm
    exact hlate hle
  · have hreceived : ("LT101/level", before) ∈
        Machine.outputs (step .naturals) (opened .empty) lateSnapshot := by
      have horder : Machine.Always (step .naturals) (InOrder .naturals) (opened .empty)
          (lateSnapshot.take 7) := by decide
      have haccounts := Buffered.accounts_of_inOrder view (writes .naturals) buffered_step
        (fun _ _ => rfl) Buffered.accounts_empty horder
      rw [← List.take_append_drop 7 lateSnapshot, Machine.outputs_append]
      exact List.mem_append_left _ (haccounts.shown_mem _ before hgetBefore)
    obtain ⟨m, hm, hle⟩ := h.2 _ before hreceived
    rw [hgetAfter] at hm
    obtain rfl := Option.some.inj hm
    exact hlate hle

end LiveScreen

end OpenBridge.LivePlane
