import OpenBridge.Alarms.ProjectionReplay

/-!
# Alarms: rebuilding the projection from the compacted topic

The compacted topic keeps the last record of each alarm.  A replay of it shows the same alarms
exactly where the last record of an alarm says on its own what became of it: an update of an
acknowledgement does not.
-/

namespace OpenBridge.Alarms

open OpenBridge.Foundation

namespace AlarmEnricher

/-- The priority of a severity: it is derived, since the priority of an alarm has no column. -/
def priority (severity : ℤ) : AlarmPriority :=
  if 900 ≤ severity then .critical
  else if 700 ≤ severity then .high
  else if 400 ≤ severity then .medium
  else if 100 ≤ severity then .low
  else .diagnostic

def resolveEffectiveState (state : AlarmState) (acknowledged : Bool) : AlarmState :=
  if acknowledged ∧ state = .unacknowledgedUncleared then .acknowledgedUncleared
  else if ¬ acknowledged ∧ state = .acknowledgedUncleared then .unacknowledgedUncleared
  else state

/-- The condition, the acknowledgement and the priority of an `ActiveAlarmDto`. -/
structure ActiveAlarmDto where
  conditionActive : Bool
  acknowledged : Bool
  priority : AlarmPriority
  deriving DecidableEq

def mapToDto (a : ActiveAlarm) : ActiveAlarmDto :=
  let effectiveState := resolveEffectiveState a.state a.acknowledged
  { conditionActive := effectiveState = .acknowledgedUncleared ∨
      effectiveState = .unacknowledgedUncleared
    acknowledged := a.acknowledged
    priority := priority a.severity }

end AlarmEnricher

namespace NormalizedAlarmIngestor

open AlarmEnricher

def shownAt (table : Table) (id : Guid) : Option ActiveAlarmDto :=
  (table.get? id).map fun row => mapToDto row.toActiveAlarm

/-- A replay of the compacted records shows what a replay of all of them shows, whenever either is
made. -/
def Rebuilds (rt : Runtime) (records : List StateRecord) : Prop :=
  ∀ full rebuilt : List Received, full.map Prod.fst = records.map StateRecord.event →
    rebuilt.map Prod.fst = (OpcEventStreamJob.compacted records).map StateRecord.event →
    ∀ id, shownAt (replay rt rebuilt) id = shownAt (replay rt full) id

def standsAfter (rt : Runtime) (stands : Bool) (r : StateRecord) : Bool :=
  raises rt r.event ∨ (stands ∧ ¬ removes r.event)

def standing (rt : Runtime) (k : String ⊕ StateRecord) (records : List StateRecord) : Bool :=
  (records.filter (StateRecord.key · = k)).foldl (standsAfter rt) false

/-- The last record of every alarm tells on its own what became of it: the alarm was not raised
before, or the record removes it, or it raises it unacknowledged. -/
def ToldByLast (rt : Runtime) (records : List StateRecord) : Prop :=
  ∀ pre r post, records = pre ++ r :: post → (∀ s ∈ post, s.key ≠ r.key) →
    standing rt r.key pre = false ∨ removes r.event = true ∨
      (raises rt r.event = true ∧ r.event.acknowledged = false)

/-! ## Views -/

section Views

variable {rt : Runtime}

def shownView (v : View) : ActiveAlarmDto where
  conditionActive := true
  acknowledged := v.acknowledged
  priority := priority v.severity

theorem Shows.mapToDto_eq {records : List StateRecord} {k : String ⊕ StateRecord} {row : AlarmRow}
    {v : View} (h : Shows rt records k row v) : mapToDto row.toActiveAlarm = shownView v := by
  obtain ⟨hstate, hrest⟩ := Prod.mk.inj h.life
  obtain ⟨-, hview⟩ := Prod.mk.inj hrest
  obtain ⟨hacknowledged, hseverity⟩ := Prod.mk.inj hview
  unfold mapToDto resolveEffectiveState shownView
  rw [hstate, hacknowledged, hseverity]
  cases v.acknowledged with
  | false => rfl
  | true => rfl

theorem Tells.shownAt_rowId {records : List StateRecord}
    {views : String ⊕ StateRecord → Option View} {table : Table}
    (h : Tells rt records views table) {s : StateRecord} (hs : s ∈ records) :
    shownAt table (rowId rt s.event) = (views s.key).map shownView := by
  unfold shownAt
  cases hview : views s.key with
  | none =>
    rw [h.get?_eq_none hs hview]
    rfl
  | some v =>
    obtain ⟨row, hget, hshows⟩ := h.get?_eq_some hs hview
    rw [hget]
    exact congrArg some hshows.mapToDto_eq

theorem Tells.shownAt_other {records : List StateRecord}
    {views : String ⊕ StateRecord → Option View} {table : Table}
    (h : Tells rt records views table) {id : Guid} (hid : ∀ s ∈ records, rowId rt s.event ≠ id) :
    shownAt table id = none := by
  unfold shownAt
  cases hget : table.get? id with
  | none => rfl
  | some row =>
    obtain ⟨s, hs, hrow⟩ := h.only id row hget
    exact absurd hrow (hid s hs)

theorem raises_type {evt : NormalizedAlarmEvent} (h : raises rt evt = true) :
    evt.eventType = "ALARM_STATE_UPSERT" ∧ (fromUnixTimeMilliseconds evt.eventTimeEpochMs).isSome ∧
      (fromUnixTimeMilliseconds evt.activeTimeEpochMs).isSome := by
  obtain ⟨columns, hraised⟩ := Option.isSome_iff_exists.mp h
  obtain ⟨⟨htype, -, htime, hactiveTime, -⟩, -⟩ := raisedColumns_eq_some_iff.mp hraised
  exact ⟨htype, htime, hactiveTime⟩

theorem removes_type {evt : NormalizedAlarmEvent} (h : removes evt = true) :
    evt.eventType = "ALARM_STATE_DELETE" ∧
      (fromUnixTimeMilliseconds evt.eventTimeEpochMs).isSome := of_decide_eq_true h

theorem raises_of_removes {evt : NormalizedAlarmEvent} (h : removes evt = true) :
    raises rt evt = false := by
  refine Bool.eq_false_iff.mpr fun hraises => ?_
  have htype := (removes_type h).1
  rw [(raises_type hraises).1] at htype
  exact absurd htype (by decide)

theorem nextView_none (evt : NormalizedAlarmEvent) : nextView rt evt none =
    if raises rt evt then some { acknowledged := evt.acknowledged, severity := evt.severity }
    else none := rfl

theorem nextView_of_removes {evt : NormalizedAlarmEvent} (h : removes evt = true) (v : View) :
    nextView rt evt (some v) = none := by
  obtain ⟨htype, htime⟩ := removes_type h
  unfold nextView
  dsimp only
  rw [if_pos htype, if_pos htime]

theorem nextView_of_raises {evt : NormalizedAlarmEvent} (h : raises rt evt = true) (v : View) :
    nextView rt evt (some v) = some { acknowledged := false, severity := evt.severity } := by
  obtain ⟨htype, htime, hactiveTime⟩ := raises_type h
  have hupsert : evt.eventType ≠ "ALARM_STATE_DELETE" := by
    rw [htype]
    decide
  have hack : evt.eventType ≠ "ACK_STATE_UPDATE" := by
    rw [htype]
    decide
  have htimes : ¬ ((fromUnixTimeMilliseconds evt.eventTimeEpochMs).isNone = true ∨
      (fromUnixTimeMilliseconds evt.activeTimeEpochMs).isNone = true) := by
    rw [Option.isNone_eq_false_iff.mpr htime, Option.isNone_eq_false_iff.mpr hactiveTime]
    simp
  unfold nextView
  dsimp only
  rw [if_neg hupsert, if_neg htimes, if_neg hack]

theorem isSome_nextView_some (evt : NormalizedAlarmEvent) (v : View) :
    (nextView rt evt (some v)).isSome = !removes evt := by
  cases hremoves : removes evt with
  | true =>
    rw [nextView_of_removes hremoves]
    rfl
  | false =>
    have hnot : ¬ (evt.eventType = "ALARM_STATE_DELETE" ∧
        (fromUnixTimeMilliseconds evt.eventTimeEpochMs).isSome = true) := of_decide_eq_false hremoves
    unfold nextView
    dsimp only
    split
    · rename_i htype
      rw [if_neg fun htime => hnot ⟨htype, htime⟩]
      rfl
    · split
      · rfl
      · split
        · rfl
        · rfl

theorem isSome_nextView (evt : NormalizedAlarmEvent) (v : Option View) :
    (nextView rt evt v).isSome = (raises rt evt ∨ (v.isSome ∧ ¬ removes evt) : Bool) := by
  cases v with
  | none =>
    rw [nextView_none]
    cases raises rt evt with
    | false => rfl
    | true => rfl
  | some v =>
    rw [isSome_nextView_some]
    cases hremoves : removes evt with
    | false => simp
    | true =>
      rw [raises_of_removes hremoves]
      rfl

theorem standing_eq (k : String ⊕ StateRecord) (records : List StateRecord) :
    standing rt k records = ((records.foldl (viewsStep rt) fun _ => none) k).isSome := by
  have hrun : ∀ (l : List StateRecord) (v : Option View),
      l.foldl (standsAfter rt) v.isSome =
        (l.foldl (fun v r => nextView rt r.event v) v).isSome := by
    intro l
    induction l with
    | nil => exact fun _ => rfl
    | cons r rest ih =>
      intro v
      rw [List.foldl_cons, List.foldl_cons, ← ih, isSome_nextView]
      rfl
  unfold standing
  rw [Compaction.foldl_keyedStep]
  exact hrun _ none

theorem shown_nextView_iff (evt : NormalizedAlarmEvent) (v : Option View) :
    (nextView rt evt none).map shownView = (nextView rt evt v).map shownView ↔
      v.isSome = false ∨ removes evt = true ∨ (raises rt evt = true ∧ evt.acknowledged = false) := by
  cases v with
  | none => exact iff_of_true rfl (Or.inl rfl)
  | some v =>
    cases hremoves : removes evt with
    | true =>
      rw [nextView_none, raises_of_removes hremoves, nextView_of_removes hremoves]
      exact iff_of_true rfl (Or.inr (Or.inl rfl))
    | false =>
      cases hraises : raises rt evt with
      | true =>
        rw [nextView_none, hraises, if_pos rfl, nextView_of_raises hraises]
        simp [shownView]
      | false =>
        -- the record needs the view, and is ignored without it
        have hsome : (nextView rt evt (some v)).isSome = true := by
          rw [isSome_nextView_some, hremoves]
          rfl
        obtain ⟨next, hnext⟩ := Option.isSome_iff_exists.mp hsome
        rw [nextView_none, hraises, hnext]
        simp

end Views

/-! ## The topic -/

theorem kind_toAlarmState (evt : RawOpcAlarmEvent) :
    Kind (OpcEventStreamJob.toAlarmState evt) := by
  unfold OpcEventStreamJob.toAlarmState
  split
  · exact Kind.removal rfl rfl
  · rename_i hactive
    exact Kind.state rfl (not_not.mp hactive) rfl rfl

theorem kind_of_mem {inputs : List (OpcEventStreamJob.Input × ℤ)} {r : StateRecord}
    (h : r ∈ OpcEventStreamJob.currentAlarmState inputs) : Kind r.event := by
  obtain ⟨i, -, hi⟩ := List.mem_filterMap.mp h
  obtain ⟨evt, hevt, rfl⟩ := Option.map_eq_some_iff.mp hi
  unfold OpcEventStreamJob.stateEvent at hevt
  split at hevt
  · obtain rfl := Option.some.inj hevt
    exact kind_toAlarmState _
  · split at hevt
    · unfold OpcEventStreamJob.toAckConfirmedState at hevt
      split at hevt
      · obtain rfl := Option.some.inj hevt
        exact Kind.ackUpdate rfl rfl rfl rfl
      · cases hevt
    · cases hevt

theorem tells_replay {rt : Runtime} {records log : List StateRecord}
    (hwell : WellKeyed rt records) (happart : TellsKindsApart rt)
    (hkinds : ∀ r ∈ records, Kind r.event) (hlog : ∀ r ∈ log, r ∈ records)
    {deliveries : List Received} (hdeliveries : deliveries.map Prod.fst = log.map StateRecord.event) :
    Tells rt records (log.foldl (viewsStep rt) fun _ => none) (replay rt deliveries) :=
  tells_empty.replay hwell happart hkinds hlog hdeliveries

/-- Where the records carry the id of their alarm, the compacted topic rebuilds the projection
exactly where the last record of every alarm tells on its own what became of it. -/
theorem rebuilds_iff_toldByLast (rt : Runtime) (inputs : List (OpcEventStreamJob.Input × ℤ))
    (happart : TellsKindsApart rt) (hwell : WellKeyed rt (OpcEventStreamJob.currentAlarmState inputs)) :
    Rebuilds rt (OpcEventStreamJob.currentAlarmState inputs) ↔
      ToldByLast rt (OpcEventStreamJob.currentAlarmState inputs) := by
  have hkinds : ∀ r ∈ OpcEventStreamJob.currentAlarmState inputs, Kind r.event :=
    fun r hr => kind_of_mem hr
  generalize OpcEventStreamJob.currentAlarmState inputs = records at hwell hkinds
  have hfull := fun full : List Received => @tells_replay rt records records hwell happart hkinds
    (fun r hr => hr) full
  have hcompacted := fun rebuilt : List Received => @tells_replay rt records
    (OpcEventStreamJob.compacted records) hwell happart hkinds
    (fun r hr => Compaction.compact_sublist.subset hr) rebuilt
  -- what the two replays show of the alarm of a last record
  have hlast : ∀ full rebuilt : List Received,
      full.map Prod.fst = records.map StateRecord.event →
      rebuilt.map Prod.fst = (OpcEventStreamJob.compacted records).map StateRecord.event →
      ∀ pre r post, records = pre ++ r :: post → (∀ s ∈ post, s.key ≠ r.key) →
        (shownAt (replay rt rebuilt) (rowId rt r.event) =
          shownAt (replay rt full) (rowId rt r.event) ↔
        standing rt r.key pre = false ∨ removes r.event = true ∨
          (raises rt r.event = true ∧ r.event.acknowledged = false)) := by
    intro full rebuilt hf hr pre r post hsplit hpost
    have hmem : r ∈ records := hsplit ▸ List.mem_append_right _ List.mem_cons_self
    have htellsFull := hfull full hf
    have htellsRebuilt := hcompacted rebuilt hr
    rw [htellsFull.shownAt_rowId hmem, htellsRebuilt.shownAt_rowId hmem, standing_eq]
    unfold OpcEventStreamJob.compacted
    rw [hsplit, Compaction.replay_of_last _ hpost, Compaction.replay_compact_of_last _ hpost]
    exact shown_nextView_iff _ _
  constructor
  · intro h pre r post hsplit hpost
    have hf : (records.map fun r => (r.event, (0 : ℤ))).map Prod.fst =
        records.map StateRecord.event := by
      rw [List.map_map]
      rfl
    have hr : ((OpcEventStreamJob.compacted records).map fun r => (r.event, (0 : ℤ))).map Prod.fst =
        (OpcEventStreamJob.compacted records).map StateRecord.event := by
      rw [List.map_map]
      rfl
    exact (hlast _ _ hf hr pre r post hsplit hpost).mp (h _ _ hf hr _)
  · intro h full rebuilt hf hr id
    by_cases hid : ∃ s ∈ records, rowId rt s.event = id
    · obtain ⟨s, hs, rfl⟩ := hid
      have hrecord : ∃ a ∈ records, a.key = s.key := ⟨s, hs, rfl⟩
      obtain ⟨pre, r, post, hsplit, hkey, hpost⟩ := Compaction.exists_last hrecord
      have hmem : r ∈ records := hsplit ▸ List.mem_append_right _ List.mem_cons_self
      have hrow : rowId rt s.event = rowId rt r.event := by
        unfold rowId
        rw [(hwell.alarmId_eq_iff hmem hs).mpr hkey.symm]
      rw [hrow]
      exact (hlast full rebuilt hf hr pre r post hsplit hpost).mpr (h pre r post hsplit hpost)
    · have hother : ∀ s ∈ records, rowId rt s.event ≠ id := fun s hs heq => hid ⟨s, hs, heq⟩
      rw [(hfull full hf).shownAt_other hother, (hcompacted rebuilt hr).shownAt_other hother]

/-! ## The acknowledged alarm of a tank -/

def tankRaised : RawOpcAlarmEvent where
  alarmId := "00000000-0000-0000-0000-000000000007"
  serverId := "00000000-0000-0000-0000-000000000001"
  source := "TANK-1"
  condition := "HI"
  subCondition := none
  message := some "High level"
  severity := 700
  conditionActive := true
  acknowledged := false
  cookieOffset := 0
  eventTimeEpochMs := 1000
  activeTimeEpochMs := 1000
  priority := some "HIGH"
  feed := none
  sourceEventId := none
  identified := by decide

def tankAcknowledged : AckResult where
  resultState := "ACK_CONFIRMED"
  commandId := "c1"
  correlationId := "c1"
  lifecycleId := "l1"
  alarmId := "00000000-0000-0000-0000-000000000007"
  serverId := "00000000-0000-0000-0000-000000000001"
  sourceName := "TANK-1"
  conditionName := "HI"
  timestampEpochMs := some 2000
  activeTimeEpochMs := some 1000

def tankInputs : List (OpcEventStreamJob.Input × ℤ) :=
  [(.alarm tankRaised, 1000), (.ackResult tankAcknowledged, 2000)]

def tankColumns : UniqueColumns where
  alarmId := "00000000-0000-0000-0000-000000000007"
  serverId := 1
  sourceName := "TANK-1"
  conditionName := some "HI"
  subConditionName := ""

theorem tellsKindsApart_tank : TellsKindsApart tankRuntime := by
  unfold TellsKindsApart
  decide

theorem wellKeyed_tank : WellKeyed tankRuntime (OpcEventStreamJob.currentAlarmState tankInputs) := by
  have hids : ∀ r ∈ OpcEventStreamJob.currentAlarmState tankInputs,
      r.event.alarmId = some "00000000-0000-0000-0000-000000000007" := by decide
  have hcolumns : ∀ s ∈ OpcEventStreamJob.currentAlarmState tankInputs, ∀ c,
      raisedColumns tankRuntime s.event = some c →
      c = tankColumns := by
    intro s hs c hc
    have hraised : ∀ s ∈ OpcEventStreamJob.currentAlarmState tankInputs,
        raisedColumns tankRuntime s.event = none ∨
          raisedColumns tankRuntime s.event = some tankColumns := by decide
    rcases hraised s hs with hnone | hsome
    · rw [hnone] at hc
      cases hc
    · rw [hsome] at hc
      exact (Option.some.inj hc).symm
  have hfinds : ∀ r ∈ OpcEventStreamJob.currentAlarmState tankInputs,
      tankRuntime.tryParseGuid r.event.serverId = some 1 ∧
        resolveSourceName tankRuntime r.event = "TANK-1" ∧
        matchesColumns tankRuntime r.event tankColumns = true := by decide
  refine ⟨?_, ?_, ?_⟩
  · intro r hr
    rw [hids r hr]
    decide
  · intro r hr s hs _
    rw [hids r hr, hids s hs]
  · intro r hr s hs c hc
    obtain rfl := hcolumns s hs c hc
    exact iff_of_true (hfinds r hr) ((hids r hr).trans (hids s hs).symm)

theorem rebuilds_tank_iff : Rebuilds tankRuntime (OpcEventStreamJob.currentAlarmState tankInputs) ↔
    ToldByLast tankRuntime (OpcEventStreamJob.currentAlarmState tankInputs) :=
  rebuilds_iff_toldByLast tankRuntime tankInputs tellsKindsApart_tank wellKeyed_tank

/-- An alarm that is raised and acknowledged is missing after a rebuild. -/
theorem acknowledged_alarm_not_rebuilt : ¬ ∀ (rt : Runtime)
    (inputs : List (OpcEventStreamJob.Input × ℤ)), TellsKindsApart rt →
    Rebuilds rt (OpcEventStreamJob.currentAlarmState inputs) := by
  intro h
  have hshown := h tankRuntime tankInputs tellsKindsApart_tank
    ((OpcEventStreamJob.currentAlarmState tankInputs).map fun r => (r.event, 3000))
    ((OpcEventStreamJob.compacted (OpcEventStreamJob.currentAlarmState tankInputs)).map
      fun r => (r.event, 3000)) (by rw [List.map_map]; rfl) (by rw [List.map_map]; rfl) 7
  revert hshown
  decide

end NormalizedAlarmIngestor

end OpenBridge.Alarms
