import OpenBridge.Alarms.NormalizedAlarmIngestor

/-!
# Alarms: batches of normalized events

`FlushBatchAsync` handles the events of a batch in one unit of work and saves once.  An event does
not find the row that an earlier event of its batch added, and takes a row that one removed for a
stored one.
-/

namespace OpenBridge.Alarms

open OpenBridge.Foundation

/-- The columns that the unique indexes of `alarm_current` are over. -/
structure UniqueColumns where
  alarmId : String
  serverId : Guid
  sourceName : String
  conditionName : Option String
  subConditionName : String
  deriving DecidableEq

/-- Both indexes hold the two rows: a missing condition is never equal to another one. -/
def UniqueColumns.Distinct (a b : UniqueColumns) : Prop :=
  a.alarmId ≠ b.alarmId ∧ (a.conditionName = none ∨
    (a.serverId, a.sourceName, a.conditionName, a.subConditionName) ≠
      (b.serverId, b.sourceName, b.conditionName, b.subConditionName))

instance : DecidableRel UniqueColumns.Distinct := fun a b =>
  inferInstanceAs (Decidable (a.alarmId ≠ b.alarmId ∧ (a.conditionName = none ∨
    (a.serverId, a.sourceName, a.conditionName, a.subConditionName) ≠
      (b.serverId, b.sourceName, b.conditionName, b.subConditionName))))

namespace AlarmRow

def uniqueColumns (r : AlarmRow) : UniqueColumns where
  alarmId := r.alarmId
  serverId := r.serverId
  sourceName := r.sourceName
  conditionName := r.conditionName
  subConditionName := r.subConditionName.getD ""

end AlarmRow

def uniqueRows (rows : List AlarmRow) : Bool :=
  (rows.map AlarmRow.uniqueColumns).Pairwise UniqueColumns.Distinct

namespace NormalizedAlarmIngestor

abbrev Table := Dict Guid AlarmRow

abbrev Received := NormalizedAlarmEvent × ℤ

variable (rt : Runtime)

def loaded (table : Table) : UnitOfWork.Work Guid AlarmRow :=
  table.mapValues fun r => { value := r.reload rt.tryParseState, status := .stored }

def stored (w : UnitOfWork.Work Guid AlarmRow) : Table :=
  w.mapValues fun e => e.value.reload rt.tryParseState

def request (d : Received) : UnitOfWork.Request Guid AlarmRow := processAsync rt d.1 d.2

/-- `FlushBatchAsync`: the table after a batch; when anything throws, it is left as it was. -/
def flushBatch (table : Table) (events : List Received) : Table :=
  stored rt (UnitOfWork.batch uniqueRows (loaded rt table) (events.map (request rt)))

def savedEach (table : Table) (events : List Received) : Table :=
  stored rt (UnitOfWork.sequentially uniqueRows (loaded rt table) (events.map (request rt)))

/-- When an event of a batch does not depend on what is not saved yet: it does not throw, it changes
no row that the batch added, an event that can add a row finds one exactly where one is stored or
added and not removed, and the row it adds is new. -/
structure SafeInBatch (w : UnitOfWork.Work Guid AlarmRow) (c : UnitOfWork.Command Guid AlarmRow) :
    Prop where
  added : ∀ e ∈ w.values, e.status = .added → c.selects e.value = true →
    c.change e.value = (e.value, false)
  found : c.create ≠ .ok none → c.foundVisible w = c.foundLive w
  new : c.foundVisible w = false → c.create = .ok none ∨
    ∃ id alarm, c.create = .ok (some (id, alarm)) ∧ id ∉ w.keys ∧
      ∀ r ∈ UnitOfWork.live w, r.uniqueColumns.Distinct alarm.uniqueColumns

def SafeRequest (w : UnitOfWork.Work Guid AlarmRow) (r : UnitOfWork.Request Guid AlarmRow) : Prop :=
  ∃ c, r = .ok c ∧ SafeInBatch w c

/-! ## The columns that no event changes -/

section Columns

variable {rt}

@[simp] theorem uniqueColumns_mergeOpcAttributes (r : AlarmRow) (u : AlarmRow.OpcUpdate) :
    (r.mergeOpcAttributes u).uniqueColumns = r.uniqueColumns := rfl

@[simp] theorem uniqueColumns_syncOpcActiveTime (r : AlarmRow) (activeTime ms : ℤ) :
    (r.syncOpcActiveTime activeTime ms).uniqueColumns = r.uniqueColumns := by
  unfold AlarmRow.syncOpcActiveTime ActiveAlarm.syncOpcActiveTime
  split
  · rfl
  · rfl

@[simp] theorem uniqueColumns_applyOpcTiming (evt : NormalizedAlarmEvent) (times : Times)
    (r : AlarmRow) : (applyOpcTiming rt evt times r).uniqueColumns = r.uniqueColumns := by
  unfold applyOpcTiming
  dsimp only
  split
  · rw [uniqueColumns_syncOpcActiveTime, uniqueColumns_mergeOpcAttributes]
  · rfl

@[simp] theorem uniqueColumns_applyConditionChange (evt : NormalizedAlarmEvent) (times : Times)
    (r : AlarmRow) : (applyConditionChange evt times r).uniqueColumns = r.uniqueColumns := by
  unfold applyConditionChange ActiveAlarm.applyConditionChange
  dsimp only
  split
  · rfl
  · split
    · rfl
    · rfl

@[simp] theorem uniqueColumns_reconciledRow (evt : NormalizedAlarmEvent) (times : Times)
    (r : AlarmRow) : (reconciledRow evt times r).uniqueColumns = r.uniqueColumns := by
  unfold reconciledRow reconciled ActiveAlarm.reconcileAcknowledgement
  split
  · rfl
  · rfl

theorem uniqueColumns_applyAckLifecycle (r : AlarmRow) (state : String)
    (k : ActiveAlarm.AckDetails) (now : ℤ) :
    ({ r with toActiveAlarm := r.toActiveAlarm.applyAckLifecycle state k now } :
      AlarmRow).uniqueColumns = r.uniqueColumns := by
  unfold ActiveAlarm.applyAckLifecycle
  dsimp only
  split
  · split
    · rfl
    · rfl
  · split
    · rfl
    · rfl

theorem uniqueColumns_clearOpcInferredAcknowledgement (r : AlarmRow) :
    ({ r with toActiveAlarm := r.toActiveAlarm.clearOpcInferredAcknowledgement } :
      AlarmRow).uniqueColumns = r.uniqueColumns := by
  unfold ActiveAlarm.clearOpcInferredAcknowledgement
  split
  · rfl
  · rfl

theorem uniqueColumns_updateMatch (evt : NormalizedAlarmEvent) (times : Times) (r : AlarmRow) :
    (updateMatch rt evt times r).1.uniqueColumns = r.uniqueColumns := by
  unfold updateMatch
  dsimp only
  split
  · rw [uniqueColumns_applyAckLifecycle, uniqueColumns_applyOpcTiming]
  · split
    · rw [uniqueColumns_applyOpcTiming]
    · split
      · rw [uniqueColumns_applyConditionChange, uniqueColumns_reconciledRow,
          uniqueColumns_applyOpcTiming]
      · split
        · rw [uniqueColumns_applyConditionChange, uniqueColumns_applyOpcTiming]
        · rw [uniqueColumns_applyConditionChange, uniqueColumns_clearOpcInferredAcknowledgement,
            uniqueColumns_applyOpcTiming]

theorem uniqueColumns_propagateCookie (evt : NormalizedAlarmEvent) (times : Times) (r : AlarmRow) :
    (propagateCookie rt evt times r).uniqueColumns = r.uniqueColumns := by
  unfold propagateCookie
  split
  · rfl
  · rw [uniqueColumns_applyOpcTiming]

theorem uniqueColumns_change (evt : NormalizedAlarmEvent) (times : Times) (r : AlarmRow) :
    (change rt evt times r).1.uniqueColumns = r.uniqueColumns := by
  have hupdated : (if matchesIngestEvent rt r evt then updateMatch rt evt times r
      else (r, false)).1.uniqueColumns = r.uniqueColumns := by
    split
    · exact uniqueColumns_updateMatch evt times r
    · rfl
  unfold change
  dsimp only
  split
  · exact hupdated
  · rw [uniqueColumns_propagateCookie, hupdated]

theorem uniqueColumns_request {d : Received} {c : UnitOfWork.Command Guid AlarmRow}
    (h : request rt d = .ok c) (r : AlarmRow) : (c.change r).1.uniqueColumns = r.uniqueColumns := by
  unfold request processAsync at h
  dsimp only at h
  split at h
  · obtain rfl := Except.ok.inj h
    rfl
  · split at h
    · unfold handleDelete at h
      split at h
      · obtain rfl := Except.ok.inj h
        rfl
      · split at h
        · cases h
        · obtain rfl := Except.ok.inj h
          rfl
    · split at h
      · obtain rfl := Except.ok.inj h
        rfl
      · split at h
        · obtain rfl := Except.ok.inj h
          exact uniqueColumns_change _ _ r
        · cases h

end Columns

/-! ## Batches -/

section Batches

variable {rt}

theorem uniqueRows_iff {rows : List AlarmRow} : uniqueRows rows = true ↔
    (rows.map AlarmRow.uniqueColumns).Pairwise UniqueColumns.Distinct := decide_eq_true_iff

theorem independent_of_safe {w : UnitOfWork.Work Guid AlarmRow} {d : Received}
    (hw : uniqueRows (UnitOfWork.live w) = true) (h : SafeRequest w (request rt d)) :
    UnitOfWork.IndependentRequest uniqueRows w (request rt d) := by
  obtain ⟨c, hc, hsafe⟩ := h
  refine ⟨c, hc, hsafe.added, hsafe.found, ?_, ?_⟩
  · intro hmissing
    rcases hsafe.new hmissing with hnone | ⟨id, alarm, hcreate, hid, -⟩
    · exact Or.inl hnone
    · exact Or.inr ⟨id, alarm, hcreate, hid⟩
  · intro next hnext
    refine uniqueRows_iff.mpr (UnitOfWork.pairwise_live_exec (uniqueColumns_request hc)
      (uniqueRows_iff.mp hw) ?_ hnext)
    intro hmissing k v hcreate
    rcases hsafe.new hmissing with hnone | ⟨id, alarm, hcreate', hid, hdistinct⟩
    · rw [hcreate] at hnone
      cases hnone
    · rw [hcreate] at hcreate'
      obtain ⟨rfl, rfl⟩ := Prod.mk.inj (Option.some.inj (Except.ok.inj hcreate'))
      exact ⟨hid, hdistinct⟩

theorem saved_loaded (table : Table) : UnitOfWork.saved (loaded rt table) = loaded rt table := by
  refine Dict.ext ?_
  change (loaded rt table).entries.filterMap UnitOfWork.savedEntry = (loaded rt table).entries
  unfold loaded
  rw [Dict.entries_mapValues, List.filterMap_map]
  exact congrFun List.filterMap_eq_map _

theorem uniqueRows_live_loaded {table : Table} (h : uniqueRows table.values = true) :
    uniqueRows (UnitOfWork.live (loaded rt table)) = true := by
  have hrows : (UnitOfWork.live (loaded rt table)).map AlarmRow.uniqueColumns =
      table.values.map AlarmRow.uniqueColumns := by
    unfold UnitOfWork.live
    rw [saved_loaded]
    unfold loaded Dict.values
    rw [Dict.entries_mapValues, List.map_map, List.map_map, List.map_map, List.map_map]
    rfl
  rw [uniqueRows_iff, hrows]
  exact uniqueRows_iff.mp h

theorem always_independent {w : UnitOfWork.Work Guid AlarmRow} {events : List Received}
    (hw : uniqueRows (UnitOfWork.live w) = true)
    (h : Machine.Always UnitOfWork.step SafeRequest w (events.map (request rt))) :
    Machine.Always UnitOfWork.step (UnitOfWork.IndependentRequest uniqueRows) w
      (events.map (request rt)) := by
  induction events generalizing w with
  | nil => exact trivial
  | cons d rest ih =>
    have hindependent := independent_of_safe hw h.1
    obtain ⟨next, -, hstep, hvalid, -⟩ := UnitOfWork.step_of_independent hindependent
    refine ⟨hindependent, ?_⟩
    have hrest := h.2
    rw [hstep] at hrest ⊢
    exact ih hvalid hrest

end Batches

def tankRuntime : Runtime where
  tryParseGuid s :=
    if s = "00000000-0000-0000-0000-000000000001" then some 1
    else if s = "00000000-0000-0000-0000-000000000007" then some 7
    else none
  md5 _ := []
  upper := Char.toUpper
  tryParseState _ := none

def tankLevel (active acknowledged : Bool) (ms : ℤ) : Received :=
  ({ eventType := "ALARM_STATE_UPSERT", commandId := some "", correlationId := some "",
     lifecycleId := none, dcsSequenceId := none,
     alarmId := some "00000000-0000-0000-0000-000000000007",
     serverId := "00000000-0000-0000-0000-000000000001", sourceName := "TANK-1",
     conditionName := some "HI", subConditionName := none, message := some "High level",
     severity := 700, priority := "HIGH", alarmEventKind := "CONDITION", conditionActive := active,
     acknowledged := acknowledged, eventTimeEpochMs := ms, activeTimeEpochMs := ms,
     cookieOffset := 0, feed := none, sourceEventId := none, ackLifecycleState := none,
     pendingAckActionId := none, ackRequestedAtEpochMs := none }, ms)

def tankTable : Table := savedEach tankRuntime Dict.empty [tankLevel true false 1000]

theorem safeRequest_empty {r : UnitOfWork.Request Guid AlarmRow}
    (h : (r.bind fun c => c.create).isOk = true) : SafeRequest Dict.empty r := by
  cases r with
  | error e => cases h
  | ok c =>
    refine ⟨c, rfl, by simp, fun _ => rfl, fun _ => ?_⟩
    have hok : c.create.isOk = true := h
    cases hcreate : c.create with
    | error e =>
      rw [hcreate] at hok
      cases hok
    | ok created =>
      cases created with
      | none => exact Or.inl rfl
      | some row => exact Or.inr ⟨row.1, row.2, rfl, by simp, by simp [UnitOfWork.live_eq]⟩

theorem safe_raise : SafeRequest (loaded tankRuntime Dict.empty)
    (request tankRuntime (tankLevel true false 1000)) := by
  have hok : ((request tankRuntime (tankLevel true false 1000)).bind
      fun c => c.create).isOk = true := by decide
  exact safeRequest_empty hok

end NormalizedAlarmIngestor

end OpenBridge.Alarms
