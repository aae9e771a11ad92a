import OpenBridge.Alarms.OpcEventStreamJob

/-!
# Alarms: the projection as a replay of the state topic

Every record of the topic is handled in a unit of work of its own, over the rows as they are loaded.
What the projection shows of an alarm is then a small machine of its own, and the machines of the
alarms do not disturb each other where a record finds the alarm of its own id alone.
-/

namespace OpenBridge.Alarms

open OpenBridge.Foundation

namespace NormalizedAlarmIngestor

variable (rt : Runtime)

def ingest (table : Table) (d : Received) : Table :=
  stored rt (UnitOfWork.processAndSave uniqueRows (loaded rt table) (request rt d))

def replay (deliveries : List Received) : Table := deliveries.foldl (ingest rt) Dict.empty

/-! ## What a record does to an alarm -/

structure View where
  acknowledged : Bool
  severity : ℤ
  deriving DecidableEq

def raisedColumns (evt : NormalizedAlarmEvent) : Option UniqueColumns :=
  if evt.eventType = "ALARM_STATE_UPSERT" ∧ ¬ isWhiteSpaceOnly (resolveSourceName rt evt) ∧
      (fromUnixTimeMilliseconds evt.eventTimeEpochMs).isSome ∧
      (fromUnixTimeMilliseconds evt.activeTimeEpochMs).isSome ∧
      1 ≤ evt.severity ∧ evt.severity ≤ 1000 then
    (rt.tryParseGuid evt.serverId).map fun serverId =>
      { alarmId := evt.alarmId.getD "", serverId := serverId,
        sourceName := trim (resolveSourceName rt evt), conditionName := evt.conditionName,
        subConditionName := evt.subConditionName.getD "" }
  else none

def raises (evt : NormalizedAlarmEvent) : Bool := (raisedColumns rt evt).isSome

def removes (evt : NormalizedAlarmEvent) : Bool :=
  evt.eventType = "ALARM_STATE_DELETE" ∧ (fromUnixTimeMilliseconds evt.eventTimeEpochMs).isSome

def nextView (evt : NormalizedAlarmEvent) : Option View → Option View
  | none =>
      if raises rt evt then some { acknowledged := evt.acknowledged, severity := evt.severity }
      else none
  | some v =>
      if evt.eventType = "ALARM_STATE_DELETE" then
        if (fromUnixTimeMilliseconds evt.eventTimeEpochMs).isSome then none else some v
      else if (fromUnixTimeMilliseconds evt.eventTimeEpochMs).isNone ∨
          (fromUnixTimeMilliseconds evt.activeTimeEpochMs).isNone then some v
      else if evt.eventType = "ACK_STATE_UPDATE" then
        some { v with acknowledged := v.acknowledged ∨ evt.commandId ≠ some "" }
      else some { acknowledged := false, severity := evt.severity }

def matchesColumns (evt : NormalizedAlarmEvent) (c : UniqueColumns) : Bool :=
  sameOptional rt c.conditionName evt.conditionName ∧
    (isBlank evt.subConditionName ∨ sameOptional rt (some c.subConditionName) evt.subConditionName)

def Finds (evt : NormalizedAlarmEvent) (c : UniqueColumns) : Prop :=
  rt.tryParseGuid evt.serverId = some c.serverId ∧ resolveSourceName rt evt = c.sourceName ∧
    matchesColumns rt evt c = true

def rowId (evt : NormalizedAlarmEvent) : Guid :=
  (rt.tryParseGuid (evt.alarmId.getD "")).getD
    (AlarmPartitionKeys.deterministicAlarmId rt.md5 (evt.alarmId.getD ""))

/-- The records carry the id of their alarm: every record has one, two ids do not give one row, and
a record finds the rows that records with its own id raise, and no others. -/
structure WellKeyed (records : List StateRecord) : Prop where
  identified : ∀ r ∈ records, isBlank r.event.alarmId = false
  rows : ∀ r ∈ records, ∀ s ∈ records, rowId rt r.event = rowId rt s.event →
    r.event.alarmId = s.event.alarmId
  finds : ∀ r ∈ records, ∀ s ∈ records, ∀ c, raisedColumns rt s.event = some c →
    (Finds rt r.event c ↔ r.event.alarmId = s.event.alarmId)

def TellsKindsApart : Prop := sameText rt "ALARM_STATE_UPSERT" "ALARM_STATE_DELETE" = false

inductive Kind (evt : NormalizedAlarmEvent) : Prop where
  | state (type : evt.eventType = "ALARM_STATE_UPSERT") (active : evt.conditionActive = true)
      (command : evt.commandId = some "") (pending : evt.pendingAckActionId = none)
  | removal (type : evt.eventType = "ALARM_STATE_DELETE") (message : evt.message = none)
  | ackUpdate (type : evt.eventType = "ACK_STATE_UPDATE")
      (command : evt.commandId.isSome = true) (pending : evt.pendingAckActionId = none)
      (lifecycle : evt.ackLifecycleState = some "ACK_CONFIRMED")

def life (r : AlarmRow) : AlarmState × Bool × Bool × ℤ :=
  (r.state, r.conditionActive, r.acknowledged, r.severity)

def after (c : UnitOfWork.Command Guid AlarmRow) (r : AlarmRow) : Option AlarmRow :=
  if c.selects r then if (c.change r).2 then none else some (c.change r).1 else some r

section Rows

variable {rt}

theorem sameText_of_length_ne {s t : String} (h : s.toList.length ≠ t.toList.length) :
    sameText rt s t = false := by
  refine decide_eq_false fun hsame => h ?_
  have hlength := congrArg List.length hsame
  rwa [List.length_map, List.length_map] at hlength

theorem sameText_refl (s : String) : sameText rt s s = true := decide_eq_true rfl

theorem isWhiteSpaceOnly_empty : isWhiteSpaceOnly "" = true := by decide

theorem sameText_empty {s : String} (h : sameText rt "" s = true) : s = "" := by
  have hsame := of_decide_eq_true h
  have hnil : s.toList = [] := List.map_eq_nil_iff.mp hsame.symm
  exact String.toList_eq_nil_iff.mp hnil

theorem matchesIngestEvent_eq (r : AlarmRow) (evt : NormalizedAlarmEvent) :
    matchesIngestEvent rt r evt = matchesColumns rt evt r.uniqueColumns := by
  refine Bool.eq_iff_iff.mpr ?_
  unfold matchesIngestEvent matchesColumns AlarmRow.uniqueColumns
  simp only [decide_eq_true_eq]
  refine and_congr_right fun _ => ?_
  cases hsub : evt.subConditionName with
  | none => simp [isBlank]
  | some s =>
    cases hrow : r.subConditionName with
    | some t => rfl
    | none =>
      -- a missing sub-condition is stored as an empty one, which only a blank one matches
      constructor
      · rintro (hblank | hsame)
        · exact Or.inl hblank
        · cases hsame
      · rintro (hblank | hsame)
        · exact Or.inl hblank
        · obtain rfl := sameText_empty hsame
          exact Or.inl isWhiteSpaceOnly_empty

theorem life_applyOpcTiming (evt : NormalizedAlarmEvent) (times : Times) (r : AlarmRow) :
    life (applyOpcTiming rt evt times r) = life r := by
  have hmerge : ∀ (r : AlarmRow) (u : AlarmRow.OpcUpdate), life (r.mergeOpcAttributes u) = life r :=
    fun _ _ => rfl
  have hsync : ∀ (r : AlarmRow) (activeTime ms : ℤ),
      life (r.syncOpcActiveTime activeTime ms) = life r := by
    intro r activeTime ms
    unfold AlarmRow.syncOpcActiveTime ActiveAlarm.syncOpcActiveTime
    split
    · rfl
    · rfl
  unfold applyOpcTiming
  dsimp only
  split
  · rw [hsync, hmerge]
  · rw [hmerge]

theorem conditionActive_applyOpcTiming (evt : NormalizedAlarmEvent) (times : Times)
    (r : AlarmRow) : (applyOpcTiming rt evt times r).conditionActive = r.conditionActive :=
  congrArg (fun l => l.2.1) (life_applyOpcTiming evt times r)

theorem life_propagateCookie (evt : NormalizedAlarmEvent) (times : Times) (r : AlarmRow) :
    life (propagateCookie rt evt times r) = life r := by
  unfold propagateCookie
  split
  · rfl
  · exact life_applyOpcTiming evt times r

theorem change_of_not_matches {evt : NormalizedAlarmEvent} {times : Times} {r : AlarmRow}
    (hrow : r.conditionActive = false) (h : matchesIngestEvent rt r evt = false) :
    change rt evt times r = (r, false) := by
  unfold change propagateCookie
  simp [h, hrow]

theorem life_applyConditionChange {evt : NormalizedAlarmEvent} {times : Times} {r : AlarmRow}
    (hactive : evt.conditionActive = true) (hrow : r.conditionActive = false) :
    life (applyConditionChange evt times r) =
      (.unacknowledgedUncleared, true, false, evt.severity) := by
  unfold applyConditionChange ActiveAlarm.applyConditionChange life
  simp [hactive, hrow]

theorem isAckStateUpdate_state {evt : NormalizedAlarmEvent}
    (h : evt.eventType = "ALARM_STATE_UPSERT") : isAckStateUpdate rt evt = false := by
  unfold isAckStateUpdate
  rw [h]
  exact sameText_of_length_ne (by decide)

theorem change_state {evt : NormalizedAlarmEvent} {times : Times} {r : AlarmRow}
    (htype : evt.eventType = "ALARM_STATE_UPSERT") (hactive : evt.conditionActive = true)
    (hcommand : evt.commandId = some "") (hpending : evt.pendingAckActionId = none)
    (hrow : r.conditionActive = false) (h : matchesIngestEvent rt r evt = true) :
    (change rt evt times r).2 = false ∧
      life (change rt evt times r).1 = (.unacknowledgedUncleared, true, false, evt.severity) := by
  have hack : isAckStateUpdate rt evt = false := isAckStateUpdate_state htype
  have hprojection : ackProjection evt = none := by
    unfold ackProjection isOperatorAckProjection
    rw [hcommand, hpending]
    rfl
  have htimed : (applyOpcTiming rt evt times r).conditionActive = false :=
    (conditionActive_applyOpcTiming evt times r).trans hrow
  have hupdated : (updateMatch rt evt times r).2 = false ∧
      life (updateMatch rt evt times r).1 =
        (.unacknowledgedUncleared, true, false, evt.severity) := by
    unfold updateMatch
    dsimp only
    rw [hprojection]
    dsimp only
    rw [hack, if_neg Bool.false_ne_true]
    split
    · refine ⟨by simp [hactive], life_applyConditionChange hactive ?_⟩
      unfold reconciledRow reconciled ActiveAlarm.reconcileAcknowledgement
      split
      · exact htimed
      · exact htimed
    · split
      · exact ⟨by simp [hactive], life_applyConditionChange hactive htimed⟩
      · refine ⟨by simp [hactive], life_applyConditionChange hactive ?_⟩
        unfold ActiveAlarm.clearOpcInferredAcknowledgement
        split
        · exact htimed
        · exact htimed
  unfold change
  dsimp only
  rw [if_pos h, hack, if_neg Bool.false_ne_true, life_propagateCookie]
  exact hupdated

theorem change_ackUpdate {evt : NormalizedAlarmEvent} {times : Times} {r : AlarmRow}
    (htype : evt.eventType = "ACK_STATE_UPDATE") (hcommand : evt.commandId.isSome = true)
    (hpending : evt.pendingAckActionId = none)
    (hlifecycle : evt.ackLifecycleState = some "ACK_CONFIRMED")
    (hstate : r.state = .unacknowledgedUncleared) (h : matchesIngestEvent rt r evt = true) :
    (change rt evt times r).2 = false ∧
      convertToDb (change rt evt times r).1.state = "ACTIVE" ∧
      (change rt evt times r).1.acknowledged =
        (decide (r.acknowledged = true ∨ evt.commandId ≠ some "")) ∧
      (change rt evt times r).1.severity = r.severity := by
  have hack : isAckStateUpdate rt evt = true := by
    unfold isAckStateUpdate
    rw [htype]
    exact sameText_refl _
  have htimed : life (applyOpcTiming rt evt times r) = life r := life_applyOpcTiming evt times r
  have hstate' : (applyOpcTiming rt evt times r).state = .unacknowledgedUncleared :=
    (congrArg Prod.fst htimed).trans hstate
  have hacknowledged : (applyOpcTiming rt evt times r).acknowledged = r.acknowledged :=
    congrArg (fun l => l.2.2.1) htimed
  have hseverity : (applyOpcTiming rt evt times r).severity = r.severity :=
    congrArg (fun l => l.2.2.2) htimed
  unfold change
  dsimp only
  rw [if_pos h, hack, if_pos rfl]
  unfold updateMatch
  dsimp only
  by_cases hempty : evt.commandId = some ""
  · have hprojection : ackProjection evt = none := by
      unfold ackProjection isOperatorAckProjection
      rw [hempty, hpending]
      rfl
    rw [hprojection]
    dsimp only
    rw [hack, if_pos rfl]
    refine ⟨rfl, ?_, ?_, hseverity⟩
    · rw [hstate']
      rfl
    · rw [hacknowledged]
      simp [hempty]
  · have hprojection : ackProjection evt = some "ACK_CONFIRMED" := by
      obtain ⟨command, hsome⟩ := Option.isSome_iff_exists.mp hcommand
      have hcommandNe : command ≠ "" := fun h => hempty (h ▸ hsome)
      unfold ackProjection isOperatorAckProjection
      rw [hsome, hlifecycle]
      simp [AlarmRow.nonEmpty, Option.filter, hcommandNe]
    rw [hprojection]
    dsimp only
    unfold ActiveAlarm.applyAckLifecycle
    dsimp only
    rw [if_pos rfl]
    split
    · rename_i hacked
      refine ⟨rfl, ?_, ?_, hseverity⟩
      · dsimp only
        rw [hstate']
        rfl
      · dsimp only
        rw [hacked]
        simp [hempty]
    · refine ⟨rfl, ?_, ?_, hseverity⟩
      · dsimp only
        rw [hstate', if_pos (Or.inr rfl)]
        rfl
      · simp [hempty]

/-! ## The command of a record -/

theorem isDelete_iff (happart : TellsKindsApart rt) {evt : NormalizedAlarmEvent} (hkind : Kind evt) :
    sameText rt evt.eventType "ALARM_STATE_DELETE" = true ↔
      evt.eventType = "ALARM_STATE_DELETE" := by
  constructor
  · intro hsame
    cases hkind with
    | state htype hactive hcommand hpending =>
      rw [htype, happart] at hsame
      cases hsame
    | removal htype hmessage => exact htype
    | ackUpdate htype hcommand hpending hlifecycle =>
      rw [htype, sameText_of_length_ne (by decide)] at hsame
      cases hsame
  · intro htype
    rw [htype]
    exact sameText_refl _

/-- What a command does, whose record names a server and a source: it asks for the rows of both, and
for the one that matches. -/
structure CommandOf (rt : Runtime) (evt : NormalizedAlarmEvent) (c : UnitOfWork.Command Guid AlarmRow) : Prop where
  selects : ∀ r, c.selects r = true ↔
    rt.tryParseGuid evt.serverId = some r.serverId ∧ resolveSourceName rt evt = r.sourceName
  finds : ∀ r, c.finds r = matchesIngestEvent rt r evt

theorem selects_iff {evt : NormalizedAlarmEvent} {serverId : Guid}
    (hserver : rt.tryParseGuid evt.serverId = some serverId) (source : String) (r : AlarmRow) :
    selects serverId source r = true ↔
      rt.tryParseGuid evt.serverId = some r.serverId ∧ source = r.sourceName := by
  unfold selects
  rw [decide_eq_true_iff, hserver, Option.some_inj]
  exact and_congr eq_comm eq_comm

theorem request_cases (happart : TellsKindsApart rt) {evt : NormalizedAlarmEvent} (hkind : Kind evt)
    {now : ℤ} {c : UnitOfWork.Command Guid AlarmRow} (hc : request rt (evt, now) = .ok c) :
    (c = skipped ∧ (rt.tryParseGuid evt.serverId = none ∨
      isWhiteSpaceOnly (resolveSourceName rt evt) = true)) ∨
    (CommandOf rt evt c ∧ evt.eventType = "ALARM_STATE_DELETE" ∧
      (fromUnixTimeMilliseconds evt.eventTimeEpochMs).isSome ∧
      c.change = (fun r => (r, matchesIngestEvent rt r evt)) ∧ c.create = .ok none) ∨
    (CommandOf rt evt c ∧ evt.eventType ≠ "ALARM_STATE_DELETE" ∧
      (fromUnixTimeMilliseconds evt.eventTimeEpochMs).isSome ∧
      (fromUnixTimeMilliseconds evt.activeTimeEpochMs).isSome ∧
      ∃ times serverId, rt.tryParseGuid evt.serverId = some serverId ∧
        c.change = change rt evt times ∧
        c.create = if evt.conditionActive ∧ ¬ isAckStateUpdate rt evt then
            (newAlarm rt evt times serverId (resolveSourceName rt evt)).map some
          else .ok none) := by
  unfold request processAsync at hc
  dsimp only at hc
  split at hc
  · rename_i hserver
    exact Or.inl ⟨(Except.ok.inj hc).symm, Or.inl hserver⟩
  · rename_i serverId hserver
    split at hc
    · rename_i hdelete
      have htype := (isDelete_iff happart hkind).mp hdelete
      -- a removal has no message to read a source from
      have hresolve : resolveSourceName rt evt = evt.sourceName := by
        cases hkind with
        | state htype' hactive hcommand hpending =>
          rw [htype] at htype'
          exact absurd htype' (by decide)
        | removal htype' hmessage =>
          unfold resolveSourceName
          rw [hmessage]
          exact if_neg fun h => h.2 rfl
        | ackUpdate htype' hcommand hpending hlifecycle =>
          rw [htype] at htype'
          exact absurd htype' (by decide)
      unfold handleDelete at hc
      rw [← hresolve] at hc
      split at hc
      · rename_i hblank
        exact Or.inl ⟨(Except.ok.inj hc).symm, Or.inr hblank⟩
      · split at hc
        · cases hc
        · rename_i eventTime htime
          obtain rfl := Except.ok.inj hc
          refine Or.inr (Or.inl ⟨⟨selects_iff hserver _, fun _ => rfl⟩, htype, ?_, rfl, rfl⟩)
          rw [htime]
          rfl
    · rename_i hdelete
      have htype : evt.eventType ≠ "ALARM_STATE_DELETE" := fun h =>
        hdelete ((isDelete_iff happart hkind).mpr h)
      split at hc
      · rename_i hblank
        exact Or.inl ⟨(Except.ok.inj hc).symm, Or.inr hblank⟩
      · split at hc
        · rename_i eventTime activeTime htime hactive
          obtain rfl := Except.ok.inj hc
          refine Or.inr (Or.inr ⟨⟨selects_iff hserver _, fun _ => rfl⟩, htype, ?_, ?_, _, _,
            hserver, rfl, rfl⟩)
          · rw [htime]
            rfl
          · rw [hactive]
            rfl
        · cases hc

end Rows

/-! ## A record and a row -/

/-- A row shows the view of an alarm: a record of the alarm raised it. -/
structure Shows (records : List StateRecord) (k : String ⊕ StateRecord) (r : AlarmRow) (v : View) :
    Prop where
  raised : ∃ s ∈ records, s.key = k ∧ raisedColumns rt s.event = some r.uniqueColumns
  life : life r = (.unacknowledgedUncleared, false, v.acknowledged, v.severity)

section Steps

variable {rt} {records : List StateRecord}

theorem WellKeyed.key_eq (h : WellKeyed rt records) {r : StateRecord} (hr : r ∈ records) :
    r.key = .inl (r.event.alarmId.getD "") := by
  have hidentified := h.identified r hr
  unfold StateRecord.key
  cases hid : r.event.alarmId with
  | none =>
    rw [hid] at hidentified
    cases hidentified
  | some alarmId =>
    rw [hid] at hidentified
    have hne : alarmId ≠ "" := by
      rintro rfl
      exact absurd isWhiteSpaceOnly_empty (Bool.eq_false_iff.mp hidentified)
    have hnonEmpty : AlarmRow.nonEmpty (some alarmId) = some alarmId := by
      simp [AlarmRow.nonEmpty, Option.filter, hne]
    rw [hnonEmpty]
    rfl

theorem WellKeyed.alarmId_eq_iff (h : WellKeyed rt records) {r s : StateRecord} (hr : r ∈ records)
    (hs : s ∈ records) : r.event.alarmId = s.event.alarmId ↔ s.key = r.key := by
  rw [h.key_eq hr, h.key_eq hs, Sum.inl.injEq]
  have hsome : ∀ r ∈ records, r.event.alarmId = some (r.event.alarmId.getD "") := by
    intro r hr
    have hidentified := h.identified r hr
    cases hid : r.event.alarmId with
    | none =>
      rw [hid] at hidentified
      cases hidentified
    | some alarmId => rfl
  constructor
  · intro heq
    rw [heq]
  · intro heq
    rw [hsome r hr, hsome s hs, heq]

theorem raisedColumns_eq_some_iff {evt : NormalizedAlarmEvent} {c : UniqueColumns} :
    raisedColumns rt evt = some c ↔
      (evt.eventType = "ALARM_STATE_UPSERT" ∧ ¬ isWhiteSpaceOnly (resolveSourceName rt evt) = true ∧
        (fromUnixTimeMilliseconds evt.eventTimeEpochMs).isSome ∧
        (fromUnixTimeMilliseconds evt.activeTimeEpochMs).isSome ∧
        1 ≤ evt.severity ∧ evt.severity ≤ 1000) ∧
      ∃ serverId, rt.tryParseGuid evt.serverId = some serverId ∧
        c = { alarmId := evt.alarmId.getD "", serverId := serverId,
              sourceName := trim (resolveSourceName rt evt), conditionName := evt.conditionName,
              subConditionName := evt.subConditionName.getD "" } := by
  unfold raisedColumns
  rw [Option.ite_none_right_eq_some, Option.map_eq_some_iff]
  exact and_congr_right fun _ => exists_congr fun _ => and_congr_right fun _ => eq_comm

theorem Shows.finds_iff (hwell : WellKeyed rt records) {r : StateRecord} (hr : r ∈ records)
    {k : String ⊕ StateRecord} {row : AlarmRow} {v : View} (h : Shows rt records k row v) :
    Finds rt r.event row.uniqueColumns ↔ k = r.key := by
  obtain ⟨s, hs, rfl, hraised⟩ := h.raised
  exact (hwell.finds r hr s hs _ hraised).trans (hwell.alarmId_eq_iff hr hs)

theorem Shows.source (hwell : WellKeyed rt records) {k : String ⊕ StateRecord} {row : AlarmRow}
    {v : View} (h : Shows rt records k row v) : isWhiteSpaceOnly row.sourceName = false := by
  obtain ⟨s, hs, rfl, hraised⟩ := h.raised
  have hself := (hwell.finds s hs s hs _ hraised).mpr rfl
  obtain ⟨⟨-, hsource, -⟩, -⟩ := raisedColumns_eq_some_iff.mp hraised
  rw [hself.2.1] at hsource
  exact Bool.eq_false_iff.mpr hsource

theorem Shows.reload {k : String ⊕ StateRecord} {row : AlarmRow} {v : View}
    (h : Shows rt records k row v) (tryParse : String → Option AlarmState) :
    Shows rt records k (row.reload tryParse) v := by
  refine ⟨h.raised, ?_⟩
  obtain ⟨hstate, hrest⟩ := Prod.mk.inj h.life
  obtain ⟨-, hview⟩ := Prod.mk.inj hrest
  have hloaded : convertFromDb tryParse (convertToDb row.state) = .unacknowledgedUncleared := by
    rw [hstate]
    rfl
  exact Prod.ext hloaded (Prod.ext rfl hview)

theorem after_of_finds {evt : NormalizedAlarmEvent} {c : UnitOfWork.Command Guid AlarmRow}
    (hc : CommandOf rt evt c) {row : AlarmRow} (h : Finds rt evt row.uniqueColumns) :
    after c row = if (c.change row).2 then none else some (c.change row).1 :=
  if_pos ((hc.selects row).mpr ⟨h.1, h.2.1⟩)

theorem after_of_not_finds {evt : NormalizedAlarmEvent} {c : UnitOfWork.Command Guid AlarmRow}
    (hc : CommandOf rt evt c) {row : AlarmRow} (h : ¬ Finds rt evt row.uniqueColumns)
    (hchange : matchesIngestEvent rt row evt = false → c.change row = (row, false)) :
    after c row = some row := by
  unfold after
  split
  · rename_i hselects
    obtain ⟨hserver, hsource⟩ := (hc.selects row).mp hselects
    have hmatches : matchesIngestEvent rt row evt = false := by
      rw [matchesIngestEvent_eq]
      exact Bool.eq_false_iff.mpr fun hmatches => h ⟨hserver, hsource, hmatches⟩
    rw [hchange hmatches]
    rfl
  · rfl

theorem shows_reload {k : String ⊕ StateRecord} {row : AlarmRow} {v : View}
    (hraised : ∃ s ∈ records, s.key = k ∧ raisedColumns rt s.event = some row.uniqueColumns)
    (hstate : convertToDb row.state = "ACTIVE") (hacknowledged : row.acknowledged = v.acknowledged)
    (hseverity : row.severity = v.severity) (tryParse : String → Option AlarmState) :
    Shows rt records k (row.reload tryParse) v := by
  have hloaded : convertFromDb tryParse (convertToDb row.state) = .unacknowledgedUncleared := by
    rw [hstate]
    rfl
  exact ⟨hraised, Prod.ext hloaded (Prod.ext rfl (Prod.ext hacknowledged hseverity))⟩

theorem Shows.changed {k : String ⊕ StateRecord} {row row' : AlarmRow} {v v' : View}
    (h : Shows rt records k row v) (hcolumns : row'.uniqueColumns = row.uniqueColumns)
    (hstate : convertToDb row'.state = "ACTIVE") (hacknowledged : row'.acknowledged = v'.acknowledged)
    (hseverity : row'.severity = v'.severity) (tryParse : String → Option AlarmState) :
    Shows rt records k (row'.reload tryParse) v' := by
  obtain ⟨s, hs, hk, hraised⟩ := h.raised
  rw [← hcolumns] at hraised
  exact shows_reload ⟨s, hs, hk, hraised⟩ hstate hacknowledged hseverity tryParse

theorem Shows.rel_after (hwell : WellKeyed rt records) (happart : TellsKindsApart rt) {r : StateRecord}
    (hr : r ∈ records) (hkind : Kind r.event) {now : ℤ} {c : UnitOfWork.Command Guid AlarmRow}
    (hc : request rt (r.event, now) = .ok c) {k : String ⊕ StateRecord} {row : AlarmRow} {v : View}
    (h : Shows rt records k row v) :
    Option.Rel (Shows rt records k)
      ((after c (row.reload rt.tryParseState)).map (AlarmRow.reload rt.tryParseState))
      (if k = r.key then nextView rt r.event (some v) else some v) := by
  have hloaded := h.reload rt.tryParseState
  have hfinds := hloaded.finds_iff hwell hr
  have hinactive : (row.reload rt.tryParseState).conditionActive = false := rfl
  have hstate : (row.reload rt.tryParseState).state = .unacknowledgedUncleared :=
    congrArg Prod.fst hloaded.life
  generalize row.reload rt.tryParseState = row at hloaded hfinds hinactive hstate
  rcases request_cases happart hkind hc with ⟨rfl, hnone⟩ |
    ⟨hcommand, htype, htime, hchange, -⟩ |
    ⟨hcommand, htype, htime, hactiveTime, times, serverId, hserver, hchange, -⟩
  · -- without a server or a source no row is found
    have hother : k ≠ r.key := by
      intro hk
      obtain ⟨hserver, hsource, -⟩ := hfinds.mpr hk
      rcases hnone with hnone | hblank
      · rw [hnone] at hserver
        cases hserver
      · have hrow : isWhiteSpaceOnly row.sourceName = false := hloaded.source hwell
        rw [hsource] at hblank
        exact absurd hblank (Bool.eq_false_iff.mp hrow)
    rw [if_neg hother]
    exact Option.Rel.some (hloaded.reload _)
  · split
    · rename_i hk
      have hfound := hfinds.mpr hk
      have hremoved : (c.change row).2 = true := by
        rw [hchange]
        dsimp only
        rw [matchesIngestEvent_eq]
        exact hfound.2.2
      rw [after_of_finds hcommand hfound, if_pos hremoved]
      unfold nextView
      dsimp only
      rw [if_pos htype, if_pos htime]
      exact Option.Rel.none
    · rename_i hk
      rw [after_of_not_finds hcommand (fun hfound => hk (hfinds.mp hfound))]
      · exact Option.Rel.some (hloaded.reload _)
      · intro hmatches
        rw [hchange]
        dsimp only
        rw [hmatches]
  · split
    · rename_i hk
      have hfound := hfinds.mpr hk
      have hmatches : matchesIngestEvent rt row r.event = true := by
        rw [matchesIngestEvent_eq]
        exact hfound.2.2
      have hcolumns : (change rt r.event times row).1.uniqueColumns = row.uniqueColumns :=
        uniqueColumns_change r.event times row
      have htimes : ¬ ((fromUnixTimeMilliseconds r.event.eventTimeEpochMs).isNone = true ∨
          (fromUnixTimeMilliseconds r.event.activeTimeEpochMs).isNone = true) := by
        rw [Option.isNone_eq_false_iff.mpr htime, Option.isNone_eq_false_iff.mpr hactiveTime]
        simp
      rw [after_of_finds hcommand hfound, hchange]
      unfold nextView
      dsimp only
      rw [if_neg htype, if_neg htimes]
      obtain ⟨-, hview⟩ := Prod.mk.inj (Prod.mk.inj hloaded.life).2
      obtain ⟨hacknowledged, hseverity⟩ := Prod.mk.inj hview
      cases hkind with
      | state hupsert hactive hcommandId hpending =>
        obtain ⟨hkept, hlife⟩ := @change_state rt _ times _ hupsert hactive hcommandId hpending
          hinactive hmatches
        rw [hkept, if_neg Bool.false_ne_true, if_neg (by rw [hupsert]; decide)]
        refine Option.Rel.some (hloaded.changed hcolumns ?_ ?_ ?_ _)
        · have hraised : (change rt r.event times row).1.state = .unacknowledgedUncleared :=
            congrArg Prod.fst hlife
          rw [hraised]
          rfl
        · exact congrArg (fun l => l.2.2.1) hlife
        · exact congrArg (fun l => l.2.2.2) hlife
      | removal hdelete hmessage => exact absurd hdelete htype
      | ackUpdate hack hcommandId hpending hlifecycle =>
        obtain ⟨hkept, hdb, hack', hseverity'⟩ := @change_ackUpdate rt _ times _ hack hcommandId
          hpending hlifecycle hstate hmatches
        rw [hkept, if_neg Bool.false_ne_true, if_pos hack]
        refine Option.Rel.some (hloaded.changed hcolumns hdb ?_ ?_ _)
        · rw [hack', hacknowledged]
        · rw [hseverity', hseverity]
    · rename_i hk
      rw [after_of_not_finds hcommand (fun hfound => hk (hfinds.mp hfound))]
      · exact Option.Rel.some (hloaded.reload _)
      · intro hmatches
        rw [hchange]
        exact change_of_not_matches hinactive hmatches

end Steps

/-! ## A record and the table -/

section Tables

variable {rt} {table : Table} {d : Received} {c : UnitOfWork.Command Guid AlarmRow}

theorem live_loaded : UnitOfWork.live (loaded rt table) =
    table.values.map (AlarmRow.reload rt.tryParseState) := by
  unfold UnitOfWork.live
  rw [saved_loaded]
  unfold loaded Dict.values
  rw [Dict.entries_mapValues, List.map_map, List.map_map, List.map_map]
  rfl

theorem mem_values_iff {row : AlarmRow} :
    row ∈ table.values ↔ ∃ g, table.get? g = some row := by
  unfold Dict.values
  constructor
  · intro hrow
    obtain ⟨⟨g, row⟩, hmem, rfl⟩ := List.mem_map.mp hrow
    exact ⟨g, Dict.get?_eq_some_iff.mpr hmem⟩
  · rintro ⟨g, hget⟩
    exact List.mem_map_of_mem (Dict.get?_eq_some_iff.mp hget)

theorem uniqueRows_stored {w : UnitOfWork.Work Guid AlarmRow}
    (h : uniqueRows (UnitOfWork.live w) = true) :
    uniqueRows (stored rt (UnitOfWork.saved w)).values = true := by
  have hcolumns : (stored rt (UnitOfWork.saved w)).values.map AlarmRow.uniqueColumns =
      (UnitOfWork.live w).map AlarmRow.uniqueColumns := by
    unfold stored UnitOfWork.live Dict.values
    rw [Dict.entries_mapValues, List.map_map, List.map_map, List.map_map, List.map_map]
    rfl
  rw [uniqueRows_iff, hcolumns]
  exact uniqueRows_iff.mp h

theorem get?_stored_saved (w : UnitOfWork.Work Guid AlarmRow) (g : Guid) :
    (stored rt (UnitOfWork.saved w)).get? g = (w.get? g).bind fun e =>
      if e.status = .removed then none else some (e.value.reload rt.tryParseState) := by
  unfold stored
  rw [Dict.get?_mapValues, UnitOfWork.get?_saved, Option.map_bind]
  refine congrArg (Option.bind _) (funext fun e => ?_)
  dsimp only [Function.comp]
  split
  · rfl
  · rfl

theorem get?_touched (g : Guid) :
    (stored rt (UnitOfWork.saved ((loaded rt table).mapValues c.touch))).get? g =
      (table.get? g).bind fun row =>
        (after c (row.reload rt.tryParseState)).map (AlarmRow.reload rt.tryParseState) := by
  rw [get?_stored_saved, Dict.get?_mapValues]
  unfold loaded
  rw [Dict.get?_mapValues, Option.map_map, Option.bind_map]
  refine congrArg (Option.bind _) (funext fun row => ?_)
  unfold after UnitOfWork.Command.touch
  dsimp only [Function.comp]
  split
  · rename_i hselects
    rw [if_pos hselects.2]
    dsimp only
    split
    · rfl
    · rfl
  · rename_i hselects
    have hother : ¬ c.selects (row.reload rt.tryParseState) = true := fun h =>
      hselects ⟨by decide, h⟩
    rw [if_neg hother]
    rfl

theorem get?_stored_loaded (g : Guid) :
    (stored rt (loaded rt table)).get? g = (table.get? g).bind fun row =>
      some ((row.reload rt.tryParseState).reload rt.tryParseState) := by
  unfold stored loaded
  rw [Dict.get?_mapValues, Dict.get?_mapValues, Option.map_map, Option.map_eq_bind]
  rfl

theorem ingest_of_error {e : String}
    (h : UnitOfWork.process (loaded rt table) (request rt d) = .error e) :
    ingest rt table d = stored rt (loaded rt table) := by
  unfold ingest UnitOfWork.processAndSave
  rw [h]
  rfl

theorem ingest_of_exec {next : UnitOfWork.Work Guid AlarmRow} (hc : request rt d = .ok c)
    (hexec : c.exec (loaded rt table) = .ok next)
    (hvalid : uniqueRows (UnitOfWork.live next) = true) :
    ingest rt table d = stored rt (UnitOfWork.saved next) := by
  have hprocess : UnitOfWork.process (loaded rt table) (request rt d) = .ok next := by
    rw [hc]
    exact hexec
  unfold ingest UnitOfWork.processAndSave
  rw [hprocess, Except.bind, UnitOfWork.save, if_pos hvalid]

theorem ingest_touched (hunique : uniqueRows table.values = true) (hc : request rt d = .ok c)
    (h : c.foundVisible (loaded rt table) = true ∨ c.create = .ok none) :
    ingest rt table d =
        stored rt (UnitOfWork.saved ((loaded rt table).mapValues c.touch)) ∧
      uniqueRows (ingest rt table d).values = true := by
  have hexec : c.exec (loaded rt table) = .ok ((loaded rt table).mapValues c.touch) := by
    unfold UnitOfWork.Command.exec
    dsimp only
    rcases h with hfound | hcreate
    · rw [if_pos hfound]
    · rw [hcreate]
      exact ite_self _
  have hvalid : uniqueRows (UnitOfWork.live ((loaded rt table).mapValues c.touch)) = true := by
    refine uniqueRows_iff.mpr ?_
    exact (uniqueRows_iff.mp (uniqueRows_live_loaded hunique)).sublist
      (UnitOfWork.map_live_touch_sublist (uniqueColumns_request hc) _)
  rw [ingest_of_exec hc hexec hvalid]
  exact ⟨rfl, uniqueRows_stored hvalid⟩

theorem ingest_added (hunique : uniqueRows table.values = true) (hc : request rt d = .ok c)
    (hmissing : c.foundVisible (loaded rt table) = false) {g : Guid} {row : AlarmRow}
    (hcreate : c.create = .ok (some (g, row))) (hnew : table.get? g = none)
    (hdistinct : ∀ g' row', table.get? g' = some row' →
      row'.uniqueColumns.Distinct row.uniqueColumns) :
    ingest rt table d = stored rt (UnitOfWork.saved
        (((loaded rt table).mapValues c.touch).set g { value := row, status := .added })) ∧
      uniqueRows (ingest rt table d).values = true := by
  have hkey : g ∉ (loaded rt table).keys := by
    unfold loaded
    rw [Dict.keys_mapValues]
    exact Dict.get?_eq_none_iff.mp hnew
  have hexec : c.exec (loaded rt table) =
      .ok (((loaded rt table).mapValues c.touch).set g { value := row, status := .added }) := by
    unfold UnitOfWork.Command.exec
    dsimp only
    rw [hmissing, if_neg Bool.false_ne_true, hcreate]
    dsimp only
    rw [UnitOfWork.contains_eq_false hkey, if_neg Bool.false_ne_true]
  have hvalid := UnitOfWork.pairwise_live_exec (uniqueColumns_request hc)
    (uniqueRows_iff.mp (uniqueRows_live_loaded hunique)) (fun _ k v hcreate' => by
      rw [hcreate] at hcreate'
      obtain ⟨rfl, rfl⟩ := Prod.mk.inj (Option.some.inj (Except.ok.inj hcreate'))
      refine ⟨hkey, fun v' hv' => ?_⟩
      rw [live_loaded] at hv'
      obtain ⟨row', hrow', rfl⟩ := List.mem_map.mp hv'
      obtain ⟨g', hg'⟩ := mem_values_iff.mp hrow'
      exact hdistinct g' row' hg') hexec
  rw [ingest_of_exec hc hexec (uniqueRows_iff.mpr hvalid)]
  exact ⟨rfl, uniqueRows_stored (uniqueRows_iff.mpr hvalid)⟩

theorem get?_added (g g' : Guid) (row : AlarmRow) :
    (stored rt (UnitOfWork.saved
      (((loaded rt table).mapValues c.touch).set g { value := row, status := .added }))).get? g' =
      if g' = g then some (row.reload rt.tryParseState)
      else (stored rt (UnitOfWork.saved ((loaded rt table).mapValues c.touch))).get? g' := by
  rw [get?_stored_saved, Dict.get?_set]
  split
  · rfl
  · rw [get?_stored_saved]

theorem createFromOpcEvent_eq_ok {id : Guid} {n : ActiveAlarm.OpcNotification}
    {created : ActiveAlarm × List AlarmEvent}
    (h : ActiveAlarm.createFromOpcEvent id n = .ok created) :
    (1 ≤ n.severity ∧ n.severity ≤ 1000 ∧ ¬ isWhiteSpaceOnly n.sourceName = true) ∧
      (created.1.serverId = n.serverId ∧ created.1.sourceName = trim n.sourceName ∧
        created.1.conditionName = n.conditionName ∧
        created.1.subConditionName = n.subConditionName) ∧
      created.1.state = .unacknowledgedUncleared ∧ created.1.conditionActive = n.conditionActive ∧
      created.1.acknowledged = false ∧ created.1.severity = n.severity := by
  unfold ActiveAlarm.createFromOpcEvent at h
  split at h
  · cases h
  · rename_i hseverity
    split at h
    · cases h
    · rename_i hsource
      obtain rfl := Except.ok.inj h
      have hrange : 1 ≤ n.severity ∧ n.severity ≤ 1000 := by omega
      exact ⟨⟨hrange.1, hrange.2, hsource⟩, ⟨rfl, rfl, rfl, rfl⟩, rfl, rfl, rfl, rfl⟩

theorem newAlarm_eq_ok {evt : NormalizedAlarmEvent} {times : Times} {serverId g : Guid}
    {row : AlarmRow} (hid : isBlank evt.alarmId = false) (hcommand : evt.commandId = some "")
    (hpending : evt.pendingAckActionId = none)
    (h : newAlarm rt evt times serverId (resolveSourceName rt evt) = .ok (g, row)) :
    (1 ≤ evt.severity ∧ evt.severity ≤ 1000 ∧
        ¬ isWhiteSpaceOnly (resolveSourceName rt evt) = true) ∧ g = rowId rt evt ∧
      row.uniqueColumns =
        { alarmId := evt.alarmId.getD "", serverId := serverId,
          sourceName := trim (resolveSourceName rt evt), conditionName := evt.conditionName,
          subConditionName := evt.subConditionName.getD "" } ∧
      convertToDb row.state = "ACTIVE" ∧ row.acknowledged = evt.acknowledged ∧
      row.severity = evt.severity := by
  have hprojection : ackProjection evt = none := by
    unfold ackProjection isOperatorAckProjection
    rw [hcommand, hpending]
    rfl
  have hidentity : resolveAlarmIdentity rt evt serverId = (rowId rt evt, evt.alarmId.getD "") := by
    unfold resolveAlarmIdentity
    rw [hid]
    rfl
  unfold newAlarm Except.map at h
  rw [hprojection, hidentity] at h
  dsimp only at h
  split at h
  · cases h
  rename_i created hcreated
  obtain ⟨hrange, ⟨hserver, hsource, hcondition, hsub⟩, hstate, hactive, hunacked, hseverity⟩ :=
    createFromOpcEvent_eq_ok hcreated
  dsimp only at hrange hserver hsource hcondition hsub hactive hseverity
  obtain ⟨rfl, hrow⟩ := Prod.mk.inj (Except.ok.inj h)
  -- the alarm with its identity, and with the times of the server
  generalize hbase : AlarmRow.mk (created.1.setAlarmIdentity (rowId rt evt)
    (evt.alarmId.getD "")) Dict.empty = base at hrow
  have hcolumns : (applyOpcTiming rt evt times base).uniqueColumns =
      { alarmId := evt.alarmId.getD "", serverId := serverId,
        sourceName := trim (resolveSourceName rt evt), conditionName := evt.conditionName,
        subConditionName := evt.subConditionName.getD "" } := by
    rw [uniqueColumns_applyOpcTiming, ← hbase, ← hserver, ← hsource, ← hcondition, ← hsub]
    rfl
  have hlife : life (applyOpcTiming rt evt times base) =
      (.unacknowledgedUncleared, true, false, evt.severity) := by
    rw [life_applyOpcTiming, ← hbase, ← hstate, ← hactive, ← hunacked, ← hseverity]
    rfl
  generalize applyOpcTiming rt evt times base = timed at hrow hcolumns hlife
  obtain ⟨hstate, hrest⟩ := Prod.mk.inj hlife
  obtain ⟨hactive, hrest⟩ := Prod.mk.inj hrest
  obtain ⟨hunacked, hseverity⟩ := Prod.mk.inj hrest
  refine ⟨hrange, rfl, ?_⟩
  split at hrow
  · rename_i hacked
    obtain rfl := hrow
    have hreconciled : (reconciled times timed).toActiveAlarm =
        { timed.toActiveAlarm with
          acknowledged := true, ackedBy := none, ackComment := none,
          ackTime := some times.eventTime, state := .acknowledgedUncleared } := by
      unfold reconciled ActiveAlarm.reconcileAcknowledgement
      dsimp only
      rw [hunacked, if_neg Bool.false_ne_true, hactive]
      rfl
    refine ⟨?_, ?_, ?_, ?_⟩
    · rw [← hcolumns]
      unfold AlarmRow.uniqueColumns
      rw [hreconciled]
    · rw [hreconciled]
      rfl
    · rw [hreconciled]
      exact hacked.1.symm
    · rw [hreconciled]
      exact hseverity
  · rename_i hnot
    obtain rfl := hrow
    refine ⟨hcolumns, ?_, ?_, hseverity⟩
    · rw [hstate]
      rfl
    · rw [hunacked] at hnot ⊢
      have hunacked' : ¬ evt.acknowledged = true := fun h => hnot ⟨h, Bool.false_ne_true⟩
      exact (Bool.eq_false_iff.mpr hunacked').symm

theorem foundVisible_loaded_iff {evt : NormalizedAlarmEvent} (hc : CommandOf rt evt c) :
    c.foundVisible (loaded rt table) = true ↔
      ∃ g row, table.get? g = some row ∧ Finds rt evt row.uniqueColumns := by
  have hvalues : (loaded rt table).values = table.values.map fun r =>
      { value := r.reload rt.tryParseState, status := .stored } := by
    unfold loaded Dict.values
    rw [Dict.entries_mapValues, List.map_map, List.map_map]
    rfl
  unfold UnitOfWork.Command.foundVisible
  rw [hvalues, List.any_map, List.any_eq_true]
  constructor
  · rintro ⟨row, hrow, hfound⟩
    obtain ⟨g, hg⟩ := mem_values_iff.mp hrow
    obtain ⟨-, hselects, hfinds⟩ := of_decide_eq_true hfound
    obtain ⟨hserver, hsource⟩ := (hc.selects _).mp hselects
    rw [hc.finds, matchesIngestEvent_eq] at hfinds
    exact ⟨g, row, hg, hserver, hsource, hfinds⟩
  · rintro ⟨g, row, hg, hserver, hsource, hmatches⟩
    refine ⟨row, mem_values_iff.mpr ⟨g, hg⟩, decide_eq_true ⟨nofun, ?_, ?_⟩⟩
    · exact (hc.selects _).mpr ⟨hserver, hsource⟩
    · rw [hc.finds, matchesIngestEvent_eq]
      exact hmatches

theorem create_of_raises (happart : TellsKindsApart rt) {evt : NormalizedAlarmEvent}
    (hkind : Kind evt) {now : ℤ} (hc : request rt (evt, now) = .ok c)
    (hraises : raises rt evt = true) : ∃ added, c.create = .ok (some added) := by
  obtain ⟨columns, hraised⟩ := Option.isSome_iff_exists.mp hraises
  obtain ⟨⟨htype, hsource, -, -, hlow, hhigh⟩, serverId, hserver, -⟩ :=
    raisedColumns_eq_some_iff.mp hraised
  rcases request_cases happart hkind hc with ⟨-, hnone | hblank⟩ | ⟨-, hdelete, -⟩ |
    ⟨-, -, -, -, times, serverId', hserver', -, hcreate⟩
  · rw [hnone] at hserver
    cases hserver
  · exact absurd hblank hsource
  · rw [htype] at hdelete
    exact absurd hdelete (by decide)
  · cases hkind with
    | state htype' hactive hcommand hpending =>
      have hadds : evt.conditionActive = true ∧ ¬ isAckStateUpdate rt evt = true :=
        ⟨hactive, Bool.eq_false_iff.mp (isAckStateUpdate_state htype)⟩
      have hseverity : ¬ (evt.severity < 1 ∨ 1000 < evt.severity) := by omega
      rw [hcreate, if_pos hadds]
      unfold newAlarm ActiveAlarm.createFromOpcEvent
      dsimp only
      rw [if_neg hseverity, if_neg hsource]
      exact ⟨_, rfl⟩
    | removal htype' hmessage =>
      rw [htype] at htype'
      exact absurd htype' (by decide)
    | ackUpdate htype' hcommand hpending hlifecycle =>
      rw [htype] at htype'
      exact absurd htype' (by decide)

theorem raisedColumns_of_create (happart : TellsKindsApart rt) {evt : NormalizedAlarmEvent}
    (hkind : Kind evt) (hid : isBlank evt.alarmId = false) {now : ℤ}
    (hc : request rt (evt, now) = .ok c) {g : Guid} {row : AlarmRow}
    (hcreate : c.create = .ok (some (g, row))) :
    CommandOf rt evt c ∧ g = rowId rt evt ∧ raisedColumns rt evt = some row.uniqueColumns ∧
      convertToDb row.state = "ACTIVE" ∧ row.acknowledged = evt.acknowledged ∧
      row.severity = evt.severity := by
  rcases request_cases happart hkind hc with ⟨rfl, -⟩ | ⟨-, -, -, -, hnone⟩ |
    ⟨hcommand, htype', htime, hactiveTime, times, serverId, hserver, -, hadds⟩
  · cases hcreate
  · rw [hnone] at hcreate
    cases hcreate
  · rw [hcreate] at hadds
    split at hadds
    · rename_i hnew
      cases hnewAlarm : newAlarm rt evt times serverId (resolveSourceName rt evt) with
      | error e =>
        rw [hnewAlarm] at hadds
        cases hadds
      | ok added =>
        rw [hnewAlarm] at hadds
        obtain rfl := Option.some.inj (Except.ok.inj hadds)
        cases hkind with
        | state htype hactive hcommandId hpending =>
          obtain ⟨⟨hlow, hhigh, hsource⟩, hg, hcolumns, hstate, hacknowledged, hseverity⟩ :=
            newAlarm_eq_ok hid hcommandId hpending hnewAlarm
          refine ⟨hcommand, hg, ?_, hstate, hacknowledged, hseverity⟩
          exact raisedColumns_eq_some_iff.mpr
            ⟨⟨htype, hsource, htime, hactiveTime, hlow, hhigh⟩, serverId, hserver, hcolumns⟩
        | removal hdelete hmessage => exact absurd hdelete htype'
        | ackUpdate htype hcommandId hpending hlifecycle =>
          refine absurd ?_ hnew.2
          unfold isAckStateUpdate
          rw [htype]
          exact sameText_refl _
    · cases hadds

end Tables

/-! ## Runs -/

/-- The table holds what the views tell of the alarms of the records, and nothing else. -/
structure Tells (records : List StateRecord) (views : String ⊕ StateRecord → Option View)
    (table : Table) : Prop where
  unique : uniqueRows table.values = true
  shows : ∀ s ∈ records,
    Option.Rel (Shows rt records s.key) (table.get? (rowId rt s.event)) (views s.key)
  only : ∀ g row, table.get? g = some row → ∃ s ∈ records, rowId rt s.event = g

section Runs

variable {rt} {records : List StateRecord} {views : String ⊕ StateRecord → Option View}
  {table : Table}

abbrev viewsStep (rt : Runtime) (views : String ⊕ StateRecord → Option View) (r : StateRecord) :
    String ⊕ StateRecord → Option View :=
  Compaction.keyedStep StateRecord.key (fun r => nextView rt r.event) views r

theorem nextView_of_error (happart : TellsKindsApart rt) {evt : NormalizedAlarmEvent}
    (hkind : Kind evt) {now : ℤ} {e : String} (h : request rt (evt, now) = .error e)
    (v : Option View) : nextView rt evt v = v := by
  have htimes : (fromUnixTimeMilliseconds evt.eventTimeEpochMs).isSome = false ∨
      (evt.eventType ≠ "ALARM_STATE_DELETE" ∧
        (fromUnixTimeMilliseconds evt.activeTimeEpochMs).isSome = false) := by
    unfold request processAsync at h
    dsimp only at h
    split at h
    · cases h
    · split at h
      · unfold handleDelete at h
        split at h
        · cases h
        · split at h
          · rename_i htime
            rw [htime]
            exact Or.inl rfl
          · cases h
      · rename_i hdelete
        split at h
        · cases h
        · split at h
          · cases h
          · rename_i htime
            cases heventTime : fromUnixTimeMilliseconds evt.eventTimeEpochMs with
            | none => exact Or.inl rfl
            | some eventTime =>
              refine Or.inr ⟨fun htype => hdelete ((isDelete_iff happart hkind).mpr htype), ?_⟩
              cases hactiveTime : fromUnixTimeMilliseconds evt.activeTimeEpochMs with
              | none => rfl
              | some activeTime => exact absurd hactiveTime (htime eventTime activeTime heventTime)
  cases v with
  | none =>
    have hraises : raises rt evt = false := by
      refine Bool.eq_false_iff.mpr fun hraises => ?_
      obtain ⟨columns, hraised⟩ := Option.isSome_iff_exists.mp hraises
      obtain ⟨⟨-, -, htime, hactiveTime, -⟩, -⟩ := raisedColumns_eq_some_iff.mp hraised
      rcases htimes with hnone | ⟨-, hnone⟩
      · rw [htime] at hnone
        cases hnone
      · rw [hactiveTime] at hnone
        cases hnone
    unfold nextView
    dsimp only
    rw [hraises]
    rfl
  | some v =>
    unfold nextView
    dsimp only
    rcases htimes with hnone | ⟨htype, hnone⟩
    · have hisNone := Option.isSome_eq_false_iff.mp hnone
      rw [hnone, if_pos (Or.inl hisNone)]
      split
      · rfl
      · rfl
    · have hisNone := Option.isSome_eq_false_iff.mp hnone
      rw [if_neg htype, if_pos (Or.inr hisNone)]

theorem Tells.get?_eq_none (h : Tells rt records views table) {s : StateRecord}
    (hs : s ∈ records) (hview : views s.key = none) : table.get? (rowId rt s.event) = none := by
  have hrow := h.shows s hs
  rw [hview] at hrow
  cases hget : table.get? (rowId rt s.event) with
  | none => rfl
  | some row =>
    rw [hget] at hrow
    cases hrow

theorem Tells.get?_eq_some (h : Tells rt records views table) {s : StateRecord}
    (hs : s ∈ records) {v : View} (hview : views s.key = some v) :
    ∃ row, table.get? (rowId rt s.event) = some row ∧ Shows rt records s.key row v := by
  have hrow := h.shows s hs
  rw [hview] at hrow
  cases hget : table.get? (rowId rt s.event) with
  | none =>
    rw [hget] at hrow
    cases hrow
  | some row =>
    rw [hget] at hrow
    cases hrow with
    | some hshows => exact ⟨row, rfl, hshows⟩

theorem viewsStep_apply (r : StateRecord) (k : String ⊕ StateRecord) :
    viewsStep rt views r k = if k = r.key then nextView rt r.event (views k) else views k := by
  split
  · rename_i hk
    rw [hk]
    exact Compaction.keyedStep_self _ _
  · rename_i hk
    exact Compaction.keyedStep_of_ne _ hk

theorem Tells.kept (h : Tells rt records views table) {r : StateRecord} {table' : Table}
    {f : AlarmRow → Option AlarmRow} (hunique : uniqueRows table'.values = true)
    (hget : ∀ g, table'.get? g = (table.get? g).bind f)
    (hrel : ∀ k row v, views k = some v → Shows rt records k row v →
      Option.Rel (Shows rt records k) (f row)
        (if k = r.key then nextView rt r.event (some v) else some v))
    (hnone : views r.key = none → raises rt r.event = false) :
    Tells rt records (viewsStep rt views r) table' := by
  refine ⟨hunique, ?_, ?_⟩
  · intro s hs
    rw [hget, viewsStep_apply]
    cases hview : views s.key with
    | none =>
      rw [h.get?_eq_none hs hview]
      split
      · rename_i hk
        rw [hk] at hview
        unfold nextView
        dsimp only
        rw [hnone hview]
        exact Option.Rel.none
      · exact Option.Rel.none
    | some v =>
      obtain ⟨row, hrow, hshows⟩ := h.get?_eq_some hs hview
      rw [hrow]
      exact hrel _ _ _ hview hshows
  · intro g row hg
    rw [hget] at hg
    obtain ⟨row', hrow', -⟩ := Option.bind_eq_some_iff.mp hg
    exact h.only g row' hrow'

theorem Tells.of_get? (h : Tells rt records views table) {g : Guid} {row : AlarmRow}
    (hget : table.get? g = some row) : ∃ s ∈ records, ∃ v, rowId rt s.event = g ∧
      views s.key = some v ∧ Shows rt records s.key row v := by
  obtain ⟨s, hs, rfl⟩ := h.only g row hget
  cases hview : views s.key with
  | none =>
    rw [h.get?_eq_none hs hview] at hget
    cases hget
  | some v =>
    obtain ⟨row', hrow', hshows⟩ := h.get?_eq_some hs hview
    rw [hget] at hrow'
    obtain rfl := Option.some.inj hrow'
    exact ⟨s, hs, v, rfl, hview, hshows⟩

theorem Tells.foundVisible_iff (hwell : WellKeyed rt records) (h : Tells rt records views table)
    {r : StateRecord} (hr : r ∈ records) {c : UnitOfWork.Command Guid AlarmRow}
    (hc : CommandOf rt r.event c) :
    c.foundVisible (loaded rt table) = true ↔ views r.key ≠ none := by
  rw [foundVisible_loaded_iff hc]
  constructor
  · rintro ⟨g, row, hget, hfinds⟩
    obtain ⟨s, hs, v, rfl, hview, hshows⟩ := h.of_get? hget
    have hk := (hshows.finds_iff hwell hr).mp hfinds
    rw [← hk, hview]
    exact Option.some_ne_none v
  · intro hview
    obtain ⟨v, hv⟩ := Option.ne_none_iff_exists'.mp hview
    obtain ⟨row, hget, hshows⟩ := h.get?_eq_some hr hv
    exact ⟨_, row, hget, (hshows.finds_iff hwell hr).mpr rfl⟩

theorem Tells.distinct (hwell : WellKeyed rt records) (h : Tells rt records views table)
    {r : StateRecord} (hr : r ∈ records) (hview : views r.key = none) {columns : UniqueColumns}
    (hraised : raisedColumns rt r.event = some columns) {g : Guid} {row : AlarmRow}
    (hget : table.get? g = some row) : row.uniqueColumns.Distinct columns := by
  obtain ⟨s, hs, v, rfl, hsview, hshows⟩ := h.of_get? hget
  have hother : s.key ≠ r.key := by
    intro hk
    rw [hk, hview] at hsview
    cases hsview
  obtain ⟨u, hu, huk, huraised⟩ := hshows.raised
  refine ⟨?_, Or.inr ?_⟩
  · -- both rows carry the id of their alarm
    intro hid
    obtain ⟨-, userver, -, hucolumns⟩ := raisedColumns_eq_some_iff.mp huraised
    obtain ⟨-, server, -, hcolumns⟩ := raisedColumns_eq_some_iff.mp hraised
    rw [hucolumns, hcolumns] at hid
    refine hother ?_
    rw [← huk, hwell.key_eq hu, hwell.key_eq hr]
    exact congrArg Sum.inl hid
  · intro hsame
    obtain ⟨hserver, hrest⟩ := Prod.mk.inj hsame
    obtain ⟨hsource, hrest⟩ := Prod.mk.inj hrest
    obtain ⟨hcondition, hsub⟩ := Prod.mk.inj hrest
    -- the record would find the row, as it finds its own
    have hself := (hwell.finds r hr r hr _ hraised).mpr rfl
    refine hother ((hshows.finds_iff hwell hr).mp ⟨?_, ?_, ?_⟩)
    · rw [hserver]
      exact hself.1
    · rw [hsource]
      exact hself.2.1
    · have hmatches := hself.2.2
      unfold matchesColumns at hmatches ⊢
      rw [hcondition, hsub]
      exact hmatches

theorem Tells.added (hwell : WellKeyed rt records) (happart : TellsKindsApart rt)
    (h : Tells rt records views table) {r : StateRecord} (hr : r ∈ records)
    (hkind : Kind r.event) {now : ℤ} {c : UnitOfWork.Command Guid AlarmRow}
    (hc : request rt (r.event, now) = .ok c) (hview : views r.key = none)
    (hmissing : c.foundVisible (loaded rt table) = false) {g : Guid} {row : AlarmRow}
    (hcreate : c.create = .ok (some (g, row))) :
    Tells rt records (viewsStep rt views r) (ingest rt table (r.event, now)) := by
  obtain ⟨-, rfl, hraised, hstate, hacknowledged, hseverity⟩ :=
    raisedColumns_of_create happart hkind (hwell.identified r hr) hc hcreate
  obtain ⟨heq, hunique⟩ := ingest_added h.unique hc hmissing hcreate (h.get?_eq_none hr hview)
    fun g' row' hget => h.distinct hwell hr hview hraised hget
  refine ⟨hunique, ?_, ?_⟩
  · intro s hs
    rw [heq, get?_added, viewsStep_apply]
    by_cases hk : s.key = r.key
    · have hid : rowId rt s.event = rowId rt r.event := by
        unfold rowId
        rw [(hwell.alarmId_eq_iff hr hs).mpr hk]
      have hraises : raises rt r.event = true := by
        unfold raises
        rw [hraised]
        rfl
      rw [if_pos hid, if_pos hk, hk, hview]
      unfold nextView
      dsimp only
      rw [if_pos hraises]
      exact Option.Rel.some (shows_reload ⟨r, hr, rfl, hraised⟩ hstate hacknowledged hseverity _)
    · have hid : rowId rt s.event ≠ rowId rt r.event := fun hid =>
        hk ((hwell.alarmId_eq_iff hr hs).mp (hwell.rows s hs r hr hid).symm)
      rw [if_neg hid, if_neg hk, get?_touched]
      cases hsview : views s.key with
      | none =>
        rw [h.get?_eq_none hs hsview]
        exact Option.Rel.none
      | some v =>
        obtain ⟨row', hget, hshows⟩ := h.get?_eq_some hs hsview
        have hrel := hshows.rel_after hwell happart hr hkind hc
        rw [if_neg hk] at hrel
        rw [hget]
        exact hrel
  · intro g row' hget
    rw [heq, get?_added] at hget
    split at hget
    · rename_i hg
      exact ⟨r, hr, hg.symm⟩
    · rw [get?_touched] at hget
      obtain ⟨row'', hrow'', -⟩ := Option.bind_eq_some_iff.mp hget
      exact h.only g row'' hrow''

theorem Tells.next (hwell : WellKeyed rt records) (happart : TellsKindsApart rt)
    (h : Tells rt records views table) {r : StateRecord} (hr : r ∈ records)
    (hkind : Kind r.event) (now : ℤ) :
    Tells rt records (viewsStep rt views r) (ingest rt table (r.event, now)) := by
  have hloaded : uniqueRows (stored rt (loaded rt table)).values = true := by
    rw [← saved_loaded]
    exact uniqueRows_stored (uniqueRows_live_loaded h.unique)
  cases hc : request rt (r.event, now) with
  | error e =>
    have herror : UnitOfWork.process (loaded rt table) (request rt (r.event, now)) = .error e := by
      rw [hc]
      rfl
    have hview := nextView_of_error happart hkind hc
    rw [ingest_of_error herror]
    refine h.kept hloaded get?_stored_loaded ?_ ?_
    · intro k row v _ hshows
      rw [hview, ite_self]
      exact Option.Rel.some ((hshows.reload _).reload _)
    · intro _
      have hnone := hview none
      unfold nextView at hnone
      dsimp only at hnone
      split at hnone
      · cases hnone
      · rename_i hraises
        exact Bool.eq_false_iff.mpr hraises
  | ok c =>
    have htouched : c.foundVisible (loaded rt table) = true ∨ c.create = .ok none →
        (views r.key = none → raises rt r.event = false) →
        Tells rt records (viewsStep rt views r) (ingest rt table (r.event, now)) := by
      intro hfound hnone
      obtain ⟨heq, hunique⟩ := ingest_touched h.unique hc hfound
      refine h.kept hunique (fun g => (congrArg (Dict.get? · g) heq).trans (get?_touched g)) ?_ hnone
      intro k row v _ hshows
      exact hshows.rel_after hwell happart hr hkind hc
    have hraises : c.create = .ok none → raises rt r.event = false := by
      intro hnone
      refine Bool.eq_false_iff.mpr fun hraises => ?_
      obtain ⟨added, hadded⟩ := create_of_raises happart hkind hc hraises
      rw [hnone] at hadded
      cases hadded
    have hcommand : c.create ≠ .ok none → CommandOf rt r.event c := by
      intro hadds
      rcases request_cases happart hkind hc with ⟨rfl, -⟩ | ⟨hcommand, -⟩ | ⟨hcommand, -⟩
      · exact absurd rfl hadds
      · exact hcommand
      · exact hcommand
    by_cases hadds : c.create = .ok none
    · exact htouched (Or.inr hadds) fun _ => hraises hadds
    have hfound := h.foundVisible_iff hwell hr (hcommand hadds)
    cases hview : views r.key with
    | some v =>
      have hsome : views r.key ≠ none := by
        rw [hview]
        exact Option.some_ne_none v
      exact htouched (Or.inl (hfound.mpr hsome)) fun hnone => absurd hnone hsome
    | none =>
      have hmissing : c.foundVisible (loaded rt table) = false :=
        Bool.eq_false_iff.mpr fun hvisible => hfound.mp hvisible hview
      cases hcreate : c.create with
      | error e =>
        have herror : UnitOfWork.process (loaded rt table) (request rt (r.event, now)) =
            .error e := by
          rw [hc]
          change c.exec (loaded rt table) = .error e
          unfold UnitOfWork.Command.exec
          dsimp only
          rw [hmissing, if_neg Bool.false_ne_true, hcreate]
        rw [ingest_of_error herror]
        refine h.kept hloaded get?_stored_loaded ?_ ?_
        · intro k row v hv hshows
          have hother : k ≠ r.key := by
            rintro rfl
            rw [hview] at hv
            cases hv
          rw [if_neg hother]
          exact Option.Rel.some ((hshows.reload _).reload _)
        · intro _
          refine Bool.eq_false_iff.mpr fun hraised => ?_
          obtain ⟨added, hadded⟩ := create_of_raises happart hkind hc hraised
          rw [hcreate] at hadded
          cases hadded
      | ok created =>
        cases created with
        | none => exact absurd hcreate hadds
        | some added =>
          exact h.added hwell happart hr hkind hc hview hmissing hcreate

theorem tells_empty : Tells rt records (fun _ => none) Dict.empty where
  unique := uniqueRows_iff.mpr List.Pairwise.nil
  shows _ _ := Option.Rel.none
  only g row h := by
    rw [Dict.get?_empty] at h
    cases h

theorem Tells.replay (hwell : WellKeyed rt records) (happart : TellsKindsApart rt)
    (hkinds : ∀ r ∈ records, Kind r.event) {log : List StateRecord} (hlog : ∀ r ∈ log, r ∈ records)
    {deliveries : List Received}
    (hdeliveries : deliveries.map Prod.fst = log.map StateRecord.event)
    (h : Tells rt records views table) :
    Tells rt records (log.foldl (viewsStep rt) views) (deliveries.foldl (ingest rt) table) := by
  induction log generalizing deliveries views table with
  | nil =>
    obtain rfl := List.map_eq_nil_iff.mp hdeliveries
    exact h
  | cons r rest ih =>
    obtain ⟨d, deliveries, rfl, hd, hrest⟩ := List.map_eq_cons_iff.mp hdeliveries
    have hr := hlog r List.mem_cons_self
    have hnext := h.next hwell happart hr (hkinds r hr) d.2
    rw [← hd] at hnext
    rw [List.foldl_cons, List.foldl_cons]
    exact ih (fun s hs => hlog s (List.mem_cons_of_mem _ hs)) hrest hnext

end Runs

end NormalizedAlarmIngestor

end OpenBridge.Alarms
