import OpenBridge.Alarms.ActiveAlarm

/-!
# Alarms: the state and the flags

An alarm that is shelved, suppressed or out of service shows one of these states; any other alarm
shows the state of its condition and its acknowledgement.  The operations that write the state of
the condition without a look at the flags break this for a flagged alarm.
-/

namespace OpenBridge.Alarms

open OpenBridge.Foundation

namespace ActiveAlarm

def Flagged (a : ActiveAlarm) : Prop :=
  a.isShelved = true ∨ a.isSuppressed = true ∨ a.isOutOfService = true

/-- The state is one of those of a flagged alarm, and its own flag is set. -/
def ShowsFlag (a : ActiveAlarm) : Prop :=
  match a.state with
  | .shelved => a.isShelved = true
  | .suppressedByDesign => a.isSuppressed = true
  | .outOfService => a.isOutOfService = true
  | _ => False

/-- The state agrees with the flags, and the severity is one of the OPC specification. -/
structure Agrees (a : ActiveAlarm) : Prop where
  flagged : a.Flagged → a.ShowsFlag
  normal : ¬ a.Flagged → a.state = a.determineNormalState
  severity : 1 ≤ a.severity ∧ a.severity ≤ 1000

/-- The calls that keep the state in agreement with the flags: one that writes the state of the
condition finds no flag set. -/
def Keeps (a : ActiveAlarm) : Operation → Prop
  | .acknowledge _ _ _ => a.acknowledged = true ∨ a.isShelved = true ∨ ¬ a.Flagged
  | .shelve _ minutes comment most now =>
      a.Flagged ∨ most < minutes ∨ isWhiteSpaceOnly comment = true ∨
        (addMinutes now minutes).isSome = true
  | .unshelve _ => a.isShelved = false ∨ (a.isSuppressed = false ∧ a.isOutOfService = false)
  | .suppress _ _ _ => True
  | .setOutOfService _ => True
  | .applyAckLifecycle state _ _ =>
      state ≠ "ACK_CONFIRMED" ∨ a.acknowledged = true ∨ ¬ a.Flagged
  | .reconcileAcknowledgement _ _ _ => a.acknowledged = true ∨ ¬ a.Flagged
  | .clearOpcInferredAcknowledgement => a.clearsAcknowledgement = false ∨ ¬ a.Flagged
  | .applyConditionChange active _ severity _ =>
      (1 ≤ severity ∧ severity ≤ 1000) ∧ (active = a.conditionActive ∨ ¬ a.Flagged)
  | .syncOpcActiveTime _ => True
  | .setAlarmIdentity _ _ => True

/-! ## Which states agree -/

def IsConditionState (s : AlarmState) : Prop :=
  s = .unacknowledgedUncleared ∨ s = .acknowledgedUncleared ∨ s = .unacknowledgedCleared ∨
    s = .acknowledgedCleared

theorem isConditionState_normal (a : ActiveAlarm) : IsConditionState a.determineNormalState := by
  unfold determineNormalState IsConditionState
  split_ifs <;> simp

theorem not_showsFlag {a : ActiveAlarm} (h : IsConditionState a.state) : ¬ a.ShowsFlag := by
  unfold ShowsFlag
  rcases h with h | h | h | h <;> simp [h]

theorem agrees_written_iff {a : ActiveAlarm} (h : IsConditionState a.state)
    (hnormal : ¬ a.Flagged → a.state = a.determineNormalState)
    (hseverity : 1 ≤ a.severity ∧ a.severity ≤ 1000) : a.Agrees ↔ ¬ a.Flagged := by
  constructor
  · intro hagrees hflagged
    exact not_showsFlag h (hagrees.flagged hflagged)
  · intro hflagged
    exact ⟨fun hset => absurd hset hflagged, hnormal, hseverity⟩

theorem agrees_of_showsFlag {a : ActiveAlarm} (hflagged : a.Flagged) (h : a.ShowsFlag)
    (hseverity : 1 ≤ a.severity ∧ a.severity ≤ 1000) : a.Agrees :=
  ⟨fun _ => h, fun hnot => absurd hflagged hnot, hseverity⟩

/-! ## The operations -/

section Operations

variable {a : ActiveAlarm}

theorem agrees_acknowledge (h : a.Agrees) (userId : Guid) (comment : Option String)
    (ackTime : ℤ) :
    (applied a (a.acknowledge userId comment ackTime)).1.Agrees ↔
      a.acknowledged = true ∨ a.isShelved = true ∨ ¬ a.Flagged := by
  unfold acknowledge
  rw [applied_refusal, applied_refusal, applied_ok]
  split
  · rename_i hacknowledged
    exact iff_of_true h (Or.inl hacknowledged)
  · rename_i hacknowledged
    split
    · rename_i hshelved
      exact iff_of_true h (Or.inr (Or.inl hshelved))
    · rename_i hshelved
      rw [or_iff_right hacknowledged, or_iff_right hshelved]
      refine agrees_written_iff ?_ ?_ h.severity
      · unfold IsConditionState
        split_ifs <;> simp
      · unfold determineNormalState
        simp

theorem agrees_shelve (h : a.Agrees) (userId : Guid) (minutes : ℤ) (comment : String)
    (most now : ℤ) :
    (applied a (a.shelve userId minutes comment most now)).1.Agrees ↔
      a.Flagged ∨ most < minutes ∨ isWhiteSpaceOnly comment = true ∨
        (addMinutes now minutes).isSome = true := by
  unfold shelve
  rw [applied_refusal, applied_refusal, applied_refusal]
  split
  · rename_i hshelved
    exact iff_of_true h (Or.inl (Or.inl hshelved))
  · split
    · rename_i hlong
      exact iff_of_true h (Or.inr (Or.inl hlong))
    · split
      · rename_i hblank
        exact iff_of_true h (Or.inr (Or.inr (Or.inl hblank)))
      · rename_i hshelved hlong hblank
        rw [or_iff_right hlong, or_iff_right hblank]
        cases hexpiry : addMinutes now minutes with
        | some expiry =>
          exact iff_of_true (agrees_of_showsFlag (Or.inl rfl) rfl h.severity) (Or.inr rfl)
        | none =>
          -- the flag is set before the expiry throws, so the state must show another flag
          rw [Option.isSome_none, or_iff_left Bool.false_ne_true]
          dsimp only
          rw [applied_ok]
          constructor
          · intro hagrees
            by_contra hflagged
            have hstate : IsConditionState a.state :=
              h.normal hflagged ▸ isConditionState_normal a
            refine not_showsFlag ?_ (hagrees.flagged (Or.inl rfl))
            exact hstate
          · intro hflagged
            have hshown := h.flagged hflagged
            refine agrees_of_showsFlag (Or.inl rfl) ?_ h.severity
            unfold ShowsFlag at hshown ⊢
            cases hstate : a.state <;> simp_all

theorem agrees_unshelve (h : a.Agrees) (userId : Guid) :
    (applied a (a.unshelve userId)).1.Agrees ↔
      a.isShelved = false ∨ (a.isSuppressed = false ∧ a.isOutOfService = false) := by
  unfold unshelve
  split
  · rename_i hshelved
    rw [applied_ok]
    rw [hshelved, or_iff_right Bool.true_eq_false.mp]
    refine Iff.trans (agrees_written_iff ?_ ?_ ?_) ?_
    · exact isConditionState_normal a
    · intro _
      rfl
    · exact h.severity
    · unfold Flagged
      simp
  · rename_i hshelved
    exact iff_of_true h (Or.inl (Bool.not_eq_true _ ▸ hshelved))

theorem agrees_suppress (h : a.Agrees) (userId : Guid) (reason : String) (now : ℤ) :
    (applied a (a.suppress userId reason now)).1.Agrees := by
  unfold suppress
  rw [applied_refusal, applied_ok]
  split
  · exact h
  · exact agrees_of_showsFlag (Or.inr (Or.inl rfl)) rfl h.severity

theorem agrees_setOutOfService (h : a.Agrees) (reason : String) :
    (applied a (a.setOutOfService reason)).1.Agrees := by
  unfold setOutOfService
  rw [applied_refusal, applied_refusal, applied_ok]
  split
  · exact h
  · split
    · exact h
    · exact agrees_of_showsFlag (Or.inr (Or.inr rfl)) rfl h.severity

theorem agrees_applyAckLifecycle (h : a.Agrees) (state : String) (k : AckDetails) (now : ℤ) :
    (a.applyAckLifecycle state k now).Agrees ↔
      state ≠ "ACK_CONFIRMED" ∨ a.acknowledged = true ∨ ¬ a.Flagged := by
  unfold applyAckLifecycle
  dsimp only
  split
  · rename_i hconfirmed
    split
    · rename_i hacknowledged
      exact iff_of_true ⟨h.flagged, h.normal, h.severity⟩ (Or.inr (Or.inl hacknowledged))
    · rename_i hacknowledged
      rw [or_iff_right (not_not.mpr hconfirmed), or_iff_right hacknowledged]
      refine agrees_written_iff ?_ ?_ h.severity
      · unfold IsConditionState
        split_ifs <;> simp
      · intro hflagged
        have hstate := h.normal hflagged
        unfold determineNormalState at hstate ⊢
        cases hactive : a.conditionActive <;> simp_all
  · rename_i hconfirmed
    refine iff_of_true ?_ (Or.inl hconfirmed)
    split <;> exact ⟨h.flagged, h.normal, h.severity⟩

theorem agrees_reconcileAcknowledgement (h : a.Agrees) (ackTime : ℤ) (userId : Option Guid)
    (comment : Option String) :
    (a.reconcileAcknowledgement ackTime userId comment).Agrees ↔
      a.acknowledged = true ∨ ¬ a.Flagged := by
  unfold reconcileAcknowledgement
  split
  · rename_i hacknowledged
    exact iff_of_true h (Or.inl hacknowledged)
  · rename_i hacknowledged
    rw [or_iff_right hacknowledged]
    refine agrees_written_iff ?_ ?_ h.severity
    · unfold IsConditionState
      split_ifs <;> simp
    · unfold determineNormalState
      simp

theorem agrees_clearOpcInferredAcknowledgement (h : a.Agrees) :
    a.clearOpcInferredAcknowledgement.Agrees ↔
      a.clearsAcknowledgement = false ∨ ¬ a.Flagged := by
  unfold clearOpcInferredAcknowledgement
  split
  · rename_i hclears
    rw [hclears, or_iff_right Bool.true_eq_false.mp]
    refine agrees_written_iff ?_ ?_ h.severity
    · unfold IsConditionState
      split_ifs <;> simp
    · intro _
      unfold determineNormalState
      cases hactive : a.conditionActive <;> simp
  · rename_i hclears
    exact iff_of_true h (Or.inl (Bool.not_eq_true _ ▸ hclears))

theorem severity_applyConditionChange (active : Bool) (message : Option String)
    (severity eventTime : ℤ) :
    (a.applyConditionChange active message severity eventTime).1.severity = severity := by
  unfold applyConditionChange
  dsimp only
  split_ifs <;> rfl

theorem agrees_applyConditionChange (h : a.Agrees) (active : Bool) (message : Option String)
    (severity eventTime : ℤ) :
    (a.applyConditionChange active message severity eventTime).1.Agrees ↔
      (1 ≤ severity ∧ severity ≤ 1000) ∧ (active = a.conditionActive ∨ ¬ a.Flagged) := by
  have hwritten := severity_applyConditionChange (a := a) active message severity eventTime
  by_cases hseverity : 1 ≤ severity ∧ severity ≤ 1000
  · rw [and_iff_right hseverity]
    unfold applyConditionChange
    dsimp only
    split
    · rename_i hcleared
      rw [or_iff_right (by simp [hcleared])]
      refine agrees_written_iff ?_ ?_ hseverity
      · unfold IsConditionState
        split_ifs <;> simp
      · intro _
        unfold determineNormalState
        cases hacknowledged : a.acknowledged <;> simp [hcleared]
    · split
      · rename_i hactivated
        rw [or_iff_right (by simp [hactivated])]
        refine agrees_written_iff (Or.inl rfl) ?_ hseverity
        intro _
        unfold determineNormalState
        simp [hactivated]
      · rename_i hcleared hactivated
        have hsame : active = a.conditionActive := by
          cases active <;> cases hactive : a.conditionActive <;> simp_all
        refine iff_of_true ⟨h.flagged, fun hflagged => ?_, hseverity⟩ (Or.inl hsame)
        have hstate := h.normal hflagged
        unfold determineNormalState at hstate ⊢
        rw [hsame]
        exact hstate
  · refine iff_of_false (fun hagrees => ?_) fun hkeeps => hseverity hkeeps.1
    have hrange := hagrees.severity
    rw [hwritten] at hrange
    exact hseverity hrange

theorem agrees_syncOpcActiveTime (h : a.Agrees) (activeTime : ℤ) :
    (a.syncOpcActiveTime activeTime).Agrees := by
  unfold syncOpcActiveTime
  split
  · exact ⟨h.flagged, h.normal, h.severity⟩
  · exact h

theorem agrees_step_iff (h : a.Agrees) (op : Operation) :
    (step a op).1.Agrees ↔ a.Keeps op := by
  cases op with
  | acknowledge userId comment ackTime => exact agrees_acknowledge h userId comment ackTime
  | shelve userId minutes comment most now => exact agrees_shelve h userId minutes comment most now
  | unshelve userId => exact agrees_unshelve h userId
  | suppress userId reason now => exact iff_of_true (agrees_suppress h userId reason now) trivial
  | setOutOfService reason => exact iff_of_true (agrees_setOutOfService h reason) trivial
  | applyAckLifecycle state k now => exact agrees_applyAckLifecycle h state k now
  | reconcileAcknowledgement ackTime userId comment =>
    exact agrees_reconcileAcknowledgement h ackTime userId comment
  | clearOpcInferredAcknowledgement => exact agrees_clearOpcInferredAcknowledgement h
  | applyConditionChange active message severity eventTime =>
    exact agrees_applyConditionChange h active message severity eventTime
  | syncOpcActiveTime activeTime => exact iff_of_true (agrees_syncOpcActiveTime h activeTime) trivial
  | setAlarmIdentity id alarmId => exact iff_of_true ⟨h.flagged, h.normal, h.severity⟩ trivial

end Operations

theorem agrees_createFromOpcEvent {id : Guid} {n : OpcNotification} {a : ActiveAlarm}
    {events : List AlarmEvent} (h : createFromOpcEvent id n = .ok (a, events)) :
    a.Agrees ↔ n.conditionActive = true := by
  unfold createFromOpcEvent at h
  split at h
  · cases h
  · rename_i hseverity
    split at h
    · cases h
    · obtain ⟨rfl, -⟩ := Prod.mk.inj (Except.ok.inj h)
      constructor
      · intro hagrees
        have hstate := hagrees.normal (by simp [Flagged])
        unfold determineNormalState at hstate
        cases hactive : n.conditionActive
        · simp [hactive] at hstate
        · rfl
      · intro hactive
        have hrange : 1 ≤ n.severity ∧ n.severity ≤ 1000 := by omega
        refine ⟨fun hflagged => ?_, fun _ => ?_, hrange⟩
        · simp [Flagged] at hflagged
        · unfold determineNormalState
          simp [hactive]

/-- The state of an alarm agrees with its flags after every call exactly where the alarm was created
active and every call meets its condition. -/
theorem always_agrees_iff {id : Guid} {n : OpcNotification} {a : ActiveAlarm}
    {events : List AlarmEvent} (h : createFromOpcEvent id n = .ok (a, events))
    (ops : List Operation) :
    (∀ pre, pre <+: ops → (a.after pre).Agrees) ↔
      n.conditionActive = true ∧ Machine.Always step Keeps a ops := by
  constructor
  · intro hagrees
    have hstart : a.Agrees := hagrees [] List.nil_prefix
    exact ⟨(agrees_createFromOpcEvent h).mp hstart,
      (Machine.throughout_iff_always step Keeps hstart (fun _ op ha => agrees_step_iff ha op)
        ops).mp hagrees⟩
  · intro hkeeps
    obtain ⟨hactive, hkeeps⟩ := hkeeps
    have hstart : a.Agrees := (agrees_createFromOpcEvent h).mpr hactive
    exact (Machine.throughout_iff_always step Keeps hstart (fun _ op ha => agrees_step_iff ha op)
      ops).mpr hkeeps

def tankLevel : OpcNotification :=
  { serverId := 1, sourceName := "Plant.Area1.TankLevel", conditionName := some "HI_HI",
    subConditionName := none, message := none, severity := 900, priority := .high,
    conditionActive := true, eventTime := 0, activeTime := 0 }

def tankAlarm : ActiveAlarm :=
  { id := 7, alarmId := "", serverId := 1, sourceName := "Plant.Area1.TankLevel",
    conditionName := some "HI_HI", subConditionName := none, message := none, severity := 900,
    priority := .high, state := .unacknowledgedUncleared, conditionActive := true,
    acknowledged := false, eventTime := 0, activeTime := 0, ackTime := none, ackedBy := none,
    ackComment := none, isShelved := false, shelvedAt := none, shelvedBy := none,
    shelveUntil := none, shelveComment := none, isSuppressed := false, suppressedAt := none,
    suppressedBy := none, suppressionReason := none, isOutOfService := false,
    customAttributes := Dict.empty }

theorem create_tankAlarm : createFromOpcEvent 7 tankLevel =
    .ok (tankAlarm, [.activated 7 1 "Plant.Area1.TankLevel" .high 0]) := rfl

def maintenance : List Operation := [.shelve 5 60 "maintenance" 480 0, .unshelve 5]

theorem always_agrees_maintenance : (tankAlarm.after maintenance).Agrees := by
  have hexpiry : (addMinutes 0 60).isSome = true := rfl
  exact (always_agrees_iff create_tankAlarm maintenance).mpr
    ⟨rfl, Or.inr (Or.inr (Or.inr hexpiry)), Or.inr ⟨rfl, rfl⟩, trivial⟩ maintenance List.prefix_rfl

/-- An acknowledged suppressed alarm shows the state of a standing alarm. -/
theorem suppressed_alarm_acknowledged : ¬ ∀ (id : Guid) (n : OpcNotification) (a : ActiveAlarm)
    (events : List AlarmEvent) (ops : List Operation),
    createFromOpcEvent id n = .ok (a, events) → (a.after ops).Agrees := by
  intro h
  have hagrees := h 7 tankLevel tankAlarm _ [.suppress 5 "design" 0, .acknowledge 5 none 0]
    create_tankAlarm
  exact hagrees.flagged (Or.inr (Or.inl rfl))

end ActiveAlarm

end OpenBridge.Alarms
