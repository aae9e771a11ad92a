import OpenBridge.AlarmConsole.ActiveAlarm
import OpenBridge.Foundation.Machine

/-!
# Alarm console: an alarm that is raised again

A merged alarm keeps the acknowledgement of the one that is shown.
-/

namespace OpenBridge.AlarmConsole

open OpenBridge.Foundation

/-! ## The alarm on the console -/

inductive Update where
  | payload (raw : RawAlarm)
  | lifecycle (now : ℤ) (state : String) (timestampEpochMs : Option ℤ) (trace : AckTrace)

/-- The alarm that is shown, and of the updates so far the payload with the greatest event time and
the times of the acknowledgements that were shown. -/
structure Shown where
  alarm : Option ActiveAlarm
  latest : Option ActiveAlarm
  acknowledgedAt : List ℤ

namespace Shown

def start : Shown := ⟨none, none, []⟩

def applied (alarm : Option ActiveAlarm) : Update → Option ActiveAlarm
  | .payload raw =>
      let incoming := mapHubAlarmPayload raw alarm
      match alarm with
      | some existing => some (upsertAlarm existing incoming)
      | none => some incoming
  | .lifecycle now state timestampEpochMs trace =>
      alarm.map fun a => applyAckLifecycleToAlarm now a state timestampEpochMs trace

def later (latest : Option ActiveAlarm) : Update → Option ActiveAlarm
  | .payload raw =>
      match latest with
      | some l => if (hubAlarm raw).eventTimeEpochMs < l.eventTimeEpochMs then some l
          else some (hubAlarm raw)
      | none => some (hubAlarm raw)
  | .lifecycle .. => latest

def ackTime (a : ActiveAlarm) : ℤ := a.ackTimeEpochMs.getD a.eventTimeEpochMs

def step (s : Shown) (u : Update) : Shown × List Unit :=
  let alarm := applied s.alarm u
  (⟨alarm, later s.latest u,
    s.acknowledgedAt ++ (alarm.filter ActiveAlarm.acknowledged).toList.map ackTime⟩, [])

end Shown

/-! ## What is to be shown -/

def Labelled (a : ActiveAlarm) : Prop :=
  (startsWith a.state "ACKNOWLEDGED_" = true → a.acknowledged = true) ∧
    (startsWith a.state "UNACKNOWLEDGED_" = true → a.acknowledged = false)

namespace Shown

/-- An event that is not acknowledged and is later than every acknowledgement is not shown as
acknowledged. -/
def NotOutlived (s : Shown) : Prop :=
  ∀ p ∈ s.latest, p.acknowledged = false →
    (∀ t ∈ s.acknowledgedAt, t < p.eventTimeEpochMs) → ∀ a ∈ s.alarm, a.acknowledged = false

structure Right (s : Shown) : Prop where
  labelled : ∀ a ∈ s.alarm, Labelled a
  notOutlived : s.NotOutlived

/-- When a payload meets no acknowledgement that it takes back: an older one finds no confirmed
acknowledgement that is not shown, one that is not acknowledged no acknowledgement at all. -/
def TakesNothingBack (shown incoming : ActiveAlarm) : Prop :=
  if incoming.eventTimeEpochMs < shown.eventTimeEpochMs then
    shown.acknowledged = true ∨ shown.ackLifecycleState ≠ some ACK_CONFIRMED
  else
    incoming.acknowledged = true ∨
      ((shown.acknowledged = false ∨ failedAck incoming.ackLifecycleState = true) ∧
        shown.ackLifecycleState ≠ some ACK_CONFIRMED ∧
        incoming.ackLifecycleState ≠ some ACK_CONFIRMED)

/-- When a lifecycle update is one of the shown event: a confirmation is not earlier than it, and
nothing is pending for an alarm that is labelled as acknowledged. -/
def OfTheEvent (shown : ActiveAlarm) (now : ℤ) (state : String) (timestampEpochMs : Option ℤ) :
    Prop :=
  shouldApplyAckLifecycle shown.ackLifecycleState state = true →
    (state = ACK_CONFIRMED → shown.acknowledged = true ∨ shown.eventTimeEpochMs ≤
      (shown.ackTimeEpochMs.or timestampEpochMs).getD now) ∧
    (pendingAck state = true → startsWith shown.state "ACKNOWLEDGED_" = false)

def InOrder (s : Shown) (u : Update) : Prop :=
  match s.alarm, u with
  | some a, .payload raw => TakesNothingBack a (hubAlarm raw)
  | some a, .lifecycle now state timestampEpochMs _ => OfTheEvent a now state timestampEpochMs
  | none, _ => True

instance (shown incoming : ActiveAlarm) : Decidable (TakesNothingBack shown incoming) :=
  inferInstanceAs (Decidable (ite _ _ _))

instance (shown : ActiveAlarm) (now : ℤ) (state : String) (timestampEpochMs : Option ℤ) :
    Decidable (OfTheEvent shown now state timestampEpochMs) :=
  inferInstanceAs (Decidable (_ → _ ∧ _))

instance : ∀ s u, Decidable (InOrder s u)
  | ⟨some a, _, _⟩, .payload raw => inferInstanceAs (Decidable (TakesNothingBack a (hubAlarm raw)))
  | ⟨some a, _, _⟩, .lifecycle now state timestampEpochMs _ =>
      inferInstanceAs (Decidable (OfTheEvent a now state timestampEpochMs))
  | ⟨none, _, _⟩, .payload _ => isTrue trivial
  | ⟨none, _, _⟩, .lifecycle .. => isTrue trivial

end Shown

/-! ## Merging a payload -/

theorem resolve_self (e : ActiveAlarm)
    (h : e.acknowledged = true ∨ e.ackLifecycleState ≠ some ACK_CONFIRMED) :
    resolveOperatorAcknowledged e e = e.acknowledged := by
  unfold resolveOperatorAcknowledged
  cases hack : e.acknowledged with
  | true => rfl
  | false =>
    have hconfirmed : e.ackLifecycleState ≠ some ACK_CONFIRMED := by
      rcases h with h | h
      · rw [hack] at h
        cases h
      · exact h
    simp [hconfirmed]

theorem resolve_of_acknowledged (e : ActiveAlarm) {i : ActiveAlarm} (h : i.acknowledged = true) :
    resolveOperatorAcknowledged e i = true := if_pos h

theorem resolve_of_not {e i : ActiveAlarm} (hi : i.acknowledged = false)
    (h : e.acknowledged = false ∨ failedAck i.ackLifecycleState = true)
    (he : e.ackLifecycleState ≠ some ACK_CONFIRMED)
    (hi' : i.ackLifecycleState ≠ some ACK_CONFIRMED) :
    resolveOperatorAcknowledged e i = false := by
  unfold resolveOperatorAcknowledged
  rw [hi, if_neg (by decide), if_neg he, if_neg hi']
  rcases h with h | h
  · rw [h, ite_self]
  · exact if_pos h

def ShownLike (v b : ActiveAlarm) : Prop :=
  v.toAlarmDetails = b.toAlarmDetails ∧ v.acknowledged = b.acknowledged

theorem upsertAlarm_twice {e m : ActiveAlarm} (hcommand : m.commandId = none)
    (h : Shown.TakesNothingBack e m) :
    ShownLike (upsertAlarm e (upsertAlarm e m))
      (if m.eventTimeEpochMs < e.eventTimeEpochMs then e else m) := by
  unfold Shown.TakesNothingBack at h
  split at h
  · rename_i holder
    rw [if_pos holder, upsertAlarm_of_older holder]
    have hsame := upsertAlarm_of_not_older (i := e) (Int.lt_irrefl e.eventTimeEpochMs) (.inr rfl)
    refine ⟨hsame.congr ActiveAlarm.toAlarmDetails fun _ _ => rfl, ?_⟩
    rw [hsame.congr ActiveAlarm.acknowledged fun _ _ => rfl]
    exact resolve_self e h
  · rename_i holder
    rw [if_neg holder]
    have hu := upsertAlarm_of_not_older holder (.inl hcommand)
    have hdetails : (upsertAlarm e m).toAlarmDetails = m.toAlarmDetails :=
      hu.congr ActiveAlarm.toAlarmDetails fun _ _ => rfl
    have hack : (upsertAlarm e m).acknowledged = resolveOperatorAcknowledged e m :=
      hu.congr ActiveAlarm.acknowledged fun _ _ => rfl
    have hlifecycle : (upsertAlarm e m).ackLifecycleState =
        m.ackLifecycleState.or e.ackLifecycleState :=
      hu.congr ActiveAlarm.ackLifecycleState fun _ _ => rfl
    have hcommand' : (upsertAlarm e m).commandId = e.commandId := by
      rw [hu.congr ActiveAlarm.commandId fun _ _ => rfl]
      show m.commandId.or e.commandId = e.commandId
      rw [hcommand, Option.none_or]
    have htime : ¬ (upsertAlarm e m).eventTimeEpochMs < e.eventTimeEpochMs := by
      rwa [congrArg AlarmDetails.eventTimeEpochMs hdetails]
    -- the store merges once more what the mapper merged
    have hv := upsertAlarm_of_not_older htime (.inr hcommand')
    refine ⟨(hv.congr ActiveAlarm.toAlarmDetails fun _ _ => rfl).trans hdetails, ?_⟩
    rw [hv.congr ActiveAlarm.acknowledged fun _ _ => rfl]
    show resolveOperatorAcknowledged e (upsertAlarm e m) = m.acknowledged
    cases hm : m.acknowledged with
    | true => exact resolve_of_acknowledged e (hack.trans (resolve_of_acknowledged e hm))
    | false =>
      rcases h with h | ⟨hfailed, he, hi⟩
      · rw [hm] at h
        cases h
      refine resolve_of_not (hack.trans (resolve_of_not hm hfailed he hi)) ?_ he ?_
      · rw [hlifecycle]
        refine hfailed.imp_right fun hf => ?_
        cases hcases : m.ackLifecycleState with
        | none =>
          rw [hcases] at hf
          cases hf
        | some state =>
          rw [hcases] at hf
          exact hf
      · rw [hlifecycle]
        cases hcases : m.ackLifecycleState with
        | none => rwa [Option.none_or]
        | some state => rwa [hcases] at hi

theorem Labelled.of_shownLike {v b : ActiveAlarm} (h : ShownLike v b) (hb : Labelled b) :
    Labelled v := by
  unfold Labelled
  rw [congrArg AlarmDetails.state h.1, h.2]
  exact hb

/-- What a lifecycle update can do to an alarm. -/
inductive Lifecycled (a : ActiveAlarm) (now : ℤ) (state : String) (timestamp : Option ℤ) :
    ActiveAlarm → Prop where
  /-- It says nothing of the acknowledgement. -/
  | kept {r : ActiveAlarm} (hstate : r.state = a.state) (hack : r.acknowledged = a.acknowledged)
      (htime : r.eventTimeEpochMs = a.eventTimeEpochMs) : Lifecycled a now state timestamp r
  | confirmed {r : ActiveAlarm} (happlied : shouldApplyAckLifecycle a.ackLifecycleState state = true)
      (hconfirmed : state = ACK_CONFIRMED)
      (hstate : r.state = "ACKNOWLEDGED_UNCLEARED" ∨ r.state = "ACKNOWLEDGED_CLEARED")
      (hack : r.acknowledged = true) (htime : r.eventTimeEpochMs = a.eventTimeEpochMs)
      (hackTime : Shown.ackTime r = (a.ackTimeEpochMs.or timestamp).getD now) :
      Lifecycled a now state timestamp r
  | pending {r : ActiveAlarm} (happlied : shouldApplyAckLifecycle a.ackLifecycleState state = true)
      (hpending : pendingAck state = true) (hstate : r.state = a.state)
      (hack : r.acknowledged = false) (htime : r.eventTimeEpochMs = a.eventTimeEpochMs) :
      Lifecycled a now state timestamp r

theorem applyAckLifecycle_spec (a : ActiveAlarm) (now : ℤ) (state : String) (timestamp : Option ℤ)
    (trace : AckTrace) :
    Lifecycled a now state timestamp (applyAckLifecycleToAlarm now a state timestamp trace) := by
  unfold applyAckLifecycleToAlarm
  split
  · exact .kept rfl rfl rfl
  rename_i happlied
  have happlied : shouldApplyAckLifecycle a.ackLifecycleState state = true := by
    simpa using happlied
  dsimp only
  generalize hnext : (if state = "ACK_REQUESTED" ∨ state = "ACK_QUEUED" then _ else _) = next
  have hdetails : next.toAlarmDetails = a.toAlarmDetails := by
    rw [← hnext]
    split <;> rfl
  have hack : next.acknowledged = a.acknowledged := by
    rw [← hnext]
    split <;> rfl
  have hackTime : next.ackTimeEpochMs = a.ackTimeEpochMs := by
    rw [← hnext]
    split <;> rfl
  have hstate := congrArg AlarmDetails.state hdetails
  have htime := congrArg AlarmDetails.eventTimeEpochMs hdetails
  split
  · rename_i hconfirmed
    refine .confirmed happlied hconfirmed ?_ rfl htime ?_
    · dsimp only
      split
      · exact .inl rfl
      · exact .inr rfl
    · unfold Shown.ackTime
      dsimp only
      rw [hackTime]
      cases a.ackTimeEpochMs with
      | some t => rfl
      | none => cases timestamp <;> rfl
  · split
    · exact .kept hstate hack htime
    · split
      · exact .pending happlied ‹_› hstate rfl htime
      · exact .kept hstate hack htime

/-! ## Runs -/

namespace Shown

/-- What is shown is right, and of the event of the latest payload. -/
structure Good (s : Shown) : Prop extends Right s where
  latest : (s.alarm = none ∧ s.latest = none) ∨
    ∃ a p, s.alarm = some a ∧ s.latest = some p ∧ a.eventTimeEpochMs = p.eventTimeEpochMs

theorem good_start : start.Good where
  labelled a ha := by cases ha
  notOutlived p hp := by cases hp
  latest := .inl ⟨rfl, rfl⟩

theorem good_payload {s : Shown} (h : s.Good) {raw : RawAlarm} (hraw : Labelled (hubAlarm raw))
    (horder : s.InOrder (.payload raw)) : (step s (.payload raw)).1.Good := by
  obtain ⟨alarm, latest, acknowledgedAt⟩ := s
  rcases h.latest with ⟨hnone, hlatest⟩ | ⟨a, p, hsome, hlatest, htime⟩
  · obtain rfl := hnone
    obtain rfl := hlatest
    refine ⟨⟨fun b hb => ?_, fun q hq hack _ b hb => ?_⟩, .inr ⟨_, _, rfl, rfl, rfl⟩⟩
    · obtain rfl := Option.some.inj hb
      exact hraw
    · obtain rfl := Option.some.inj hq
      obtain rfl := Option.some.inj hb
      exact hack
  · obtain rfl := hsome
    obtain rfl := hlatest
    have hlike := upsertAlarm_twice rfl horder
    have hevent := congrArg AlarmDetails.eventTimeEpochMs hlike.1
    by_cases holder : (hubAlarm raw).eventTimeEpochMs < a.eventTimeEpochMs
    · rw [if_pos holder] at hlike hevent
      have hlater : later (some p) (.payload raw) = some p := if_pos (htime ▸ holder)
      refine ⟨⟨fun b hb => ?_, fun q hq hack hacks b hb => ?_⟩,
        .inr ⟨_, p, rfl, hlater, hevent.trans htime⟩⟩
      · obtain rfl := Option.some.inj hb
        exact .of_shownLike hlike (h.labelled a rfl)
      · obtain rfl := Option.some.inj (hlater.symm.trans hq)
        obtain rfl := Option.some.inj hb
        exact hlike.2.trans (h.notOutlived p rfl hack
          (fun t ht => hacks t (List.mem_append_left _ ht)) a rfl)
    · rw [if_neg holder] at hlike hevent
      have hlater : later (some p) (.payload raw) = some (hubAlarm raw) :=
        if_neg (htime ▸ holder)
      refine ⟨⟨fun b hb => ?_, fun q hq hack _ b hb => ?_⟩, .inr ⟨_, _, rfl, hlater, hevent⟩⟩
      · obtain rfl := Option.some.inj hb
        exact .of_shownLike hlike hraw
      · obtain rfl := Option.some.inj (hlater.symm.trans hq)
        obtain rfl := Option.some.inj hb
        exact hlike.2.trans hack

theorem good_lifecycle {s : Shown} (h : s.Good) {now : ℤ} {state : String} {timestamp : Option ℤ}
    {trace : AckTrace} (horder : s.InOrder (.lifecycle now state timestamp trace)) :
    (step s (.lifecycle now state timestamp trace)).1.Good := by
  obtain ⟨alarm, latest, acknowledgedAt⟩ := s
  rcases h.latest with ⟨hnone, hlatest⟩ | ⟨a, p, hsome, hlatest, htime⟩
  · obtain rfl := hnone
    obtain rfl := hlatest
    exact ⟨⟨fun b hb => absurd hb (Option.not_mem_none b),
      fun q hq => absurd hq (Option.not_mem_none q)⟩, .inl ⟨rfl, rfl⟩⟩
  · obtain rfl := hsome
    obtain rfl := hlatest
    have horder : OfTheEvent a now state timestamp := horder
    have hold := h.notOutlived p rfl
    obtain ⟨r, hr⟩ : ∃ r, applyAckLifecycleToAlarm now a state timestamp trace = r := ⟨_, rfl⟩
    have hspec := applyAckLifecycle_spec a now state timestamp trace
    have hstep : step ⟨some a, some p, acknowledgedAt⟩ (.lifecycle now state timestamp trace) =
        (⟨some r, some p, acknowledgedAt ++
          ((some r).filter ActiveAlarm.acknowledged).toList.map ackTime⟩, []) := by
      rw [← hr]
      rfl
    rw [hr] at hspec
    rw [hstep]
    have hgood (hlabelled : Labelled r) (hevent : r.eventTimeEpochMs = a.eventTimeEpochMs)
        (hack : p.acknowledged = false →
          (∀ t ∈ acknowledgedAt ++ ((some r).filter ActiveAlarm.acknowledged).toList.map ackTime,
            t < p.eventTimeEpochMs) → r.acknowledged = false) :
        Good ⟨some r, some p, acknowledgedAt ++
          ((some r).filter ActiveAlarm.acknowledged).toList.map ackTime⟩ := by
      refine ⟨⟨fun b hb => ?_, fun q hq hqack hacks b hb => ?_⟩,
        .inr ⟨r, p, rfl, rfl, hevent.trans htime⟩⟩
      · obtain rfl := Option.some.inj hb
        exact hlabelled
      · obtain rfl := Option.some.inj hq
        obtain rfl := Option.some.inj hb
        exact hack hqack hacks
    have hleft {t : ℤ} (ht : t ∈ acknowledgedAt) := List.mem_append_left
      (((some r).filter ActiveAlarm.acknowledged).toList.map ackTime) ht
    cases hspec with
    | kept hstate hack hevent =>
      refine hgood ?_ hevent fun hp hacks => ?_
      · unfold Labelled
        rw [hstate, hack]
        exact h.labelled a rfl
      · rw [hack]
        exact hold hp (fun t ht => hacks t (hleft ht)) a rfl
    | confirmed happlied hconfirmed hstate hack hevent hackTime =>
      refine hgood ⟨fun _ => hack, fun hun => ?_⟩ hevent fun hp hacks => ?_
      · rcases hstate with hstate | hstate
        · rw [hstate] at hun
          exact absurd hun (by decide)
        · rw [hstate] at hun
          exact absurd hun (by decide)
      · rcases (horder happlied).1 hconfirmed with hshown | hle
        · rw [hold hp (fun t ht => hacks t (hleft ht)) a rfl] at hshown
          cases hshown
        · -- the acknowledgement that is shown now is not earlier than the event
          have hmem : ackTime r ∈
              ((some r).filter ActiveAlarm.acknowledged).toList.map ackTime := by
            rw [Option.filter_some_pos hack]
            exact List.mem_singleton.mpr rfl
          have hlt := hacks _ (List.mem_append_right _ hmem)
          rw [hackTime, ← htime] at hlt
          exact absurd hle (not_le.mpr hlt)
    | pending happlied hpending hstate hack hevent =>
      refine hgood ⟨fun hlabel => ?_, fun _ => hack⟩ hevent fun _ _ => hack
      rw [hstate, (horder happlied).2 hpending] at hlabel
      cases hlabel

theorem good_run {s : Shown} (hs : s.Good) {us : List Update}
    (hconsistent : ∀ raw, .payload raw ∈ us → Labelled (hubAlarm raw))
    (h : Machine.Always step InOrder s us) : (Machine.stateAfter step s us).Good := by
  induction us generalizing s with
  | nil => exact hs
  | cons u us ih =>
    refine ih ?_ (fun raw hraw => hconsistent raw (List.mem_cons_of_mem _ hraw)) h.2
    cases u with
    | payload raw => exact good_payload hs (hconsistent raw List.mem_cons_self) h.1
    | lifecycle now state timestamp trace => exact good_lifecycle hs h.1

theorem right_of_inOrder {us : List Update}
    (hconsistent : ∀ raw, .payload raw ∈ us → Labelled (hubAlarm raw))
    (h : Machine.Always step InOrder start us) :
    ∀ pre, pre <+: us → (Machine.stateAfter step start pre).Right := by
  rintro pre ⟨post, rfl⟩
  exact (good_run good_start (fun raw hraw => hconsistent raw (List.mem_append_left _ hraw))
    ((Machine.always_append step InOrder start pre post).mp h).1).toRight

theorem acknowledged_kept {e : ActiveAlarm} (he : e.acknowledged = true) {raw : RawAlarm}
    (hraw : failedAck (hubAlarm raw).ackLifecycleState = false) :
    ∃ v, applied (some e) (.payload raw) = some v ∧ v.acknowledged = true := by
  refine ⟨upsertAlarm e (upsertAlarm e (hubAlarm raw)), rfl, ?_⟩
  have hresolve {i : ActiveAlarm} (hi : i.acknowledged = true ∨
      failedAck i.ackLifecycleState = false) : resolveOperatorAcknowledged e i = true := by
    rcases hi with hi | hi
    · exact resolve_of_acknowledged e hi
    · unfold resolveOperatorAcknowledged
      rw [hi, he]
      simp
  by_cases holder : (hubAlarm raw).eventTimeEpochMs < e.eventTimeEpochMs
  · rw [upsertAlarm_of_older holder]
    have hv := upsertAlarm_of_not_older (i := e) (Int.lt_irrefl e.eventTimeEpochMs) (.inr rfl)
    rw [hv.congr ActiveAlarm.acknowledged fun _ _ => rfl]
    exact hresolve (.inl he)
  · have hu := upsertAlarm_of_not_older holder (.inl rfl)
    have htime : ¬ (upsertAlarm e (hubAlarm raw)).eventTimeEpochMs < e.eventTimeEpochMs := by
      rwa [hu.congr (fun a => a.eventTimeEpochMs) fun _ _ => rfl]
    have hcommand : (upsertAlarm e (hubAlarm raw)).commandId = e.commandId := by
      rw [hu.congr ActiveAlarm.commandId fun _ _ => rfl]
      exact Option.none_or
    have hv := upsertAlarm_of_not_older htime (.inr hcommand)
    rw [hv.congr ActiveAlarm.acknowledged fun _ _ => rfl]
    refine hresolve (.inl ?_)
    rw [hu.congr ActiveAlarm.acknowledged fun _ _ => rfl]
    exact hresolve (.inr hraw)

def payloadAt (time : ℤ) (state : String) (acknowledged : Bool) : RawAlarm :=
  { RawAlarm.bare "7c0d" with
    serverId := some "f0af"
    sourceName := some "TIC101"
    conditionName := some "HI"
    priority := some "HIGH"
    state := some state
    conditionActive := some true
    acknowledged := some acknowledged
    eventTimeEpochMs := some time }

def ackTrace : AckTrace := ⟨some "cmd-1", none, none, none⟩

def acknowledgedOnce : List Update :=
  [.payload (payloadAt 1000 "UNACKNOWLEDGED_UNCLEARED" false),
    .lifecycle 1500 "ACK_REQUESTED" (some 1500) ackTrace,
    .lifecycle 2000 "ACK_CONFIRMED" (some 2000) ackTrace,
    .payload (payloadAt 2000 "ACKNOWLEDGED_UNCLEARED" true)]

def reRaised : List Update :=
  [.payload (payloadAt 1000 "UNACKNOWLEDGED_UNCLEARED" false),
    .payload (payloadAt 2000 "ACKNOWLEDGED_UNCLEARED" true),
    .payload (payloadAt 3000 "UNACKNOWLEDGED_UNCLEARED" false)]

end Shown

end OpenBridge.AlarmConsole
