import OpenBridge.Foundation.Machine
import OpenBridge.HealthGateway.EpochTracker
import OpenBridge.InstrumentHealth.DeviceStateMachine

/-!
# Health gateway: the discipline end to end

The gateway's tracker and the device state machines behind it see the same messages, the parked ones
apart.
-/

namespace OpenBridge.HealthGateway

open OpenBridge.Foundation
open OpenBridge.InstrumentHealth

def IsCount : JsonNumber → Prop
  | .integral n => 0 ≤ n
  | .decimal q => 0 ≤ q ∧ q.den = 1

/-- What the contract promises of a snapshot or an event, as far as it is read here. -/
structure Contracted (o : JsonObject) : Prop where
  kind : o.get? "message_kind" = some (.text "STATE_SNAPSHOT") ∨
    o.get? "message_kind" = some (.text "STATE_EVENT")
  tenant : ∃ s, o.get? "tenant_id" = some (.text s)
  site : ∃ s, o.get? "site_id" = some (.text s)
  device : ∃ s, o.get? "device_id" = some (.text s)
  epoch : ∃ n, o.get? "producer_epoch" = some (.number n) ∧ IsCount n
  sequence : ∃ n, o.get? "sequence" = some (.number n) ∧ IsCount n
  complete : ∃ b, o.get? "state_complete" = some (.bool b)

structure HealthMessage where
  object : JsonObject
  contracted : Contracted object

structure Decision where
  claimed : Claimed
  action : SequenceAction
  transitions : List Transition

/-- The tracker of the gateway and the machines that the forwarded messages reach. -/
structure HealthStream where
  tracker : EpochTracker
  machines : Dict String DeviceStateMachine

namespace HealthStream

def new : HealthStream := ⟨Dict.empty, Dict.empty⟩

variable (instantMs : String → ℤ) (siteMinFreshnessMs : ℤ)

def machine (s : HealthStream) (device : String) : DeviceStateMachine :=
  (s.machines.get? device).getD (DeviceStateMachine.new siteMinFreshnessMs)

/-- One message and the time at which it reaches the machine; a parked one does not. -/
def step (s : HealthStream) (i : HealthMessage × ℤ) : HealthStream × List Decision :=
  let c := Claimed.read i.1.object
  let checked := s.tracker.check i.1.object
  if checked.2.action = .park then (⟨checked.1, s.machines⟩, [⟨c, .park, []⟩])
  else
    let o := HealthObservation.fromJson instantMs i.1.object
    let applied := (s.machine siteMinFreshnessMs o.deviceKey).apply o i.2
    (⟨checked.1, s.machines.set o.deviceKey applied.1⟩, [⟨c, checked.2.action, applied.2⟩])

/-! ## The messages that are accepted -/

def Before (a b : Decision) : Prop :=
  a.claimed.epoch < b.claimed.epoch ∨
    (a.claimed.epoch = b.claimed.epoch ∧ a.claimed.sequence < b.claimed.sequence)

def accepted (device : String) (ds : List Decision) : List Decision :=
  ds.filter fun d => d.action = .accept ∧ d.claimed.device = device

def Increasing (ds : List Decision) : Prop := ∀ device, (accepted device ds).Pairwise Before

/-- The first message of an epoch that is accepted is a complete snapshot. -/
def OpensWithSnapshot (ds : List Decision) : Prop :=
  ∀ pre d post, ds = pre ++ d :: post → d.action = .accept →
    (∀ e ∈ accepted d.claimed.device pre, e.claimed.epoch ≠ d.claimed.epoch) →
      d.claimed.snapshot = true ∧ d.claimed.complete = true

variable {instantMs siteMinFreshnessMs} {s : HealthStream} {i : HealthMessage × ℤ}

@[simp] theorem tracker_step : (step instantMs siteMinFreshnessMs s i).1.tracker =
    (s.tracker.check i.1.object).1 := by
  simp only [step]
  split <;> rfl

theorem decision_step : ∃ d, (step instantMs siteMinFreshnessMs s i).2 = [d] ∧
    d.claimed = Claimed.read i.1.object ∧ d.action = (s.tracker.check i.1.object).2.action := by
  simp only [step]
  split
  · rename_i hpark
    exact ⟨_, rfl, rfl, hpark.symm⟩
  · exact ⟨_, rfl, rfl, rfl⟩

structure Recorded (ds : List Decision) (t : EpochTracker) : Prop where
  last : ∀ device, ∀ d ∈ accepted device ds, ∃ st, t.get? device = some st ∧
    (d.claimed.epoch < st.epoch ∨ (d.claimed.epoch = st.epoch ∧ d.claimed.sequence ≤ st.lastSeq))
  known : ∀ device st, t.get? device = some st →
    ∃ d ∈ accepted device ds, d.claimed.epoch = st.epoch
  increasing : Increasing ds
  opens : OpensWithSnapshot ds

theorem accepted_append (device : String) (ds es : List Decision) :
    accepted device (ds ++ es) = accepted device ds ++ accepted device es := by
  rw [accepted, List.filter_append]
  rfl

theorem accepted_singleton (device : String) (d : Decision) :
    accepted device [d] = if d.action = .accept ∧ d.claimed.device = device then [d] else [] := by
  rw [accepted, List.filter_cons, List.filter_nil]
  simp only [decide_eq_true_eq]

theorem recorded_of_not_accept {ds : List Decision} {t : EpochTracker} {d : Decision}
    (h : Recorded ds t) (hd : d.action ≠ .accept) : Recorded (ds ++ [d]) t := by
  have hnone : ∀ device, accepted device (ds ++ [d]) = accepted device ds := by
    intro device
    rw [accepted_append, accepted_singleton, if_neg fun hboth => hd hboth.1, List.append_nil]
  refine ⟨?_, ?_, ?_, ?_⟩
  · simpa only [hnone] using h.last
  · simpa only [hnone] using h.known
  · intro device
    rw [hnone]
    exact h.increasing device
  · intro pre e post heq he hfirst
    rcases List.eq_nil_or_concat post with rfl | ⟨post', last, rfl⟩
    · obtain ⟨-, hlast⟩ := List.append_inj' heq rfl
      obtain rfl : d = e := by simpa using hlast
      exact absurd he hd
    · have hsplit : ds ++ [d] = (pre ++ e :: post') ++ [last] := by simpa using heq
      obtain ⟨rfl, -⟩ := List.append_inj' hsplit rfl
      exact h.opens pre e post' rfl he hfirst

theorem recorded_of_accept {ds : List Decision} {t : EpochTracker} {d : Decision} {st : DeviceState}
    (h : Recorded ds t) (hd : d.action = .accept) (hepoch : st.epoch = d.claimed.epoch)
    (hseq : st.lastSeq = d.claimed.sequence)
    (hcases : (d.claimed.snapshot = true ∧ d.claimed.complete = true ∧
        ∀ e, t.get? d.claimed.device = some e → e.epoch < d.claimed.epoch) ∨
      ∃ e, t.get? d.claimed.device = some e ∧ e.epoch = d.claimed.epoch ∧
        e.lastSeq < d.claimed.sequence) :
    Recorded (ds ++ [d]) (t.set d.claimed.device st) := by
  have hown : accepted d.claimed.device (ds ++ [d]) = accepted d.claimed.device ds ++ [d] := by
    rw [accepted_append, accepted_singleton, if_pos ⟨hd, rfl⟩]
  have hother : ∀ device, device ≠ d.claimed.device →
      accepted device (ds ++ [d]) = accepted device ds := by
    intro device hdevice
    rw [accepted_append, accepted_singleton, if_neg fun hboth => hdevice hboth.2.symm,
      List.append_nil]
  -- what was accepted of the device before is before this one
  have hbefore : ∀ e ∈ accepted d.claimed.device ds, Before e d := by
    intro e he
    obtain ⟨st₀, hst₀, hle⟩ := h.last _ e he
    rcases hcases with ⟨-, -, hnewer⟩ | ⟨st₁, hst₁, hsame, hlater⟩
    · have := hnewer st₀ hst₀
      exact Or.inl (by omega)
    · obtain rfl := Option.some.inj (hst₀.symm.trans hst₁)
      rw [Before]
      omega
  refine ⟨fun device e he => ?_, fun device st' hst' => ?_, fun device => ?_, ?_⟩
  · by_cases hdevice : device = d.claimed.device
    · subst hdevice
      rw [hown] at he
      refine ⟨st, Dict.get?_set_self _ _ _, ?_⟩
      rcases List.mem_append.mp he with he | he
      · have hlt := hbefore e he
        rw [Before] at hlt
        omega
      · obtain rfl := List.mem_singleton.mp he
        omega
    · rw [hother device hdevice] at he
      rw [Dict.get?_set_of_ne _ _ hdevice]
      exact h.last device e he
  · by_cases hdevice : device = d.claimed.device
    · subst hdevice
      rw [Dict.get?_set_self] at hst'
      obtain rfl := Option.some.inj hst'
      exact ⟨d, by rw [hown]; simp, hepoch.symm⟩
    · rw [Dict.get?_set_of_ne _ _ hdevice] at hst'
      rw [hother device hdevice]
      exact h.known device st' hst'
  · by_cases hdevice : device = d.claimed.device
    · subst hdevice
      rw [hown, List.pairwise_append]
      refine ⟨h.increasing _, List.pairwise_singleton _ _, fun e he d' hd' => ?_⟩
      obtain rfl := List.mem_singleton.mp hd'
      exact hbefore e he
    · rw [hother device hdevice]
      exact h.increasing device
  · intro pre e post heq he hfirst
    rcases List.eq_nil_or_concat post with rfl | ⟨post', last, rfl⟩
    · obtain ⟨rfl, hlast⟩ := List.append_inj' heq rfl
      obtain rfl : d = e := by simpa using hlast
      rcases hcases with ⟨hsnapshot, hcomplete, -⟩ | ⟨st₁, hst₁, hsame, -⟩
      · exact ⟨hsnapshot, hcomplete⟩
      · obtain ⟨e, hmem, hknown⟩ := h.known _ st₁ hst₁
        exact absurd (hknown.trans hsame) (hfirst e hmem)
    · have hsplit : ds ++ [d] = (pre ++ e :: post') ++ [last] := by simpa using heq
      obtain ⟨rfl, -⟩ := List.append_inj' hsplit rfl
      exact h.opens pre e post' rfl he hfirst

theorem recorded_run (inputs : List (HealthMessage × ℤ)) :
    Recorded (Machine.outputs (step instantMs siteMinFreshnessMs) new inputs)
      (Machine.stateAfter (step instantMs siteMinFreshnessMs) new inputs).tracker := by
  induction inputs using List.reverseRecOn with
  | nil =>
    refine ⟨fun device d hd => ?_, fun device st hst => ?_, fun device => ?_, ?_⟩
    · cases hd
    · cases hst
    · exact List.Pairwise.nil
    · intro pre d post heq
      simp at heq
  | append_singleton pre i ih =>
    obtain ⟨d, hd, hclaimed, haction⟩ := @decision_step instantMs siteMinFreshnessMs
      (Machine.stateAfter (step instantMs siteMinFreshnessMs) new pre) i
    rw [Machine.outputs_concat, Machine.stateAfter_concat, hd, tracker_step]
    by_cases haccept : d.action = .accept
    · obtain ⟨st, hepoch, hseq, hset, hcases⟩ := EpochTracker.check_of_accept
        (haction.symm.trans haccept)
      rw [← hclaimed] at hset hepoch hseq hcases
      rw [hset]
      exact recorded_of_accept ih haccept hepoch hseq hcases
    · rw [EpochTracker.check_of_not_accept (haction ▸ haccept)]
      exact recorded_of_not_accept ih haccept

/-! ## The machines behind the gateway -/

def ReadAlike (o : JsonObject) (name : String) : Prop :=
  (long o name).getD 0 = JsonNode.asLong (o.get? name) 0

def Legible (_s : HealthStream) (i : HealthMessage × ℤ) : Prop :=
  ReadAlike i.1.object "producer_epoch" ∧ ReadAlike i.1.object "sequence"

/-- A step: what is not accepted leaves the tracker as it is; an accepted message advances the machine
of its device to its epoch and sequence, a flagged or parked one changes no machine. -/
structure Agrees (instantMs : String → ℤ) (siteMinFreshnessMs : ℤ) (s : HealthStream)
    (i : HealthMessage × ℤ) : Prop where
  unchanged : (s.tracker.check i.1.object).2.action ≠ .accept →
    (step instantMs siteMinFreshnessMs s i).1.tracker = s.tracker
  advances : (s.tracker.check i.1.object).2.action = .accept →
    ∃ m', (step instantMs siteMinFreshnessMs s i).1.machines.get?
        (Claimed.read i.1.object).device = some m' ∧
      m'.epoch = (Claimed.read i.1.object).epoch ∧
      m'.lastSeq = (Claimed.read i.1.object).sequence ∧
      ∀ m, s.machines.get? (Claimed.read i.1.object).device = some m →
        m.epoch < m'.epoch ∨ (m.epoch = m'.epoch ∧ m.lastSeq < m'.lastSeq)
  nothing : (s.tracker.check i.1.object).2.action ≠ .accept →
    (∀ device, (step instantMs siteMinFreshnessMs s i).1.machines.get? device =
      s.machines.get? device) ∧
    ∀ d ∈ (step instantMs siteMinFreshnessMs s i).2, d.transitions = []
  others : ∀ device, device ≠ (Claimed.read i.1.object).device →
    (step instantMs siteMinFreshnessMs s i).1.machines.get? device = s.machines.get? device

def Synced (s : HealthStream) : Prop :=
  ∀ device, match s.tracker.get? device with
    | none => s.machines.get? device = none
    | some d => ∃ m, s.machines.get? device = some m ∧ m.epoch = d.epoch ∧ m.lastSeq = d.lastSeq

theorem synced_new : Synced new := fun _ => rfl

theorem long_nonneg {o : JsonObject} {name : String}
    (h : ∃ n, o.get? name = some (.number n) ∧ IsCount n) : 0 ≤ (long o name).getD 0 := by
  obtain ⟨n, hn, hcount⟩ := h
  rw [long, hn]
  cases n with
  | integral n =>
    simp only [JsonNumber.tryGetInt64]
    split
    · exact hcount
    · exact le_rfl
  | decimal q => exact le_rfl

variable {o : JsonObject}

theorem deviceKey_of_contracted (h : Contracted o) (instantMs : String → ℤ) :
    (HealthObservation.fromJson instantMs o).deviceKey = (Claimed.read o).device := by
  obtain ⟨tenant, htenant⟩ := h.tenant
  obtain ⟨site, hsite⟩ := h.site
  obtain ⟨device, hdevice⟩ := h.device
  rw [HealthObservation.deviceKey_fromJson, Claimed.read, str, str, str, htenant, hsite, hdevice]
  rfl

theorem kind_of_contracted (h : Contracted o) (instantMs : String → ℤ) :
    (HealthObservation.fromJson instantMs o).isAvailability = false ∧
      (HealthObservation.fromJson instantMs o).isSnapshot = (Claimed.read o).snapshot := by
  have hsnapshot : (Claimed.read o).snapshot =
      decide (str o "message_kind" = some "STATE_SNAPSHOT") := rfl
  rw [HealthObservation.isAvailability, HealthObservation.isSnapshot,
    HealthObservation.messageKind_fromJson, hsnapshot, str]
  rcases h.kind with hkind | hkind
  · rw [hkind]
    decide
  · rw [hkind]
    decide

theorem complete_of_contracted (h : Contracted o) (instantMs : String → ℤ) :
    (HealthObservation.fromJson instantMs o).stateComplete = (Claimed.read o).complete := by
  obtain ⟨b, hb⟩ := h.complete
  rw [HealthObservation.stateComplete_fromJson, Claimed.read, bool, hb]
  rfl

theorem ordered_iff {m : DeviceStateMachine} {d : Option DeviceState} {c : Claimed}
    {obs : HealthObservation} (hepoch : obs.producerEpoch = c.epoch) (hseq : obs.sequence = c.sequence)
    (hsnapshot : obs.isSnapshot = c.snapshot) (hcomplete : obs.stateComplete = c.complete)
    (hd : ∀ e, d = some e → m.epoch = e.epoch ∧ m.lastSeq = e.lastSeq)
    (hnew : d = none → m.epoch < c.epoch)
    (hforward : (EpochTracker.verdict d c).2.action ≠ .park) :
    (EpochTracker.verdict d c).2.action = .accept ↔ (m.ordered obs).isSome = true := by
  cases d with
  | none =>
    have hlt := hnew rfl
    have hnot : ¬ c.epoch < m.epoch := by omega
    rw [EpochTracker.verdict] at hforward ⊢
    rw [DeviceStateMachine.ordered, hepoch, if_neg hnot, if_pos hlt, hsnapshot, hcomplete]
    by_cases hpark : ¬ c.snapshot = true ∨ ¬ c.complete = true
    · rw [if_pos hpark] at hforward
      exact absurd rfl hforward
    · rw [if_neg hpark]
      push Not at hpark
      simp [hpark.1, hpark.2]
  | some e =>
    obtain ⟨hme, hms⟩ := hd e rfl
    rw [EpochTracker.verdict] at hforward ⊢
    rw [DeviceStateMachine.ordered, hepoch, hseq, hsnapshot, hcomplete, hme, hms]
    by_cases hnewer : e.epoch < c.epoch
    · have hnot : ¬ c.epoch < e.epoch := by omega
      rw [if_pos hnewer] at hforward ⊢
      rw [if_neg hnot, if_pos hnewer]
      by_cases hpark : ¬ c.snapshot = true ∨ ¬ c.complete = true
      · rw [if_pos hpark] at hforward
        exact absurd rfl hforward
      · rw [if_neg hpark]
        push Not at hpark
        simp [hpark.1, hpark.2]
    · rw [if_neg hnewer]
      by_cases hstale : c.epoch < e.epoch
      · rw [if_pos hstale, if_pos hstale]
        simp
      · rw [if_neg hstale, if_neg hstale, if_neg hnewer]
        by_cases hold : c.sequence ≤ e.lastSeq
        · rw [if_pos hold, if_pos hold]
          simp
        · rw [if_neg hold, if_neg hold]
          simp

theorem apply_of_ordered {m m₁ : DeviceStateMachine} {obs : HealthObservation} {now : ℤ}
    (hkind : obs.isAvailability = false) (h : m.ordered obs = some m₁) :
    (m.apply obs now).1.epoch = obs.producerEpoch ∧ (m.apply obs now).1.lastSeq = obs.sequence := by
  have hadvance : ∀ m : DeviceStateMachine, (m.advance obs now).1.epoch = m.epoch ∧
      (m.advance obs now).1.lastSeq = m.lastSeq := by
    intro m
    rw [DeviceStateMachine.advance]
    split
    · exact ⟨rfl, rfl⟩
    · split
      · exact ⟨rfl, rfl⟩
      · simp only
        split <;> exact ⟨rfl, rfl⟩
  have happly : m.apply obs now = m₁.advance obs now := by
    simp [DeviceStateMachine.apply, hkind, h]
  obtain ⟨hepoch, hseq⟩ := hadvance m₁
  rw [happly, hepoch, hseq, (DeviceStateMachine.ordered_eq_some h).1]
  exact ⟨rfl, rfl⟩

theorem apply_of_not_ordered {m : DeviceStateMachine} {obs : HealthObservation} {now : ℤ}
    (h : ¬ (m.ordered obs).isSome = true) : m.apply obs now = (m, []) := by
  rw [Bool.not_eq_true, Option.isSome_eq_false_iff, Option.isNone_iff_eq_none] at h
  simp [DeviceStateMachine.apply, h]

theorem machine_of_synced (h : Synced s) (device : String) :
    (∀ e, s.tracker.get? device = some e → s.machines.get? device =
        some (s.machine siteMinFreshnessMs device) ∧
      (s.machine siteMinFreshnessMs device).epoch = e.epoch ∧
      (s.machine siteMinFreshnessMs device).lastSeq = e.lastSeq) ∧
    (s.tracker.get? device = none → s.machines.get? device = none ∧
      (s.machine siteMinFreshnessMs device).epoch = minLong) := by
  have hdevice := h device
  rw [machine]
  cases htracker : s.tracker.get? device with
  | none =>
    rw [htracker] at hdevice
    refine ⟨fun e he => absurd he (by simp), fun _ => ?_⟩
    rw [hdevice]
    exact ⟨rfl, rfl⟩
  | some d =>
    rw [htracker] at hdevice
    obtain ⟨m, hm, hepoch, hseq⟩ := hdevice
    refine ⟨fun e he => ?_, fun hnone => absurd hnone (by simp)⟩
    obtain rfl := Option.some.inj he
    rw [hm]
    exact ⟨rfl, hepoch, hseq⟩

theorem forwarded (h : Synced s) (hlegible : Legible s i)
    (hforward : (s.tracker.check i.1.object).2.action ≠ .park) :
    (s.tracker.check i.1.object).2.action = .accept ↔
      ((s.machine siteMinFreshnessMs (Claimed.read i.1.object).device).ordered
        (HealthObservation.fromJson instantMs i.1.object)).isSome = true := by
  have hcontract := i.1.contracted
  obtain ⟨hknown, hunknown⟩ := @machine_of_synced siteMinFreshnessMs s h
    (Claimed.read i.1.object).device
  have hepoch : (HealthObservation.fromJson instantMs i.1.object).producerEpoch =
      (Claimed.read i.1.object).epoch := by
    rw [HealthObservation.producerEpoch_fromJson]
    exact hlegible.1.symm
  have hseq : (HealthObservation.fromJson instantMs i.1.object).sequence =
      (Claimed.read i.1.object).sequence := by
    rw [HealthObservation.sequence_fromJson]
    exact hlegible.2.symm
  have hnonneg : 0 ≤ (Claimed.read i.1.object).epoch := long_nonneg hcontract.epoch
  refine ordered_iff hepoch hseq (kind_of_contracted hcontract instantMs).2
    (complete_of_contracted hcontract instantMs) (fun e he => (hknown e he).2) (fun hnone => ?_)
    hforward
  have hmin : minLong < 0 := by decide
  have hfresh := (hunknown hnone).2
  omega

theorem step_of_park (hpark : (s.tracker.check i.1.object).2.action = .park) :
    step instantMs siteMinFreshnessMs s i = (⟨(s.tracker.check i.1.object).1, s.machines⟩,
      [⟨Claimed.read i.1.object, .park, []⟩]) := by
  simp only [step]
  rw [if_pos hpark]

theorem step_of_forward (hforward : (s.tracker.check i.1.object).2.action ≠ .park) :
    step instantMs siteMinFreshnessMs s i =
      (⟨(s.tracker.check i.1.object).1, s.machines.set (Claimed.read i.1.object).device
          ((s.machine siteMinFreshnessMs (Claimed.read i.1.object).device).apply
            (HealthObservation.fromJson instantMs i.1.object) i.2).1⟩,
        [⟨Claimed.read i.1.object, (s.tracker.check i.1.object).2.action,
          ((s.machine siteMinFreshnessMs (Claimed.read i.1.object).device).apply
            (HealthObservation.fromJson instantMs i.1.object) i.2).2⟩]) := by
  simp only [step]
  rw [if_neg hforward, deviceKey_of_contracted i.1.contracted instantMs]

theorem known_of_flag (hforward : (s.tracker.check i.1.object).2.action ≠ .park)
    (hnot : (s.tracker.check i.1.object).2.action ≠ .accept) :
    ∃ e, s.tracker.get? (Claimed.read i.1.object).device = some e := by
  rw [← Option.ne_none_iff_exists']
  intro hnone
  simp only [EpochTracker.check, hnone, EpochTracker.verdict] at hforward hnot
  split at hforward
  · exact hforward rfl
  · rename_i hcomplete
    rw [if_neg hcomplete] at hnot
    exact hnot rfl

theorem machines_of_not_accept (h : Synced s) (hlegible : Legible s i)
    (hnot : (s.tracker.check i.1.object).2.action ≠ .accept) :
    (∀ device, (step instantMs siteMinFreshnessMs s i).1.machines.get? device =
      s.machines.get? device) ∧
    ∀ d ∈ (step instantMs siteMinFreshnessMs s i).2, d.transitions = [] := by
  by_cases hpark : (s.tracker.check i.1.object).2.action = .park
  · rw [step_of_park hpark]
    exact ⟨fun _ => rfl, by simp⟩
  · have hquiet := @apply_of_not_ordered _ _ i.2
      (mt (@forwarded instantMs siteMinFreshnessMs s i h hlegible hpark).mpr hnot)
    obtain ⟨e, he⟩ := known_of_flag hpark hnot
    obtain ⟨hmachine, -⟩ := (@machine_of_synced siteMinFreshnessMs s h _).1 e he
    rw [step_of_forward hpark, hquiet]
    refine ⟨fun device => ?_, by simp⟩
    rw [Dict.get?_set]
    split
    · rename_i hdevice
      rw [hdevice, hmachine]
    · rfl

theorem machines_of_accept (h : Synced s) (hlegible : Legible s i)
    (haccept : (s.tracker.check i.1.object).2.action = .accept) :
    ∃ m', (step instantMs siteMinFreshnessMs s i).1.machines =
        s.machines.set (Claimed.read i.1.object).device m' ∧
      m'.epoch = (Claimed.read i.1.object).epoch ∧
      m'.lastSeq = (Claimed.read i.1.object).sequence := by
  have hpark : (s.tracker.check i.1.object).2.action ≠ .park := by
    rw [haccept]
    decide
  obtain ⟨m₁, hordered⟩ := Option.isSome_iff_exists.mp
    ((@forwarded instantMs siteMinFreshnessMs s i h hlegible hpark).mp haccept)
  obtain ⟨hepoch, hseq⟩ := @apply_of_ordered _ _ _ i.2
    (kind_of_contracted i.1.contracted instantMs).1 hordered
  rw [step_of_forward hpark]
  refine ⟨_, rfl, hepoch.trans ?_, hseq.trans ?_⟩
  · rw [HealthObservation.producerEpoch_fromJson]
    exact hlegible.1.symm
  · rw [HealthObservation.sequence_fromJson]
    exact hlegible.2.symm

theorem agrees_step (h : Synced s) (hlegible : Legible s i) :
    Agrees instantMs siteMinFreshnessMs s i := by
  refine ⟨fun hnot => ?_, fun haccept => ?_, machines_of_not_accept h hlegible, ?_⟩
  · rw [tracker_step, EpochTracker.check_of_not_accept hnot]
  · obtain ⟨m', hset, hepoch, hseq⟩ :=
      @machines_of_accept instantMs siteMinFreshnessMs s i h hlegible haccept
    refine ⟨m', by rw [hset, Dict.get?_set_self], hepoch, hseq, fun m hm => ?_⟩
    have hdevice := h (Claimed.read i.1.object).device
    obtain ⟨-, -, -, -, hcases⟩ := EpochTracker.check_of_accept haccept
    cases htracker : s.tracker.get? (Claimed.read i.1.object).device with
    | none =>
      rw [htracker] at hdevice
      rw [hdevice] at hm
      cases hm
    | some d =>
      rw [htracker] at hdevice hcases
      obtain ⟨m₀, hm₀, hepoch₀, hseq₀⟩ := hdevice
      obtain rfl := Option.some.inj (hm₀.symm.trans hm)
      rcases hcases with ⟨-, -, hnewer⟩ | ⟨e, he, hsame, hlater⟩
      · have := hnewer d rfl
        omega
      · obtain rfl := Option.some.inj he
        omega
  · intro device hdevice
    by_cases haccept : (s.tracker.check i.1.object).2.action = .accept
    · obtain ⟨m', hset, -, -⟩ :=
        @machines_of_accept instantMs siteMinFreshnessMs s i h hlegible haccept
      rw [hset, Dict.get?_set_of_ne _ _ hdevice]
    · exact (machines_of_not_accept h hlegible haccept).1 device

theorem synced_step (h : Synced s) (hlegible : Legible s i) :
    Synced (step instantMs siteMinFreshnessMs s i).1 := by
  intro device
  rw [tracker_step]
  by_cases haccept : (s.tracker.check i.1.object).2.action = .accept
  · obtain ⟨m', hset, hepoch, hseq⟩ :=
      @machines_of_accept instantMs siteMinFreshnessMs s i h hlegible haccept
    obtain ⟨d, hde, hds, htracker, -⟩ := EpochTracker.check_of_accept haccept
    rw [hset, htracker]
    by_cases hdevice : device = (Claimed.read i.1.object).device
    · rw [hdevice, Dict.get?_set_self, Dict.get?_set_self]
      exact ⟨m', rfl, hepoch.trans hde.symm, hseq.trans hds.symm⟩
    · rw [Dict.get?_set_of_ne _ _ hdevice, Dict.get?_set_of_ne _ _ hdevice]
      exact h device
  · rw [EpochTracker.check_of_not_accept haccept, (machines_of_not_accept h hlegible haccept).1]
    exact h device

/-- Along a run whose messages are read alike on both sides, the accepted messages of every device
increase, every epoch opens with a complete snapshot, and exactly the accepted messages advance the
machines. -/
theorem disciplined (instantMs : String → ℤ) (siteMinFreshnessMs : ℤ)
    (inputs : List (HealthMessage × ℤ))
    (h : Machine.Always (step instantMs siteMinFreshnessMs) Legible new inputs) :
    Increasing (Machine.outputs (step instantMs siteMinFreshnessMs) new inputs) ∧
      OpensWithSnapshot (Machine.outputs (step instantMs siteMinFreshnessMs) new inputs) ∧
      Machine.Always (step instantMs siteMinFreshnessMs) (Agrees instantMs siteMinFreshnessMs) new
        inputs := by
  have hrecorded := @recorded_run instantMs siteMinFreshnessMs inputs
  exact ⟨hrecorded.increasing, hrecorded.opens, Machine.always_of_always _ Synced
    (fun _ _ hs hi => synced_step hs hi) (fun _ _ hs hi => agrees_step hs hi) synced_new h⟩

def sample (kind : String) (epoch sequence : JsonNumber) : JsonObject :=
  Json.readFields
    [("message_kind", .text kind), ("tenant_id", .text "t"), ("site_id", .text "s"),
      ("device_id", .text "d"), ("producer_epoch", .number epoch), ("sequence", .number sequence),
      ("state_complete", .bool true)]

theorem contracted_sample {kind : String} {epoch sequence : JsonNumber}
    (hkind : kind = "STATE_SNAPSHOT" ∨ kind = "STATE_EVENT") (hepoch : IsCount epoch)
    (hsequence : IsCount sequence) : Contracted (sample kind epoch sequence) := by
  refine ⟨?_, ⟨"t", ?_⟩, ⟨"s", ?_⟩, ⟨"d", ?_⟩, ⟨epoch, ?_, hepoch⟩, ⟨sequence, ?_, hsequence⟩,
    ⟨true, ?_⟩⟩
  · rcases hkind with rfl | rfl
    · exact Or.inl rfl
    · exact Or.inr rfl
  all_goals rfl

def snapshotMessage (sequence : JsonNumber) (h : IsCount sequence) : HealthMessage × ℤ :=
  (⟨sample "STATE_SNAPSHOT" (.integral 1) sequence,
    contracted_sample (Or.inl rfl) (by simp [IsCount]) h⟩, 100)

def eventThree : HealthMessage × ℤ :=
  (⟨sample "STATE_EVENT" (.integral 1) (.integral 3),
    contracted_sample (Or.inr rfl) (by simp [IsCount]) (by simp [IsCount])⟩, 200)

theorem isCount_two : IsCount (.integral 2) := by simp [IsCount]

theorem isCount_decimalSix : IsCount (.decimal 6) := by simp [IsCount]

/-- Integer literals. -/
theorem disciplined_literals :
    Increasing (Machine.outputs (step (fun _ => 0) 60000) new
        [snapshotMessage (.integral 2) isCount_two, eventThree]) ∧
      OpensWithSnapshot (Machine.outputs (step (fun _ => 0) 60000) new
        [snapshotMessage (.integral 2) isCount_two, eventThree]) ∧
      Machine.Always (step (fun _ => 0) 60000) (Agrees (fun _ => 0) 60000) new
        [snapshotMessage (.integral 2) isCount_two, eventThree] := by
  refine disciplined (fun _ => 0) 60000 _ ⟨⟨?_, ?_⟩, ⟨?_, ?_⟩, trivial⟩
  all_goals
    unfold ReadAlike
    decide

/-- A sequence that is written `6.0` is zero for the gateway and six for the machine: the event that
the gateway accepts after it does not advance the machine. -/
theorem decimal_sequence_diverges :
    let inputs := [snapshotMessage (.decimal 6) isCount_decimalSix, eventThree]
    (Machine.outputs (step (fun _ => 0) 60000) new inputs).map (·.action) = [.accept, .accept] ∧
      ((Machine.stateAfter (step (fun _ => 0) 60000) new inputs).machines.get? "t|s|d").map
        (fun m => (m.epoch, m.lastSeq)) = some (1, 6) ∧
      ¬ Machine.Always (step (fun _ => 0) 60000) (Agrees (fun _ => 0) 60000) new inputs := by
  intro inputs
  have hmachine : ((Machine.stateAfter (step (fun _ => 0) 60000) new inputs).machines.get?
      "t|s|d").map (fun m => (m.epoch, m.lastSeq)) = some (1, 6) := by
    decide +kernel
  refine ⟨by decide, hmachine, ?_⟩
  rintro ⟨-, hagrees, -⟩
  obtain ⟨m', hm', -, hseq, -⟩ := hagrees.advances (by decide)
  have hdevice : (Claimed.read eventThree.1.object).device = "t|s|d" := by decide
  have hthree : (Claimed.read eventThree.1.object).sequence = 3 := by decide
  rw [hthree] at hseq
  rw [hdevice] at hm'
  obtain ⟨m, hm, hvalue⟩ := Option.map_eq_some_iff.mp hmachine
  obtain rfl : m = m' := Option.some.inj (hm.symm.trans hm')
  have hsix : m.lastSeq = 6 := congrArg Prod.snd hvalue
  omega

end HealthStream

end OpenBridge.HealthGateway
