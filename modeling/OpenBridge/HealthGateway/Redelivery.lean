import OpenBridge.Foundation.Machine
import OpenBridge.HealthGateway.InstrumentalHealthSubscriber

/-!
# Health gateway: redelivery

The subscriber with everything it decided so far.  An observation is remembered before it is known
whether it is forwarded, so a message that was parked is a duplicate of itself.
-/

namespace OpenBridge.HealthGateway

open OpenBridge.Foundation
open OpenBridge.InstrumentHealth (JsonObject)

structure Arrival where
  message : MqttMessage
  published : Bool

structure Delivery where
  key : String
  hash : String
  outcome : Outcome
  published : Bool

namespace Delivery

variable (d : Delivery)

def Forwarded : Prop := (∃ key record, d.outcome = .forward key record) ∧ d.published = true

/-- The observation was dead-lettered to be replayed after the snapshot of its epoch. -/
def Parked : Prop :=
  ∃ key refusal, d.outcome = .deadLetter key refusal ∧ refusal.reason = "EPOCH_WITHOUT_SNAPSHOT"

def PublishFailed : Prop := (∃ key record, d.outcome = .forward key record) ∧ d.published = false

def Lost : Prop := d.Parked ∨ d.PublishFailed

end Delivery

structure HealthFeed where
  subscriber : InstrumentalHealthSubscriber
  deliveries : List Delivery

namespace InstrumentalHealthSubscriber

variable (platform : Platform)

def observed (s : InstrumentalHealthSubscriber) (m : MqttMessage) : Option JsonObject :=
  match s.admitted platform m with
  | .ok (topic, o) => if topic.kind = .availability then none else some o
  | .error _ => none

variable {platform} {s : InstrumentalHealthSubscriber} {m : MqttMessage} {o : JsonObject}

theorem processOne_of_not_observed (h : s.observed platform m = none) :
    (s.processOne platform m).1.dedupe = s.dedupe ∧
      (s.processOne platform m).2 ≠ .duplicate := by
  rw [observed] at h
  rw [processOne]
  split at h
  · rename_i topic o' hadmitted
    split at h
    · rename_i hkind
      rw [hadmitted]
      simp [hkind]
    · exact absurd h (by simp)
  · rename_i e hadmitted
    rw [hadmitted]
    exact ⟨rfl, by simp⟩

theorem processOne_of_observed (h : s.observed platform m = some o) :
    ∃ topic, s.processOne platform m = s.disciplined platform m topic o := by
  rw [observed] at h
  split at h
  · rename_i topic o' hadmitted
    split at h
    · exact absurd h (by simp)
    · rename_i hkind
      obtain rfl := Option.some.inj h
      exact ⟨topic, by simp only [processOne, hadmitted, if_neg hkind]⟩
  · exact absurd h (by simp)

theorem payload_of_observed (h : s.observed platform m = some o) : m.payload.parsed = .object o := by
  rw [observed] at h
  split at h
  · rename_i topic o' hadmitted
    split at h
    · exact absurd h (by simp)
    · obtain rfl := Option.some.inj h
      rw [admitted] at hadmitted
      split at hadmitted
      · exact absurd hadmitted (by simp)
      · rename_i topic' htopic
        cases hvalid : InstrumentalHealthValidator.validate platform.contract s.settings topic'
            m.payload m.receivedAt with
        | error e => simp [hvalid, Except.map] at hadmitted
        | ok o' =>
          simp only [hvalid, Except.map, Except.ok.injEq, Prod.mk.injEq] at hadmitted
          rw [← hadmitted.2]
          exact InstrumentalHealthValidator.payload_of_validate hvalid
  · exact absurd h (by simp)

theorem observed_congr {t : InstrumentalHealthSubscriber} (h : s.settings = t.settings) :
    s.observed platform m = t.observed platform m := by
  simp only [observed, admitted, h]

theorem settings_processOne : (s.processOne platform m).1.settings = s.settings := by
  simp only [processOne]
  split
  · rfl
  · split
    · rfl
    · simp only [disciplined]
      split <;> rfl

variable {topic : HealthTopic}

theorem dedupe_disciplined : (s.disciplined platform m topic o).1.dedupe =
    (s.dedupe.check (HealthDedupe.key o) (HealthDedupe.canonicalHash platform.scalars o)).1 := by
  simp only [disciplined]
  split <;> rfl

theorem disciplined_of_remembered {remembered : String}
    (h : s.dedupe.get? (HealthDedupe.key o) = some remembered) :
    (s.disciplined platform m topic o).2 =
      if remembered = HealthDedupe.canonicalHash platform.scalars o then .duplicate
      else .deadLetter topic.deviceId (conflict o) := by
  have hverdict := @HealthDedupe.verdict_check s.dedupe (HealthDedupe.key o)
    (HealthDedupe.canonicalHash platform.scalars o)
  simp only [h] at hverdict
  by_cases hsame : remembered = HealthDedupe.canonicalHash platform.scalars o
  · rw [if_pos hsame] at hverdict
    simp only [disciplined, hverdict, if_pos hsame]
  · rw [if_neg hsame] at hverdict
    simp only [disciplined, hverdict, if_neg hsame]

theorem disciplined_of_new (h : s.dedupe.get? (HealthDedupe.key o) = none) :
    ∃ t : InstrumentalHealthSubscriber, t.epochs = s.epochs ∧
      (s.disciplined platform m topic o).2 = (t.sequenced m topic o).2 := by
  have hverdict := @HealthDedupe.verdict_check s.dedupe (HealthDedupe.key o)
    (HealthDedupe.canonicalHash platform.scalars o)
  simp only [h] at hverdict
  exact ⟨{ s with dedupe := (s.dedupe.check (HealthDedupe.key o)
    (HealthDedupe.canonicalHash platform.scalars o)).1 }, rfl, by
    simp only [disciplined, hverdict]⟩

theorem sequenced_cases : ((s.epochs.check o).2.action ≠ .park ∧
      ∃ key record, (s.sequenced m topic o).2 = .forward key record) ∨
    ((s.epochs.check o).2.action = .park ∧ ∃ key refusal,
      (s.sequenced m topic o).2 = .deadLetter key refusal ∧
        refusal.reason = "EPOCH_WITHOUT_SNAPSHOT") := by
  cases haction : (s.epochs.check o).2.action with
  | accept => exact Or.inl ⟨by simp, _, _, by simp only [sequenced, haction]; rfl⟩
  | flag => exact Or.inl ⟨by simp, _, _, by simp only [sequenced, haction]; rfl⟩
  | park =>
    refine Or.inr ⟨rfl, topic.deviceId, parked (s.epochs.check o).2.reason, ?_, ?_⟩
    · simp only [sequenced, haction]
    · rw [parked, EpochTracker.reason_of_park haction]
      rfl

end InstrumentalHealthSubscriber

namespace HealthFeed

open InstrumentalHealthSubscriber (Platform)

variable (platform : Platform)

def step (f : HealthFeed) (i : Arrival) : HealthFeed × List Outcome :=
  let decided := f.subscriber.processOne platform i.message
  (⟨decided.1, f.deliveries ++
      match f.subscriber.observed platform i.message with
      | some o => [⟨HealthDedupe.key o, HealthDedupe.canonicalHash platform.scalars o, decided.2,
          i.published⟩]
      | none => []⟩,
    [decided.2])

def start (settings : InstrumentalHealthSettings) (username configId : String) (capacity : ℕ) :
    HealthFeed :=
  ⟨InstrumentalHealthSubscriber.new settings username configId capacity, []⟩

variable (f : HealthFeed) (i : Arrival)

def WasForwarded (key hash : String) : Prop :=
  ∃ d ∈ f.deliveries, d.key = key ∧ d.hash = hash ∧ d.Forwarded

def WasLost (key hash : String) : Prop :=
  ∃ d ∈ f.deliveries, d.key = key ∧ d.hash = hash ∧ d.Lost

def DuplicateForwarded : Prop :=
  (f.subscriber.processOne platform i.message).2 = .duplicate →
    ∃ o, f.subscriber.observed platform i.message = some o ∧
      f.WasForwarded (HealthDedupe.key o) (HealthDedupe.canonicalHash platform.scalars o)

/-- The observation was lost earlier, no content of its key was forwarded since, and nothing is in
its way any more: its epoch has a snapshot and the sink publishes. -/
def CauseGone (o : JsonObject) : Prop :=
  f.WasLost (HealthDedupe.key o) (HealthDedupe.canonicalHash platform.scalars o) ∧
    (∀ hash, ¬ f.WasForwarded (HealthDedupe.key o) hash) ∧
    (f.subscriber.epochs.check o).2.action ≠ .park ∧ i.published = true

/-- An observation that was lost is forwarded when it is delivered again after the cause is gone. -/
def LostForwarded : Prop :=
  ∀ o, f.subscriber.observed platform i.message = some o → CauseGone platform f i o →
    ∃ key record, (f.subscriber.processOne platform i.message).2 = .forward key record

def Withheld (key hash : String) : Prop :=
  f.subscriber.dedupe.get? key = some hash ∧ f.WasLost key hash ∧ ¬ f.WasForwarded key hash

/-- The memory withholds neither the content that arrives nor, when it could be forwarded at last,
another one under its key. -/
def Unhindered : Prop :=
  ∀ o, f.subscriber.observed platform i.message = some o →
    ¬ f.Withheld (HealthDedupe.key o) (HealthDedupe.canonicalHash platform.scalars o) ∧
      (CauseGone platform f i o → ∀ hash, ¬ f.Withheld (HealthDedupe.key o) hash)

def Accounted : Prop :=
  ∀ key hash, f.subscriber.dedupe.get? key = some hash →
    f.WasForwarded key hash ∨ f.WasLost key hash

variable {platform f i}

theorem accounted_start (settings : InstrumentalHealthSettings) (username configId : String)
    (capacity : ℕ) : Accounted (start settings username configId capacity) := by
  intro key hash h
  exact absurd h (by simp [start, InstrumentalHealthSubscriber.new, HealthDedupe.new,
    HealthDedupe.get?])

theorem deliveries_step_prefix : f.deliveries <+: (step platform f i).1.deliveries :=
  List.prefix_append _ _

theorem wasForwarded_step {key hash : String} (h : f.WasForwarded key hash) :
    (step platform f i).1.WasForwarded key hash := by
  obtain ⟨d, hd, hrest⟩ := h
  exact ⟨d, deliveries_step_prefix.subset hd, hrest⟩

theorem wasLost_step {key hash : String} (h : f.WasLost key hash) :
    (step platform f i).1.WasLost key hash := by
  obtain ⟨d, hd, hrest⟩ := h
  exact ⟨d, deliveries_step_prefix.subset hd, hrest⟩

theorem settings_step : (step platform f i).1.subscriber.settings = f.subscriber.settings :=
  InstrumentalHealthSubscriber.settings_processOne

theorem deliveries_step {o : JsonObject}
    (ho : f.subscriber.observed platform i.message = some o) :
    (step platform f i).1.deliveries = f.deliveries ++
      [⟨HealthDedupe.key o, HealthDedupe.canonicalHash platform.scalars o,
        (f.subscriber.processOne platform i.message).2, i.published⟩] := by
  simp only [step, ho]

theorem dedupe_step {o : JsonObject} (ho : f.subscriber.observed platform i.message = some o) :
    (step platform f i).1.subscriber.dedupe = (f.subscriber.dedupe.check (HealthDedupe.key o)
      (HealthDedupe.canonicalHash platform.scalars o)).1 := by
  obtain ⟨topic, hprocess⟩ := InstrumentalHealthSubscriber.processOne_of_observed ho
  rw [← @InstrumentalHealthSubscriber.dedupe_disciplined platform _ i.message _ topic, ← hprocess]
  rfl

theorem accounted_new {o : JsonObject} (ho : f.subscriber.observed platform i.message = some o)
    (hnew : f.subscriber.dedupe.get? (HealthDedupe.key o) = none) :
    (step platform f i).1.WasForwarded (HealthDedupe.key o)
        (HealthDedupe.canonicalHash platform.scalars o) ∨
      (step platform f i).1.WasLost (HealthDedupe.key o)
        (HealthDedupe.canonicalHash platform.scalars o) := by
  obtain ⟨topic, hprocess⟩ := InstrumentalHealthSubscriber.processOne_of_observed ho
  obtain ⟨t, -, hdecided⟩ := @InstrumentalHealthSubscriber.disciplined_of_new platform f.subscriber
    i.message o topic hnew
  have hmem : (⟨HealthDedupe.key o, HealthDedupe.canonicalHash platform.scalars o,
      (f.subscriber.processOne platform i.message).2, i.published⟩ : Delivery) ∈
      (step platform f i).1.deliveries := by
    rw [deliveries_step ho]
    exact List.mem_append_right _ (List.mem_singleton_self _)
  rcases @InstrumentalHealthSubscriber.sequenced_cases t i.message o topic with
    ⟨-, key, record, hforward⟩ | ⟨-, key, refusal, hpark, hreason⟩
  · have houtcome : (f.subscriber.processOne platform i.message).2 = .forward key record := by
      rw [hprocess, hdecided, hforward]
    cases hpublished : i.published with
    | true => exact Or.inl ⟨_, hmem, rfl, rfl, ⟨key, record, houtcome⟩, hpublished⟩
    | false => exact Or.inr ⟨_, hmem, rfl, rfl, Or.inr ⟨⟨key, record, houtcome⟩, hpublished⟩⟩
  · have houtcome : (f.subscriber.processOne platform i.message).2 = .deadLetter key refusal := by
      rw [hprocess, hdecided, hpark]
    exact Or.inr ⟨_, hmem, rfl, rfl, Or.inl ⟨key, refusal, houtcome, hreason⟩⟩

theorem accounted_step (h : f.Accounted) : (step platform f i).1.Accounted := by
  intro key hash hremembered
  have hkept (hbefore : f.subscriber.dedupe.get? key = some hash) :
      (step platform f i).1.WasForwarded key hash ∨ (step platform f i).1.WasLost key hash :=
    (h key hash hbefore).imp wasForwarded_step wasLost_step
  cases ho : f.subscriber.observed platform i.message with
  | none =>
    apply hkept
    rw [← (InstrumentalHealthSubscriber.processOne_of_not_observed ho).1]
    exact hremembered
  | some o =>
    rw [dedupe_step ho] at hremembered
    rcases HealthDedupe.get?_of_check hremembered with hbefore | ⟨rfl, rfl, hnew⟩
    · exact hkept hbefore
    · exact accounted_new ho hnew

theorem not_forward_of_remembered {o : JsonObject} {remembered : String}
    (ho : f.subscriber.observed platform i.message = some o)
    (h : f.subscriber.dedupe.get? (HealthDedupe.key o) = some remembered) (key : String)
    (record : GatewayRecord) :
    (f.subscriber.processOne platform i.message).2 ≠ .forward key record := by
  obtain ⟨topic, hprocess⟩ := InstrumentalHealthSubscriber.processOne_of_observed ho
  rw [hprocess, InstrumentalHealthSubscriber.disciplined_of_remembered h]
  split <;> simp

theorem duplicate_iff {o : JsonObject} (ho : f.subscriber.observed platform i.message = some o) :
    (f.subscriber.processOne platform i.message).2 = .duplicate ↔
      f.subscriber.dedupe.get? (HealthDedupe.key o) =
        some (HealthDedupe.canonicalHash platform.scalars o) := by
  obtain ⟨topic, hprocess⟩ := InstrumentalHealthSubscriber.processOne_of_observed ho
  rw [hprocess]
  cases hget : f.subscriber.dedupe.get? (HealthDedupe.key o) with
  | none =>
    obtain ⟨t, -, hdecided⟩ := @InstrumentalHealthSubscriber.disciplined_of_new platform
      f.subscriber i.message o topic hget
    rw [hdecided]
    refine iff_of_false ?_ (by simp)
    rcases @InstrumentalHealthSubscriber.sequenced_cases t i.message o topic with
      ⟨-, key, record, houtcome⟩ | ⟨-, key, refusal, houtcome, -⟩
    · rw [houtcome]
      simp
    · rw [houtcome]
      simp
  | some remembered =>
    rw [InstrumentalHealthSubscriber.disciplined_of_remembered hget]
    by_cases hsame : remembered = HealthDedupe.canonicalHash platform.scalars o
    · rw [if_pos hsame, hsame]
      exact iff_of_true rfl rfl
    · rw [if_neg hsame]
      exact iff_of_false (by simp) (by simpa using hsame)

theorem forward_of_new {o : JsonObject} (ho : f.subscriber.observed platform i.message = some o)
    (hnew : f.subscriber.dedupe.get? (HealthDedupe.key o) = none)
    (hpark : (f.subscriber.epochs.check o).2.action ≠ .park) :
    ∃ key record, (f.subscriber.processOne platform i.message).2 = .forward key record := by
  obtain ⟨topic, hprocess⟩ := InstrumentalHealthSubscriber.processOne_of_observed ho
  obtain ⟨t, hepochs, hdecided⟩ := @InstrumentalHealthSubscriber.disciplined_of_new platform
    f.subscriber i.message o topic hnew
  rw [hprocess, hdecided]
  rcases @InstrumentalHealthSubscriber.sequenced_cases t i.message o topic with
    ⟨-, hforward⟩ | ⟨hparked, -⟩
  · exact hforward
  · rw [hepochs] at hparked
    exact absurd hparked hpark

theorem remembered_of_new {o : JsonObject} (ho : f.subscriber.observed platform i.message = some o)
    (hnew : f.subscriber.dedupe.get? (HealthDedupe.key o) = none)
    (hroom : f.subscriber.dedupe.order.length < f.subscriber.dedupe.capacity) :
    (step platform f i).1.subscriber.dedupe.get? (HealthDedupe.key o) =
      some (HealthDedupe.canonicalHash platform.scalars o) := by
  rw [dedupe_step ho]
  exact HealthDedupe.get?_check_self hroom hnew

theorem remembered_step {o : JsonObject} {key hash : String}
    (ho : f.subscriber.observed platform i.message = some o)
    (hroom : f.subscriber.dedupe.order.length < f.subscriber.dedupe.capacity)
    (h : f.subscriber.dedupe.get? key = some hash) :
    (step platform f i).1.subscriber.dedupe.get? key = some hash := by
  rw [dedupe_step ho]
  exact HealthDedupe.get?_check_of_room hroom h

theorem parked_of_new {o : JsonObject} (ho : f.subscriber.observed platform i.message = some o)
    (hnew : f.subscriber.dedupe.get? (HealthDedupe.key o) = none)
    (hpark : (f.subscriber.epochs.check o).2.action = .park) :
    ∃ key refusal, (f.subscriber.processOne platform i.message).2 = .deadLetter key refusal := by
  obtain ⟨topic, hprocess⟩ := InstrumentalHealthSubscriber.processOne_of_observed ho
  obtain ⟨t, hepochs, hdecided⟩ := @InstrumentalHealthSubscriber.disciplined_of_new platform
    f.subscriber i.message o topic hnew
  rw [hprocess, hdecided]
  rcases @InstrumentalHealthSubscriber.sequenced_cases t i.message o topic with
    ⟨hnot, -⟩ | ⟨-, key, refusal, houtcome, -⟩
  · rw [hepochs] at hnot
    exact absurd hpark hnot
  · exact ⟨key, refusal, houtcome⟩

theorem wasForwarded_of_not_withheld {key hash : String} (h : f.Accounted)
    (hremembered : f.subscriber.dedupe.get? key = some hash) (hnot : ¬ f.Withheld key hash) :
    f.WasForwarded key hash := by
  by_contra hforwarded
  rcases h key hash hremembered with hwas | hlost
  · exact hforwarded hwas
  · exact hnot ⟨hremembered, hlost, hforwarded⟩

theorem sound_iff (h : f.Accounted) :
    (DuplicateForwarded platform f i ∧ LostForwarded platform f i) ↔ Unhindered platform f i := by
  constructor
  · rintro ⟨hduplicate, hlost⟩ o ho
    constructor
    · rintro ⟨hremembered, -, hnever⟩
      obtain ⟨o', ho', hforwarded⟩ := hduplicate ((duplicate_iff ho).mpr hremembered)
      obtain rfl : o = o' := Option.some.inj (ho.symm.trans ho')
      exact hnever hforwarded
    · rintro hgone hash ⟨hremembered, -, -⟩
      obtain ⟨key, record, hforward⟩ := hlost o ho hgone
      exact not_forward_of_remembered ho hremembered key record hforward
  · intro hclear
    constructor
    · intro houtcome
      cases ho : f.subscriber.observed platform i.message with
      | none =>
        exact absurd houtcome (InstrumentalHealthSubscriber.processOne_of_not_observed ho).2
      | some o =>
        exact ⟨o, rfl, wasForwarded_of_not_withheld h ((duplicate_iff ho).mp houtcome)
          (hclear o ho).1⟩
    · intro o ho hgone
      cases hget : f.subscriber.dedupe.get? (HealthDedupe.key o) with
      | none => exact forward_of_new ho hget hgone.2.2.1
      | some hash =>
        have hforwarded := wasForwarded_of_not_withheld h hget ((hclear o ho).2 hgone hash)
        exact absurd hforwarded (hgone.2.1 hash)

/-- Along every sequence of messages: each is decided rightly exactly when the memory hinders none of
them. -/
theorem never_lost_iff (platform : Platform) (settings : InstrumentalHealthSettings)
    (username configId : String) (capacity : ℕ) (arrivals : List Arrival) :
    Machine.Always (step platform)
        (fun f i => DuplicateForwarded platform f i ∧ LostForwarded platform f i)
        (start settings username configId capacity) arrivals ↔
      Machine.Always (step platform) (Unhindered platform)
        (start settings username configId capacity) arrivals := by
  have hstart := accounted_start settings username configId capacity
  constructor
  · intro h
    exact Machine.always_of_always _ Accounted (fun _ _ hf _ => accounted_step hf)
      (fun _ _ hf hi => (sound_iff hf).mp hi) hstart h
  · intro h
    exact Machine.always_of_always _ Accounted (fun _ _ hf _ => accounted_step hf)
      (fun _ _ hf hi => (sound_iff hf).mpr hi) hstart h

def plant : InstrumentalHealthSettings :=
  { topicPrefix := "traverse/instrumental/v1"
    tenantId := "default"
    siteId := "hdpe"
    allowedSourceIds := ["instr-prm-1"]
    maxSkewSeconds := 86400
    maxMessageBytes := 65536 }

def quiet : Platform :=
  { contract := { schemaErrors := fun _ _ => none, ticks := fun _ => some 0, formatF0 := fun _ => "0" }
    scalars := { serialize := fun s => "\"" ++ s ++ "\"", toJsonString := Json.asText } }

/-- A complete message of a device without a diagnostic. -/
def sampleObservation (kind observation : String) (sequence : ℤ)
    (change : List (String × Json)) : JsonObject :=
  Json.readFields ([("schema_version", .text "1.0"), ("message_kind", .text kind)] ++ change ++
    [("observation_id", .text observation), ("tenant_id", .text "default"),
      ("site_id", .text "hdpe"), ("producer_id", .text "instrumental-sim"),
      ("producer_epoch", .number (.integral 1)), ("sequence", .number (.integral sequence)),
      ("source_id", .text "instr-prm-1"), ("device_id", .text "TT-10302"),
      ("observed_at", .text "2026-09-16T11:58:00Z"), ("verified_at", .text "2026-09-16T11:59:30Z"),
      ("published_at", .text "2026-09-16T12:00:00Z"), ("state_revision", .number (.integral 1)),
      ("state_complete", .bool true), ("verification_kind", .text "UPSTREAM_DATABASE_POLL"),
      ("state", .object [("active_flags", .array []), ("native_status", .text "Good"),
        ("collection_state", .text "VERIFIED"), ("measurement_impact", .text "VALID"),
        ("diagnostics", .array [])])])

def earlyEvent : JsonObject :=
  sampleObservation "STATE_EVENT" "obs-1" 1 [("event_id", .text "evt-1"),
    ("change_kind", .text "STATE_RESYNC"), ("diagnostic_ids", .array [])]

def completeSnapshot : JsonObject := sampleObservation "STATE_SNAPSHOT" "obs-0" 0 []

def arrival (leaf : String) (o : JsonObject) : Arrival :=
  ⟨⟨"traverse/instrumental/v1/default/hdpe/devices/TT-10302/" ++ leaf, ⟨700, .object o⟩, false, 0⟩,
    true⟩

theorem observed_arrival {s : InstrumentalHealthSubscriber} {leaf : String} {o : JsonObject}
    (hs : s.settings = plant)
    (h : ((InstrumentalHealthSubscriber.new plant "instr-gw" "c" 0).observed quiet
      (arrival leaf o).message).isSome = true) :
    s.observed quiet (arrival leaf o).message = some o := by
  rw [@InstrumentalHealthSubscriber.observed_congr quiet s (arrival leaf o).message
    (InstrumentalHealthSubscriber.new plant "instr-gw" "c" 0) hs]
  obtain ⟨o', ho'⟩ := Option.isSome_iff_exists.mp h
  have hpayload := InstrumentalHealthSubscriber.payload_of_observed ho'
  rw [ho']
  injection hpayload with heq
  rw [heq]

theorem observed_event {s : InstrumentalHealthSubscriber} (hs : s.settings = plant) :
    s.observed quiet (arrival "events" earlyEvent).message = some earlyEvent :=
  observed_arrival hs (by decide +kernel)

theorem observed_snapshot {s : InstrumentalHealthSubscriber} (hs : s.settings = plant) :
    s.observed quiet (arrival "state" completeSnapshot).message = some completeSnapshot :=
  observed_arrival hs (by decide +kernel)

/-- An event is parked, the complete snapshot of its epoch is forwarded, and the event is delivered
again: it is answered as a duplicate although it was never forwarded. -/
theorem parked_event_lost : ¬ Machine.Always (step quiet)
    (fun f i => DuplicateForwarded quiet f i ∧ LostForwarded quiet f i)
    (start plant "instr-gw" "c" 50000)
    [arrival "events" earlyEvent, arrival "state" completeSnapshot,
      arrival "events" earlyEvent] := by
  rintro ⟨-, -, ⟨hduplicate, -⟩, -⟩
  generalize hf₀ : start plant "instr-gw" "c" 50000 = f₀ at hduplicate
  generalize hf₁ : (step quiet f₀ (arrival "events" earlyEvent)).1 = f₁ at hduplicate
  generalize hf₂ : (step quiet f₁ (arrival "state" completeSnapshot)).1 = f₂ at hduplicate
  have hsettings₀ : f₀.subscriber.settings = plant := by rw [← hf₀]; rfl
  have hsettings₁ : f₁.subscriber.settings = plant := by rw [← hf₁, settings_step, hsettings₀]
  have hsettings₂ : f₂.subscriber.settings = plant := by rw [← hf₂, settings_step, hsettings₁]
  have hempty : f₀.subscriber.dedupe.order = [] := by rw [← hf₀]; rfl
  have hcapacity₀ : f₀.subscriber.dedupe.capacity = 50000 := by rw [← hf₀]; rfl
  have hevent₀ := observed_event hsettings₀
  have hsnapshot₁ := observed_snapshot hsettings₁
  have hevent₂ := observed_event hsettings₂
  have hnew : f₀.subscriber.dedupe.get? (HealthDedupe.key earlyEvent) = none := by
    rw [HealthDedupe.get?, hempty]
    rfl
  have hheld₁ := remembered_of_new hevent₀ hnew (by rw [hempty, hcapacity₀]; decide)
  rw [hf₁] at hheld₁
  have hlength₁ : f₁.subscriber.dedupe.order.length ≤ 1 := by
    rw [← hf₁, dedupe_step hevent₀]
    refine le_trans HealthDedupe.length_check_le ?_
    rw [hempty]
    exact le_refl _
  have hcapacity₁ : f₁.subscriber.dedupe.capacity = 50000 := by
    rw [← hf₁, dedupe_step hevent₀, HealthDedupe.capacity_check, hcapacity₀]
  have hheld₂ := remembered_step hsnapshot₁ (by rw [hcapacity₁]; omega) hheld₁
  rw [hf₂] at hheld₂
  obtain ⟨o, ho, d, hd, hkey, -, hforwarded, -⟩ := hduplicate ((duplicate_iff hevent₂).mpr hheld₂)
  obtain rfl : earlyEvent = o := Option.some.inj (hevent₂.symm.trans ho)
  rw [← hf₂, deliveries_step hsnapshot₁, ← hf₁, deliveries_step hevent₀] at hd
  have hnone : f₀.deliveries = [] := by rw [← hf₀]; rfl
  rw [hnone, List.nil_append, List.mem_append, List.mem_singleton, List.mem_singleton] at hd
  rcases hd with rfl | rfl
  · have hpark : (f₀.subscriber.epochs.check earlyEvent).2.action = .park := by
      rw [← hf₀]
      decide
    obtain ⟨key, refusal, houtcome⟩ := parked_of_new hevent₀ hnew hpark
    obtain ⟨key', record, hforward⟩ := hforwarded
    rw [houtcome] at hforward
    exact absurd hforward (by simp)
  · have hdiffer : HealthDedupe.key completeSnapshot ≠ HealthDedupe.key earlyEvent := by
      decide
    exact hdiffer hkey

end HealthFeed

end OpenBridge.HealthGateway
