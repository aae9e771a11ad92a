import OpenBridge.Foundation.Json
import OpenBridge.InstrumentHealth.HealthEligibilityPolicy

/-!
# Instrument health: reading an observation

`HealthObservation.fromJson`, from the `observation` object of a forwarded record.
-/

namespace OpenBridge.InstrumentHealth

open OpenBridge.Foundation

abbrev JsonObject := Dict String Json

namespace HealthObservation

variable (instantMs : String → ℤ)

/-- `ts`, with the milliseconds of an instant, or zero, as `Instant.parse` gives them. -/
def ts (n : JsonNode) : ℤ :=
  match n.nullableText with
  | none => 0
  | some iso => if iso = "" then 0 else instantMs iso

def readDiagnostic (d : Json) : Diagnostic :=
  { diagnosticId := JsonNode.asText (d.get "diagnostic_id") ""
    affectedVariableIds := (JsonNode.elements (d.get "affected_variable_ids")).map Json.asText }

def fromJson (o : JsonObject) : HealthObservation :=
  let kind := JsonNode.asText (o.get? "message_kind") ""
  let common : HealthObservation :=
    { tenantId := JsonNode.asText (o.get? "tenant_id") ""
      site := JsonNode.asText (o.get? "site_id") ""
      sourceId := JsonNode.asText (o.get? "source_id") ""
      deviceId := JsonNode.asText (o.get? "device_id") ""
      messageKind := kind
      observationId := JsonNode.asText (o.get? "observation_id") ""
      producerEpoch := JsonNode.asLong (o.get? "producer_epoch") 0
      sequence := JsonNode.asLong (o.get? "sequence") 0
      stateComplete := JsonNode.asBoolean (o.get? "state_complete") false
      observedAtMs := ts instantMs (o.get? "observed_at")
      verifiedAtMs := ts instantMs (o.get? "verified_at")
      scanIntervalS := JsonNode.asDouble (o.get? "scan_interval_s") (.finite 0) }
  if kind = "SOURCE_AVAILABILITY" then
    { common with
      availabilityState := some (JsonNode.asText (o.get? "state") "UNKNOWN")
      sinceMs := ts instantMs (o.get? "since") }
  else
    let st : JsonNode := o.get? "state"
    { common with
      activeFlags := (JsonNode.elements (st.path "active_flags")).map Json.asText
      nativeStatus := JsonNode.asText (st.path "native_status") ""
      collectionState := JsonNode.asText (st.path "collection_state") "UNKNOWN"
      measurementImpact := JsonNode.asText (st.path "measurement_impact") "UNKNOWN"
      diagnostics := (JsonNode.elements (st.path "diagnostics")).map readDiagnostic
      changeKind := JsonNode.nullableText (o.get? "change_kind") }

variable (o : JsonObject)

@[simp] theorem deviceKey_fromJson : (fromJson instantMs o).deviceKey =
    JsonNode.asText (o.get? "tenant_id") "" ++ "|" ++ JsonNode.asText (o.get? "site_id") "" ++ "|" ++
      JsonNode.asText (o.get? "device_id") "" := by
  simp only [fromJson, deviceKey]
  split <;> rfl

@[simp] theorem messageKind_fromJson :
    (fromJson instantMs o).messageKind = JsonNode.asText (o.get? "message_kind") "" := by
  simp only [fromJson]
  split <;> rfl

@[simp] theorem producerEpoch_fromJson :
    (fromJson instantMs o).producerEpoch = JsonNode.asLong (o.get? "producer_epoch") 0 := by
  simp only [fromJson]
  split <;> rfl

@[simp] theorem sequence_fromJson :
    (fromJson instantMs o).sequence = JsonNode.asLong (o.get? "sequence") 0 := by
  simp only [fromJson]
  split <;> rfl

@[simp] theorem stateComplete_fromJson :
    (fromJson instantMs o).stateComplete = JsonNode.asBoolean (o.get? "state_complete") false := by
  simp only [fromJson]
  split <;> rfl

end HealthObservation

end OpenBridge.InstrumentHealth

/-!
# Health gateway: the epoch and sequence discipline

The readers of `InstrumentalHealthValidator` and the `EpochTracker`.
-/

namespace OpenBridge.HealthGateway

open OpenBridge.Foundation
open OpenBridge.InstrumentHealth (JsonObject)

def str (o : JsonObject) (name : String) : Option String :=
  match o.get? name with
  | some (.text s) => some s
  | _ => none

def long (o : JsonObject) (name : String) : Option ℤ :=
  match o.get? name with
  | some (.number n) => n.tryGetInt64
  | _ => none

def bool (o : JsonObject) (name : String) : Option Bool :=
  match o.get? name with
  | some (.bool b) => some b
  | _ => none

inductive SequenceAction where
  | accept | park | flag
  deriving DecidableEq

structure SequenceVerdict where
  action : SequenceAction
  reason : Option String
  deriving DecidableEq

structure DeviceState where
  epoch : ℤ
  lastSeq : ℤ
  snapshotSeen : Bool
  deriving DecidableEq

structure Claimed where
  device : String
  epoch : ℤ
  sequence : ℤ
  snapshot : Bool
  complete : Bool
  deriving DecidableEq

/-- The fields of a message that `Check` reads. -/
def Claimed.read (o : JsonObject) : Claimed :=
  { device := (str o "tenant_id").getD "" ++ "|" ++ (str o "site_id").getD "" ++ "|" ++
      (str o "device_id").getD ""
    epoch := (long o "producer_epoch").getD 0
    sequence := (long o "sequence").getD 0
    snapshot := str o "message_kind" = some "STATE_SNAPSHOT"
    complete := (bool o "state_complete").getD false }

abbrev EpochTracker := Dict String DeviceState

namespace EpochTracker

def verdict (d : Option DeviceState) (c : Claimed) : Option DeviceState × SequenceVerdict :=
  match d with
  | none =>
      if ¬ c.snapshot ∨ ¬ c.complete then (none, ⟨.park, some "EPOCH_WITHOUT_SNAPSHOT"⟩)
      else (some ⟨c.epoch, c.sequence, true⟩, ⟨.accept, none⟩)
  | some d =>
      if d.epoch < c.epoch then
        if ¬ c.snapshot ∨ ¬ c.complete then (none, ⟨.park, some "EPOCH_WITHOUT_SNAPSHOT"⟩)
        else (some ⟨c.epoch, c.sequence, true⟩, ⟨.accept, none⟩)
      else if c.epoch < d.epoch then (none, ⟨.flag, some "STALE_EPOCH"⟩)
      else if c.sequence ≤ d.lastSeq then (none, ⟨.flag, some "SEQUENCE_REGRESSION"⟩)
      else (some { d with
          lastSeq := c.sequence
          snapshotSeen := d.snapshotSeen || (c.snapshot && c.complete) }, ⟨.accept, none⟩)

def check (t : EpochTracker) (o : JsonObject) : EpochTracker × SequenceVerdict :=
  let c := Claimed.read o
  let decided := verdict (t.get? c.device) c
  (match decided.1 with
    | none => t
    | some d => t.set c.device d, decided.2)

theorem verdict_cases (d : Option DeviceState) (c : Claimed) :
    ((verdict d c).2.action ≠ .accept ∧ (verdict d c).1 = none) ∨
    ((verdict d c).2.action = .accept ∧ ∃ d', (verdict d c).1 = some d' ∧ d'.epoch = c.epoch ∧
      d'.lastSeq = c.sequence ∧
      ((c.snapshot = true ∧ c.complete = true ∧ ∀ e, d = some e → e.epoch < c.epoch) ∨
        ∃ e, d = some e ∧ e.epoch = c.epoch ∧ e.lastSeq < c.sequence)) := by
  cases d with
  | none =>
    rw [verdict]
    by_cases hpark : ¬ c.snapshot = true ∨ ¬ c.complete = true
    · rw [if_pos hpark]
      exact Or.inl ⟨by simp, rfl⟩
    · rw [if_neg hpark]
      push Not at hpark
      exact Or.inr ⟨rfl, _, rfl, rfl, rfl, Or.inl ⟨hpark.1, hpark.2, fun e he => by cases he⟩⟩
  | some d =>
    rw [verdict]
    by_cases hnewer : d.epoch < c.epoch
    · rw [if_pos hnewer]
      by_cases hpark : ¬ c.snapshot = true ∨ ¬ c.complete = true
      · rw [if_pos hpark]
        exact Or.inl ⟨by simp, rfl⟩
      · rw [if_neg hpark]
        push Not at hpark
        refine Or.inr ⟨rfl, _, rfl, rfl, rfl, Or.inl ⟨hpark.1, hpark.2, fun e he => ?_⟩⟩
        obtain rfl := Option.some.inj he
        exact hnewer
    · rw [if_neg hnewer]
      by_cases hstale : c.epoch < d.epoch
      · rw [if_pos hstale]
        exact Or.inl ⟨by simp, rfl⟩
      · rw [if_neg hstale]
        by_cases hseq : c.sequence ≤ d.lastSeq
        · rw [if_pos hseq]
          exact Or.inl ⟨by simp, rfl⟩
        · rw [if_neg hseq]
          have hepoch : d.epoch = c.epoch := by omega
          exact Or.inr ⟨rfl, _, rfl, hepoch, rfl, Or.inr ⟨d, rfl, hepoch, by omega⟩⟩

variable {t : EpochTracker} {o : JsonObject}

theorem check_of_not_accept (h : (check t o).2.action ≠ .accept) : (check t o).1 = t := by
  rw [check] at h ⊢
  rcases verdict_cases (t.get? (Claimed.read o).device) (Claimed.read o) with
    ⟨-, hnone⟩ | ⟨haccept, -⟩
  · simp only [hnone]
  · exact absurd haccept h

theorem reason_of_park (h : (check t o).2.action = .park) :
    (check t o).2.reason = some "EPOCH_WITHOUT_SNAPSHOT" := by
  simp only [check, verdict] at h ⊢
  split at h
  · split at h
    · rename_i hpark
      rw [if_pos hpark]
    · exact absurd h (by simp)
  · split_ifs at h ⊢
    rfl

theorem check_of_accept (h : (check t o).2.action = .accept) :
    ∃ d, d.epoch = (Claimed.read o).epoch ∧ d.lastSeq = (Claimed.read o).sequence ∧
      (check t o).1 = t.set (Claimed.read o).device d ∧
      (((Claimed.read o).snapshot = true ∧ (Claimed.read o).complete = true ∧
          ∀ e, t.get? (Claimed.read o).device = some e → e.epoch < (Claimed.read o).epoch) ∨
        ∃ e, t.get? (Claimed.read o).device = some e ∧ e.epoch = (Claimed.read o).epoch ∧
          e.lastSeq < (Claimed.read o).sequence) := by
  rcases verdict_cases (t.get? (Claimed.read o).device) (Claimed.read o) with
    ⟨hnot, -⟩ | ⟨-, d, hd, hepoch, hseq, hcases⟩
  · exact absurd h hnot
  · exact ⟨d, hepoch, hseq, by simp only [check, hd], hcases⟩

end EpochTracker

end OpenBridge.HealthGateway
