import OpenBridge.Foundation.RecordJson

/-!
# Feature topics: the parts of a long record

The limit and freeze episodes of `LimitMath`, the peer analysis of `InteractionSummary` and the
verdicts of `MethodEligibility`, each with its node and the round trip.
-/

namespace OpenBridge.FeatureTopic

open OpenBridge.Foundation

theorem map_read_write {α : Type} {write : α → Json} {read : Json → α} {as : List α}
    (h : ∀ a ∈ as, read (write a) = a) : (as.map write).map read = as := by
  rw [List.map_map]
  exact (List.map_congr_left h).trans (List.map_id as)

/-! ## Episodes -/

@[ext]
structure DwellEvent where
  startMs : ℤ
  endMs : ℤ
  durationS : F64
  side : String
  samples : ℤ

namespace DwellEvent

structure Finite (e : DwellEvent) : Prop where
  startMs : FieldKind.long.Holds e.startMs
  endMs : FieldKind.long.Holds e.endMs
  durationS : FieldKind.double.Holds e.durationS
  samples : FieldKind.int.Holds e.samples

/-- An element of `dwell_events`. -/
def write (e : DwellEvent) : Json :=
  .object [("start_ms", .number (.integral e.startMs)), ("end_ms", .number (.integral e.endMs)),
    ("duration_s", Json.ofF64 e.durationS), ("side", .text e.side),
    ("samples", .number (.integral e.samples))]

/-- An element of `dwell_events`, read. -/
def read (j : Json) : DwellEvent :=
  { startMs := (j.get "start_ms").asLong 0
    endMs := (j.get "end_ms").asLong 0
    durationS := (j.get "duration_s").asF64 (F64.ofInt 0)
    side := (j.get "side").asText ""
    samples := (j.get "samples").asInt 0 }

theorem read_write {e : DwellEvent} (h : e.Finite) : read e.write = e := by
  unfold read write
  simp only [Json.get_object, List.reverse_cons, List.reverse_nil, List.nil_append, List.cons_append,
    List.lookup_cons, String.reduceBEq]
  exact DwellEvent.ext (FieldKind.read_write .long h.startMs (0 : ℤ))
    (FieldKind.read_write .long h.endMs (0 : ℤ)) (JsonNode.asF64_ofF64 h.durationS _) rfl
    (FieldKind.read_write .int h.samples (0 : ℤ))

end DwellEvent

@[ext]
structure FreezeEvent where
  startMs : ℤ
  endMs : ℤ
  durationS : F64
  samples : ℤ

namespace FreezeEvent

structure Finite (e : FreezeEvent) : Prop where
  startMs : FieldKind.long.Holds e.startMs
  endMs : FieldKind.long.Holds e.endMs
  durationS : FieldKind.double.Holds e.durationS
  samples : FieldKind.int.Holds e.samples

/-- An element of `freeze_events`. -/
def write (e : FreezeEvent) : Json :=
  .object [("start_ms", .number (.integral e.startMs)), ("end_ms", .number (.integral e.endMs)),
    ("duration_s", Json.ofF64 e.durationS), ("samples", .number (.integral e.samples))]

/-- An element of `freeze_events`, read. -/
def read (j : Json) : FreezeEvent :=
  { startMs := (j.get "start_ms").asLong 0
    endMs := (j.get "end_ms").asLong 0
    durationS := (j.get "duration_s").asF64 (F64.ofInt 0)
    samples := (j.get "samples").asInt 0 }

theorem read_write {e : FreezeEvent} (h : e.Finite) : read e.write = e := by
  unfold read write
  simp only [Json.get_object, List.reverse_cons, List.reverse_nil, List.nil_append, List.cons_append,
    List.lookup_cons, String.reduceBEq]
  exact FreezeEvent.ext (FieldKind.read_write .long h.startMs (0 : ℤ))
    (FieldKind.read_write .long h.endMs (0 : ℤ)) (JsonNode.asF64_ofF64 h.durationS _)
    (FieldKind.read_write .int h.samples (0 : ℤ))

end FreezeEvent

/-! ## The peer analysis -/

def putFinite (a : F64) : Json := if F64.notFinite a then .null else Json.ofF64 a

def readFinite (n : JsonNode) : F64 :=
  if n.any Json.isNumber then n.asF64 (F64.ofInt 0) else none

theorem readFinite_putFinite {a : F64} (h : a = none ∨ a.IsFinite) :
    readFinite (some (putFinite a)) = a := by
  rcases h with rfl | ⟨q, rfl, hq⟩
  · rfl
  · exact JsonNode.asF64_ofF64 ⟨q, rfl, hq⟩ (F64.ofInt 0)

@[ext]
structure PeerRow where
  peerId : String
  state : String
  associated : Bool
  lagS : F64
  peakXcorr : F64
  coherenceBandMax : F64
  supportS : F64
  direction : String

namespace PeerRow

structure Finite (p : PeerRow) : Prop where
  lagS : p.lagS = none ∨ p.lagS.IsFinite
  peakXcorr : p.peakXcorr = none ∨ p.peakXcorr.IsFinite
  coherenceBandMax : p.coherenceBandMax = none ∨ p.coherenceBandMax.IsFinite
  supportS : p.supportS.IsFinite

/-- An element of `peers`. -/
def write (p : PeerRow) : Json :=
  .object [("peer_id", .text p.peerId), ("state", .text p.state), ("associated", .bool p.associated),
    ("lag_s", putFinite p.lagS), ("peak_xcorr", putFinite p.peakXcorr),
    ("coherence_band_max", putFinite p.coherenceBandMax), ("support_s", Json.ofF64 p.supportS),
    ("direction", .text p.direction)]

/-- An element of `peers`, read. -/
def read (j : Json) : PeerRow :=
  { peerId := (j.get "peer_id").asText ""
    state := (j.get "state").asText "PEER_UNOBSERVED"
    associated := (j.get "associated").asBoolean false
    lagS := readFinite (j.get "lag_s")
    peakXcorr := readFinite (j.get "peak_xcorr")
    coherenceBandMax := readFinite (j.get "coherence_band_max")
    supportS := (j.get "support_s").asF64 (F64.ofInt 0)
    direction := (j.get "direction").asText "NONE" }

theorem read_write {p : PeerRow} (h : p.Finite) : read p.write = p := by
  unfold read write
  simp only [Json.get_object, List.reverse_cons, List.reverse_nil, List.nil_append, List.cons_append,
    List.lookup_cons, String.reduceBEq]
  exact PeerRow.ext rfl rfl rfl (readFinite_putFinite h.lagS) (readFinite_putFinite h.peakXcorr)
    (readFinite_putFinite h.coherenceBandMax) (JsonNode.asF64_ofF64 h.supportS _) rfl

end PeerRow

@[ext]
structure InteractionSummary where
  methodId : String
  state : String
  reason : String
  bandLowHz : F64
  bandHighHz : F64
  peers : List PeerRow
  alternativeExplanations : List String
  relationshipRevision : ℤ

namespace InteractionSummary

/-- `InteractionMath.METHOD_ID`. -/
def defaultMethodId : String := "G13.ALIGNED_PEER_ANALYSIS_V1"

structure Finite (s : InteractionSummary) : Prop where
  bandLowHz : s.bandLowHz.IsFinite
  bandHighHz : s.bandHighHz.IsFinite
  peers : ∀ p ∈ s.peers, p.Finite
  relationshipRevision : FieldKind.long.Holds s.relationshipRevision

def write (s : InteractionSummary) : Json :=
  .object [("method_id", .text s.methodId), ("state", .text s.state), ("reason", .text s.reason),
    ("band_low_hz", Json.ofF64 s.bandLowHz), ("band_high_hz", Json.ofF64 s.bandHighHz),
    ("relationship_revision", .number (.integral s.relationshipRevision)),
    ("peers", .array (s.peers.map PeerRow.write)),
    ("alternative_explanations", .array (s.alternativeExplanations.map Json.text))]

/-- `read`: none where the node is no object. -/
def read (node : JsonNode) : Option InteractionSummary :=
  (node.filter Json.isObject).map fun j =>
    { methodId := (j.get "method_id").asText defaultMethodId
      state := (j.get "state").asText "NOT_CONFIGURED"
      reason := (j.get "reason").asText ""
      bandLowHz := (j.get "band_low_hz").asF64 (F64.ofInt 0)
      bandHighHz := (j.get "band_high_hz").asF64 (F64.ofInt 0)
      peers := (j.get "peers").elements.map PeerRow.read
      alternativeExplanations := (j.get "alternative_explanations").elements.map Json.asText
      relationshipRevision := (j.get "relationship_revision").asLong 0 }

theorem read_write {s : InteractionSummary} (h : s.Finite) : read (some s.write) = some s := by
  have hpeers : (s.peers.map PeerRow.write).map PeerRow.read = s.peers :=
    map_read_write fun p hp => PeerRow.read_write (h.peers p hp)
  have htexts : (s.alternativeExplanations.map Json.text).map Json.asText =
      s.alternativeExplanations := map_read_write fun _ _ => rfl
  unfold read
  rw [Option.filter_some, if_pos (by rfl), Option.map_some]
  unfold write
  simp only [Json.get_object, List.reverse_cons, List.reverse_nil, List.nil_append, List.cons_append,
    List.lookup_cons, String.reduceBEq]
  exact congrArg some (InteractionSummary.ext rfl rfl rfl (JsonNode.asF64_ofF64 h.bandLowHz _)
    (JsonNode.asF64_ofF64 h.bandHighHz _) hpeers htexts
    (FieldKind.read_write .long h.relationshipRevision (0 : ℤ)))

end InteractionSummary

/-! ## The eligibility of methods -/

structure Verdict where
  state : String
  reason : String
  detail : String

namespace MethodEligibility

def writeVerdict (v : Verdict) : Json :=
  .object [("state", .text v.state), ("reason", .text v.reason), ("detail", .text v.detail)]

def readVerdict (j : Json) : Verdict :=
  { state := (j.get "state").asText "UNKNOWN"
    reason := (j.get "reason").asText ""
    detail := (j.get "detail").asText "" }

theorem readVerdict_writeVerdict (v : Verdict) : readVerdict (writeVerdict v) = v := by
  unfold readVerdict writeVerdict
  simp only [Json.get_object, List.reverse_cons, List.reverse_nil, List.nil_append, List.cons_append,
    List.lookup_cons, String.reduceBEq]
  rfl

def write (v : Dict String Verdict) : Json := .object (v.mapValues writeVerdict).entries

def read (node : JsonNode) : Dict String Verdict :=
  ((node.filter Json.isObject).getD .null).fields.mapValues readVerdict

theorem read_write (v : Dict String Verdict) : read (some (write v)) = v := by
  have hfields : (write v).fields = v.mapValues writeVerdict := Json.fields_object _
  unfold read
  rw [Option.filter_some, if_pos (by rfl), Option.getD_some, hfields]
  refine Dict.ext ?_
  rw [Dict.entries_mapValues, Dict.entries_mapValues, List.map_map]
  have hid : ∀ e ∈ v.entries, (e.1, readVerdict (writeVerdict e.2)) = e := by
    intro e _
    rw [readVerdict_writeVerdict]
  exact (List.map_congr_left hid).trans (List.map_id _)

end MethodEligibility

end OpenBridge.FeatureTopic
