import OpenBridge.Foundation.EffectiveDating
import OpenBridge.Foundation.FirstsBy
import OpenBridge.Foundation.Guid
import OpenBridge.GateConfig.BundleProfileMapper
import OpenBridge.GateConfig.CanonicalJson
import OpenBridge.Samples.CplmNormalizedSample

/-!
# Identity: the content hash of a profile

`ProfileHash.of`: the hash of the bundle that governs a profile, or else a content hash of the
values of the profile: the lines of its fields in the order of their names, without the bundle's own
fields and the provenance.  The fields a bundle can set are those of the profile; what the class pack
and the registry alone decide is carried as names and texts.
-/

namespace OpenBridge.Identity

open OpenBridge.Foundation
open OpenBridge.GateConfig

/-- A resolved profile as a whole: what a bundle reads or sets, and the name and the text of every
other field that is a value of the profile. -/
structure ResolvedProfile where
  profile : CplmLoopDynamicsProfile
  others : List (String × String)

namespace ProfileHash

/-- `PREFIX`. -/
def profilePrefix : String := "profile:"

def legacy : String := "legacy"

/-- The public fields that a bundle can set, under the source's names. -/
def fieldNames : List (ProfileField × String) := [
  (.g0CoverageMin, "g0CoverageMin"),
  (.g0BadFractionMax, "g0BadFractionMax"),
  (.g1AutoFractionMin, "g1AutoFractionMin"),
  (.spStabilityBandPvEu, "spStabilityBandPvEu"),
  (.spStabilityBandSpanFraction, "spStabilityBandSpanFraction"),
  (.regionPvMin, "regionPvMin"),
  (.regionPvMax, "regionPvMax"),
  (.regionOpMin, "regionOpMin"),
  (.regionOpMax, "regionOpMax"),
  (.goodErrorBandPctOfSpan, "goodErrorBandPctOfSpan"),
  (.goodErrorPctPassMin, "goodErrorPctPassMin"),
  (.g4ActivityWarnRatio, "g4ActivityWarnRatio"),
  (.g4ActivityHighRatio, "g4ActivityHighRatio"),
  (.opDeadbandPct, "opDeadbandPct"),
  (.tauMinS, "tauMinS"),
  (.tauMaxS, "tauMaxS"),
  (.minValidCycles, "minValidCycles"),
  (.minSamplesPerPeriod, "minSamplesPerPeriod"),
  (.acfRegularityMin, "acfRegularityMin"),
  (.fftPeakToMedianMin, "fftPeakToMedianMin"),
  (.g6SegmentSamples, "g6SegmentSamples"),
  (.g6OverlapFraction, "g6OverlapFraction"),
  (.shapeRole, "shapeRole"),
  (.g7ShapeScoreHigh, "g7ShapeScoreHigh"),
  (.g8AsymmetryDisplayThreshold, "g8AsymmetryDisplayThreshold"),
  (.horchRole, "horchRole"),
  (.geometryRole, "geometryRole"),
  (.phaseAreaPerCycleLo, "phaseAreaPerCycleLo"),
  (.phaseAreaPerCycleHi, "phaseAreaPerCycleHi"),
  (.cornerAngleDeg, "cornerAngleDeg"),
  (.opTravelFloorPct, "opTravelFloorPct"),
  (.priorGeometry, "priorGeometry"),
  (.saturationRole, "saturationRole"),
  (.limitTolerancePp, "limitTolerancePp"),
  (.limitDwellWarnS, "limitDwellWarnS"),
  (.satWarnOccupancy, "satWarnOccupancy"),
  (.nonfollowingErrorPp, "nonfollowingErrorPp"),
  (.nonfollowingDwellS, "nonfollowingDwellS"),
  (.freezeToleranceEu, "freezeToleranceEu"),
  (.freezeDwellS, "freezeDwellS"),
  (.vpMaxAgeS, "vpMaxAgeS"),
  (.g13LagMaxS, "g13LagMaxS"),
  (.g13CoherenceMin, "g13CoherenceMin"),
  (.g13MinCompatibleSupportS, "g13MinCompatibleSupportS"),
  (.g13MaxPeers, "g13MaxPeers"),
  (.recoverySupportS, "recoverySupportS"),
  (.minNonGeometryEvidences, "minNonGeometryEvidences"),
  (.persistenceWindows, "persistenceWindows")]

def roleName : GateRole → String
  | .blocking => "BLOCKING"
  | .primary => "PRIMARY"
  | .supporting => "SUPPORTING"
  | .displayOnly => "DISPLAY_ONLY"

def intText (n : ℤ) : String := toString n

/-- `String.valueOf` of a value. -/
def valueText : (k : ProfileField.Kind) → k.Value → String
  | .number, none => "null"
  | .number, some d => javaText d
  | .integer, n => intText n
  | .role, r => roleName r

def fields (p : ResolvedProfile) : List (String × String) :=
  fieldNames.map (fun f => (f.2, valueText f.1.kind (p.profile.values f.1))) ++
    ("gateProfileId", p.profile.gateProfileId.getD "null") :: p.others

def text (p : ResolvedProfile) : String :=
  String.join (((fields p).insertionSort fun a b => CanonicalJson.keyLe a.1 b.1 = true).map
    fun f => f.1 ++ "=" ++ f.2 ++ "\n")

def sha256Prefix (text : String) (hexChars : ℕ) : String :=
  String.ofList ((CanonicalJson.sha256Hex text).toList.take hexChars)

/-- `of`: the bundle's hash, or else the hash of the values. -/
def of : Option ResolvedProfile → String
  | none => legacy
  | some p =>
      match p.profile.bundleHash.filter (· ≠ "") with
      | some hash => hash
      | none => profilePrefix ++ sha256Prefix (text p) 16

/-! ## Governed and ungoverned profiles -/

variable {p : ResolvedProfile}

theorem of_governed {hash : String} (h : p.profile.bundleHash = some hash) (hne : hash ≠ "") :
    of (some p) = hash := by
  simp [of, h, Option.filter, hne]

theorem of_ungoverned (h : p.profile.bundleHash = none) :
    of (some p) = profilePrefix ++ sha256Prefix (text p) 16 := by
  simp [of, h]

theorem length_sha256Hex (text : String) : (CanonicalJson.sha256Hex text).length = 64 := by
  unfold CanonicalJson.sha256Hex
  rw [Sha256.length_hex, Sha256.length_digest]

theorem length_of_ungoverned (h : p.profile.bundleHash = none) : (of (some p)).length = 24 := by
  have h64 : (CanonicalJson.sha256Hex (text p)).toList.length = 64 := length_sha256Hex (text p)
  rw [of_ungoverned h, String.length_append, sha256Prefix, String.length_ofList, List.length_take,
    h64]
  rfl

theorem of_ne_sha256Hex (h : p.profile.bundleHash = none) (content : String) :
    of (some p) ≠ CanonicalJson.sha256Hex content := by
  intro heq
  have hlength := length_of_ungoverned h
  rw [heq, length_sha256Hex] at hlength
  omega

end ProfileHash

/-!
# Identity: the profile of a window

`SignalMath.latestResolvedProfile`: a window is evaluated under the profile that rides on its newest
sample.
-/

open OpenBridge.Samples

structure AttachedSample where
  sample : CplmNormalizedSample
  resolvedProfile : Option ResolvedProfile

def AttachedSample.eventTsMs (s : AttachedSample) : ℤ := s.sample.eventTsMs

namespace SignalMath

/-- `firstNonBlank`: the first value that is not blank. -/
def firstNonBlank (primary fallback : List AttachedSample)
    (getter : CplmNormalizedSample → Option String) : Option String :=
  (primary ++ fallback).findSome? fun s => (getter s.sample).filter fun v => javaTrim v ≠ ""

/-- `filterHalfOpen`: the samples of `[start, end)` in event-time order, one for each time. -/
def filterHalfOpen (raw : List AttachedSample) (windowStartMs windowEndMs : ℤ) :
    List AttachedSample :=
  firstsBy AttachedSample.eventTsMs
    ((raw.filter fun s => windowStartMs ≤ s.eventTsMs ∧ s.eventTsMs < windowEndMs).insertionSort
      fun a b => a.eventTsMs ≤ b.eventTsMs)

/-- One sample of the walk: a profile that is not older replaces the best so far. -/
def newerProfile (best : Option (ResolvedProfile × ℤ)) (s : AttachedSample) :
    Option (ResolvedProfile × ℤ) :=
  match s.resolvedProfile with
  | none => best
  | some p => if best.all fun b => b.2 ≤ s.eventTsMs then some (p, s.eventTsMs) else best

/-- `latestResolvedProfile`: the profile of the newest sample that carries one. -/
def latestResolvedProfile (primary fallback : List AttachedSample) : Option ResolvedProfile :=
  ((primary ++ fallback).foldl newerProfile none).map Prod.fst

def newest (samples : List AttachedSample) (before : ℤ) : Option AttachedSample :=
  EffectiveDating.latest AttachedSample.eventTsMs before samples

/-! ## The walk is the search for the newest sample -/

variable {samples : List AttachedSample} {start stop : ℤ} {s : AttachedSample}

theorem mem_of_mem_filterHalfOpen (h : s ∈ filterHalfOpen samples start stop) : s ∈ samples := by
  have hsorted := mem_of_mem_firstsFrom h
  rw [List.mem_insertionSort] at hsorted
  exact (List.mem_filter.mp hsorted).1

theorem filterHalfOpen_ne_nil (hne : samples ≠ [])
    (hinside : ∀ s ∈ samples, start ≤ s.eventTsMs ∧ s.eventTsMs < stop) :
    filterHalfOpen samples start stop ≠ [] := by
  obtain ⟨x, hx⟩ := List.exists_mem_of_ne_nil _ hne
  have hfiltered : x ∈ (samples.filter fun s =>
      start ≤ s.eventTsMs ∧ s.eventTsMs < stop).insertionSort
        fun a b => a.eventTsMs ≤ b.eventTsMs := by
    rw [List.mem_insertionSort]
    exact List.mem_filter.mpr ⟨hx, decide_eq_true (hinside x hx)⟩
  have hkey : x.eventTsMs ∈
      (filterHalfOpen samples start stop).map AttachedSample.eventTsMs :=
    mem_map_firstsFrom.mpr ⟨List.mem_map_of_mem hfiltered, List.not_mem_nil⟩
  intro hnil
  rw [hnil] at hkey
  exact absurd hkey List.not_mem_nil

theorem foldl_newerProfile (hall : ∀ s ∈ samples, ∃ p, s.resolvedProfile = some p)
    (hbefore : ∀ s ∈ samples, s.eventTsMs ≤ stop) :
    samples.foldl newerProfile none = (newest samples stop).bind fun s =>
      s.resolvedProfile.map fun p => (p, s.eventTsMs) := by
  induction samples using List.reverseRecOn with
  | nil => rfl
  | append_singleton samples s ih =>
    rw [List.foldl_concat, ih (fun x hx => hall x (by simp [hx]))
      (fun x hx => hbefore x (by simp [hx]))]
    obtain ⟨p, hp⟩ := hall s (by simp)
    have hle : ¬ stop < s.eventTsMs := not_lt.mpr (hbefore s (by simp))
    simp only [newest, EffectiveDating.latest_concat, EffectiveDating.newer, if_neg hle,
      newerProfile, hp]
    rcases Option.eq_none_or_eq_some
      (EffectiveDating.latest AttachedSample.eventTsMs stop samples) with hbest | ⟨b, hbest⟩
    · simp [hbest, hp]
    · obtain ⟨q, hq⟩ := hall b (by simp [(EffectiveDating.latest_mem hbest).1])
      by_cases hlt : b.eventTsMs ≤ s.eventTsMs
      · simp [hbest, hq, hlt, hp]
      · simp [hbest, hq, hlt]

theorem newest_append_of_subset {front : List AttachedSample} (h : ∀ s ∈ front, s ∈ samples) :
    newest (front ++ samples) stop = newest samples stop := by
  unfold newest
  cases hn : EffectiveDating.latest AttachedSample.eventTsMs stop samples with
  | none =>
    rw [EffectiveDating.latest_eq_none_iff] at hn ⊢
    intro x hx
    rcases List.mem_append.mp hx with hx | hx
    · exact hn x (h x hx)
    · exact hn x hx
  | some a =>
    obtain ⟨pre, post, rfl, hle, hpre, hpost⟩ := EffectiveDating.latest_eq_some_iff.mp hn
    refine EffectiveDating.latest_eq_some_iff.mpr ⟨front ++ pre, post, by simp, hle, ?_, hpost⟩
    intro x hx hxt
    rcases List.mem_append.mp hx with hx | hx
    · rcases List.mem_append.mp (h x hx) with hx | hx
      · exact hpre x hx hxt
      · rcases List.mem_cons.mp hx with rfl | hx
        · exact le_refl _
        · exact le_of_lt (hpost x hx hxt)
    · exact hpre x hx hxt

theorem latestResolvedProfile_eq {front : List AttachedSample} (hfront : ∀ s ∈ front, s ∈ samples)
    (hall : ∀ s ∈ samples, ∃ p, s.resolvedProfile = some p)
    (hbefore : ∀ s ∈ samples, s.eventTsMs ≤ stop) :
    latestResolvedProfile front samples =
      (newest samples stop).bind AttachedSample.resolvedProfile := by
  have hmem : ∀ s ∈ front ++ samples, s ∈ samples := by
    intro s hs
    rcases List.mem_append.mp hs with hs | hs
    · exact hfront s hs
    · exact hs
  unfold latestResolvedProfile
  rw [foldl_newerProfile (fun s hs => hall s (hmem s hs)) (fun s hs => hbefore s (hmem s hs)),
    newest_append_of_subset hfront]
  cases newest samples stop with
  | none => rfl
  | some s => cases hp : s.resolvedProfile <;> simp [hp]

theorem exists_newest (hne : samples ≠ []) (hbefore : ∀ s ∈ samples, s.eventTsMs ≤ stop) :
    ∃ s, newest samples stop = some s := by
  obtain ⟨x, hx⟩ := List.exists_mem_of_ne_nil _ hne
  cases hn : newest samples stop with
  | none => exact absurd (EffectiveDating.latest_eq_none_iff.mp hn x hx) (not_lt.mpr (hbefore x hx))
  | some s => exact ⟨s, rfl⟩

end SignalMath

/-!
# Identity: method runs and data sets

`RunIdentity.methodRunId`: a name-based identifier over the loop, the gate and its installed method,
the window, the bundle hash and the two revisions.  `DatasetHash.of`: the digest of the accepted
samples in event-time order.
-/

namespace GateMethodCatalog

/-- `METHODS`: the installed method behind each gate and its version, in evaluation order. -/
def methods : List (String × String × String) := [
  ("G0", "G0.DATA_QUALIFICATION", "1.1"),
  ("G1", "G1.MODE_AUTHORITY", "1.0"),
  ("G2", "G2.SP_STABILITY_BAND", "2.0"),
  ("G2r", "G2r.OPERATING_REGION", "1.0"),
  ("G3", "G3.OBJECTIVE_ERROR", "1.0"),
  ("G4", "G4.ACTUATOR_ACTIVITY", "2.0"),
  ("G5", "G5.ACF_OSCILLATION", "1.0"),
  ("G6", "G6.FFT_SPECTRAL", "1.0"),
  ("G7", "G7.SINE_TRIANGLE_SHAPE", "1.0"),
  ("G8", "XCORR_ASYMMETRY_V1", "1.0"),
  ("G9", "G9.PHASE_GEOMETRY", "1.0"),
  ("G10", "G10.LIMIT_DWELL", "2.0"),
  ("G11", "G11.FREEZE_EPISODES", "2.0"),
  ("G12", "G12.STEP_TEST_FLAG", "legacy"),
  ("G13", "G13.PEER_LINK_FLAG", "legacy"),
  ("G14", "G14.VP_NONFOLLOWING_CONFIRMATION", "2.0"),
  ("G15", "G15.EVIDENCE_FUSION", "2.0")]

def gates : List String := methods.map Prod.fst

def methodId (gate : String) : String := ((methods.lookup gate).map Prod.fst).getD gate

def methodVersion (gate : String) : String := ((methods.lookup gate).map Prod.snd).getD "unknown"

end GateMethodCatalog

namespace RunIdentity

def nameSpace : List ℕ :=
  [0x7a, 0x3c, 0x2f, 0x1e, 0x4b, 0x5d, 0x5e, 0x6f, 0x8a, 0x9b, 0x0c, 0x1d, 0x2e, 0x3f, 0x4a, 0x5b]

/-- `nz`: an absent text is empty. -/
def nz (s : Option String) : String := s.getD ""

def runName (loopId : Option String) (gate methodId methodVersion : String) (fromMs toMs : ℤ)
    (bundleHash : String) (contextRevision resultRevision : ℤ) : String :=
  "|".intercalate [nz loopId, gate, methodId, methodVersion, toString fromMs, toString toMs,
    bundleHash, toString contextRevision, toString resultRevision]

def methodRunId (loopId : Option String) (gate methodId methodVersion : String) (fromMs toMs : ℤ)
    (bundleHash : String) (contextRevision resultRevision : ℤ) : String :=
  (Guid.uuidV5 nameSpace (runName loopId gate methodId methodVersion fromMs toMs bundleHash
    contextRevision resultRevision)).text

/-- `forGates`: one identifier for each gate, in evaluation order. -/
def forGates (loopId : Option String) (fromMs toMs : ℤ) (bundleHash : String)
    (contextRevision resultRevision : ℤ) : List (String × String) :=
  GateMethodCatalog.gates.map fun gate =>
    (gate, methodRunId loopId gate (GateMethodCatalog.methodId gate)
      (GateMethodCatalog.methodVersion gate) fromMs toMs bundleHash contextRevision resultRevision)

end RunIdentity

namespace DatasetHash

def empty : String := "empty"

/-- `String.valueOf` of a double that may be NaN. -/
def doubleText (d : Option Double) : String := (d.map javaText).getD "NaN"

def line (s : CplmNormalizedSample) : String :=
  "|".intercalate [toString s.eventTsMs, doubleText s.pv, doubleText s.sp, doubleText s.op,
    (s.vp.map javaText).getD "null", s.mode, s.quality] ++ "\n"

def text (samples : List CplmNormalizedSample) : String :=
  String.join ((samples.insertionSort fun a b => a.eventTsMs ≤ b.eventTsMs).map line)

def of (samples : List CplmNormalizedSample) : String :=
  if samples = [] then empty else CanonicalJson.sha256Hex (text samples)

end DatasetHash

end OpenBridge.Identity
