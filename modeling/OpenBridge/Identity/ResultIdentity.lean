import OpenBridge.GateConfig.GateConfigBundle
import OpenBridge.Identity.RunIdentity

/-!
# Identity: the identity stamped on a result

`ResultIdentity.stamp` for the short, the long and the fused result.  The calculators are modelled
as far as the identity of their results: the samples of the window, and the profile they are
evaluated under.
-/

namespace OpenBridge.Identity

open OpenBridge.Foundation
open OpenBridge.GateConfig
open OpenBridge.Samples

/-- The identity fields of a result. -/
structure StampedResult where
  loopId : Option String
  windowStartMs : ℤ
  windowEndMs : ℤ
  resultRevision : ℤ := 1
  methodRunIds : List (String × String) := []
  bundleHash : String := ProfileHash.legacy
  contextRevision : ℤ := 0
  evaluationState : String := "EVALUATED"
  evaluationReason : String := ""
  purpose : String := "LIVE"
  analysisRunId : Option String := none
  datasetHash : String := DatasetHash.empty
  observabilityFlags : List String := []
  deriving DecidableEq

namespace ResultIdentity

/-- `SHORT_GATES`. -/
def shortGates : List String := ["G0", "G1", "G2", "G2r", "G3", "G4"]

/-- `LONG_GATES`. -/
def longGates : List String := ["G5", "G6", "G7", "G8", "G9", "G10", "G11", "G13"]

/-- `subset`: the identifiers of some gates, in the order of the gates. -/
def subset (all : List (String × String)) (gates : List String) : List (String × String) :=
  gates.filterMap fun gate => (all.lookup gate).map fun id => (gate, id)

def addFlag (flags : List String) (flag : String) : List String :=
  if flag ∈ flags then flags else flags ++ [flag]

section Stamps

/- `Instant.ofEpochMilli(t).toString()`. -/
variable (instantText : ℤ → String)

/-- `warmup`: the reason to wait, when the support began before the bundle of a state boundary. -/
def warmup (profile : Option ResolvedProfile) (windowStartMs : ℤ) : Option String :=
  match profile.map ResolvedProfile.profile with
  | none => none
  | some p =>
      match p.bundleHash with
      | none => none
      | some hash =>
          if p.bundleChangeClass ≠ some "STATE_BOUNDARY" ∨ p.bundleEffectiveFromMs ≤ windowStartMs
          then none
          else some ("WARMUP: support began before the STATE_BOUNDARY bundle " ++
            GateConfigBundle.head hash ++ " became effective at " ++
            instantText p.bundleEffectiveFromMs ++ " (epoch " ++ toString p.bundleEpoch ++ ")")

def stampStage (gates : List String) (r : StampedResult) (samples : List CplmNormalizedSample)
    (profile : Option ResolvedProfile) : StampedResult :=
  let bundleHash := ProfileHash.of profile
  let contextRevision := (profile.map (·.profile.bundleEpoch)).getD 0
  let waiting := warmup instantText profile r.windowStartMs
  { r with
    bundleHash := bundleHash
    contextRevision := contextRevision
    evaluationState := if waiting.isSome then "WAITING" else r.evaluationState
    evaluationReason := waiting.getD r.evaluationReason
    datasetHash := DatasetHash.of samples
    methodRunIds := subset (RunIdentity.forGates r.loopId r.windowStartMs r.windowEndMs bundleHash
      contextRevision r.resultRevision) gates }

/-- `stamp` of a short result. -/
def stampShort (r : StampedResult) (samples : List CplmNormalizedSample)
    (profile : Option ResolvedProfile) : StampedResult :=
  stampStage instantText shortGates r samples profile

/-- `stamp` of a long result. -/
def stampLong (r : StampedResult) (samples : List CplmNormalizedSample)
    (profile : Option ResolvedProfile) : StampedResult :=
  let stamped := stampStage instantText longGates r samples profile
  if (warmup instantText profile r.windowStartMs).isSome then
    { stamped with observabilityFlags := addFlag stamped.observabilityFlags "WARMUP" }
  else stamped

end Stamps

def inherited (longD : StampedResult) (profile : Option ResolvedProfile) : String :=
  if longD.bundleHash = "" then ProfileHash.of profile else longD.bundleHash

/-- `stamp` of a fused result. -/
def stampFused (r longD : StampedResult) (profile : Option ResolvedProfile) : StampedResult :=
  let bundleHash := inherited longD profile
  let flags := if ProfileHash.of profile ≠ bundleHash then
    addFlag r.observabilityFlags "BUNDLE_MISMATCH_FUSION" else r.observabilityFlags
  let waits := longD.evaluationState = "WAITING"
  { r with
    bundleHash := bundleHash
    datasetHash := longD.datasetHash
    purpose := if longD.purpose = "" then "LIVE" else longD.purpose
    analysisRunId := longD.analysisRunId
    contextRevision := longD.contextRevision
    evaluationState := if waits then "WAITING" else r.evaluationState
    evaluationReason := if waits then longD.evaluationReason else r.evaluationReason
    observabilityFlags := if waits then addFlag flags "WARMUP" else flags
    methodRunIds := RunIdentity.forGates r.loopId r.windowStartMs r.windowEndMs bundleHash
      longD.contextRevision r.resultRevision }

section Stamps

variable {instantText : ℤ → String} {gates : List String} {r longD : StampedResult}
  {samples : List CplmNormalizedSample} {p : ResolvedProfile} {profile : Option ResolvedProfile}

theorem mem_addFlag {flags : List String} {flag x : String} :
    x ∈ addFlag flags flag ↔ x ∈ flags ∨ x = flag := by
  unfold addFlag
  split
  · rename_i hmem
    constructor
    · exact Or.inl
    · rintro (h | rfl)
      · exact h
      · exact hmem
  · simp

theorem stampLong_eq : ∃ flags, stampLong instantText r samples profile =
    { stampStage instantText longGates r samples profile with observabilityFlags := flags } := by
  unfold stampLong
  dsimp only
  split
  · exact ⟨_, rfl⟩
  · exact ⟨_, rfl⟩

theorem stampStage_waiting (hr : r.evaluationState ≠ "WAITING") :
    (stampStage instantText gates r samples profile).evaluationState = "WAITING" ↔
      (warmup instantText profile r.windowStartMs).isSome = true := by
  unfold stampStage
  dsimp only
  split
  · rename_i hsome
    exact iff_of_true rfl hsome
  · rename_i hnone
    exact iff_of_false hr hnone

theorem stampFused_waiting (hr : r.evaluationState ≠ "WAITING") :
    (stampFused r longD profile).evaluationState = "WAITING" ↔
      longD.evaluationState = "WAITING" := by
  unfold stampFused
  dsimp only
  split
  · rename_i hwaits
    exact iff_of_true rfl hwaits
  · rename_i hevaluated
    exact iff_of_false hr hevaluated

theorem mismatch_iff (hr : "BUNDLE_MISMATCH_FUSION" ∉ r.observabilityFlags) :
    "BUNDLE_MISMATCH_FUSION" ∈ (stampFused r longD profile).observabilityFlags ↔
      ProfileHash.of profile ≠ inherited longD profile := by
  have hflags : "BUNDLE_MISMATCH_FUSION" ∈ (if ProfileHash.of profile ≠ inherited longD profile then
      addFlag r.observabilityFlags "BUNDLE_MISMATCH_FUSION" else r.observabilityFlags) ↔
        ProfileHash.of profile ≠ inherited longD profile := by
    split
    · rename_i hne
      exact iff_of_true (mem_addFlag.mpr (.inr rfl)) hne
    · rename_i heq
      exact iff_of_false hr heq
  unfold stampFused
  dsimp only
  split
  · rw [mem_addFlag, hflags]
    simp
  · exact hflags

end Stamps

end ResultIdentity

/-! ## The identities of the results of a window -/

namespace WindowResults

/- `Instant.ofEpochMilli(t).toString()`, and the class pack alone
(`CplmDynamicsParameterSetSupport.resolveDefault`). -/
variable (instantText : ℤ → String)
  (resolveDefault : Option String → Option String → Option String → ResolvedProfile)

def loopOf (samples : List AttachedSample) : Option String :=
  match samples with
  | [] => some "UNKNOWN"
  | s :: _ => s.sample.loopId

def shortLoop (raw : List AttachedSample) (start stop : ℤ) : Option String :=
  loopOf (if SignalMath.filterHalfOpen raw start stop = [] then raw
    else SignalMath.filterHalfOpen raw start stop)

def shortProfile (raw : List AttachedSample) (start stop : ℤ) : ResolvedProfile :=
  let samples := SignalMath.filterHalfOpen raw start stop
  (SignalMath.latestResolvedProfile samples raw).getD
    (resolveDefault (shortLoop raw start stop)
      (SignalMath.firstNonBlank samples raw CplmNormalizedSample.loopType)
      (SignalMath.firstNonBlank samples raw CplmNormalizedSample.assetUuid))

def longProfile (raw : List AttachedSample) : ResolvedProfile :=
  (SignalMath.latestResolvedProfile raw raw).getD
    (resolveDefault (loopOf raw) (SignalMath.firstNonBlank raw raw CplmNormalizedSample.loopType)
      (SignalMath.firstNonBlank raw raw CplmNormalizedSample.assetUuid))

def accepted (raw : List AttachedSample) (start stop : ℤ) : List CplmNormalizedSample :=
  (SignalMath.filterHalfOpen raw start stop).map AttachedSample.sample

/-- `computeShortFeatures`, as far as the identity of its result. -/
def shortResult (raw : List AttachedSample) (start stop : ℤ) : StampedResult :=
  ResultIdentity.stampShort instantText ⟨shortLoop raw start stop, start, stop, 1, [],
    ProfileHash.legacy, 0, "EVALUATED", "", "LIVE", none, DatasetHash.empty, []⟩
    (accepted raw start stop) (some (shortProfile resolveDefault raw start stop))

/-- `computeLongDiagnostics`, as far as the identity of its result; `flags` are those of the
calculator. -/
def longResult (flags : List String) (raw : List AttachedSample) (start stop : ℤ) : StampedResult :=
  ResultIdentity.stampLong instantText ⟨loopOf raw, start, stop, 1, [],
    ProfileHash.legacy, 0, "EVALUATED", "", "LIVE", none, DatasetHash.empty, flags⟩
    (accepted raw start stop) (some (longProfile resolveDefault raw))

/-- `fuse`, as far as the identity of its result: the loop and the window are those of the long
record, or else of the short one. -/
def fusedResult (flags : List String) (shortF longD : StampedResult)
    (profile : Option ResolvedProfile) : StampedResult :=
  ResultIdentity.stampFused
    ⟨longD.loopId.orElse fun _ => shortF.loopId,
      if 0 < longD.windowStartMs then longD.windowStartMs else shortF.windowStartMs,
      if 0 < longD.windowEndMs then longD.windowEndMs else shortF.windowEndMs, 1, [],
      ProfileHash.legacy, 0, "EVALUATED", "", "LIVE", none, DatasetHash.empty, flags⟩ longD profile

theorem longResult_eq {instantText : ℤ → String}
    {resolveDefault : Option String → Option String → Option String → ResolvedProfile}
    (flags : List String) (raw : List AttachedSample) (start stop : ℤ) :
    ∃ flags', longResult instantText resolveDefault flags raw start stop =
      { ResultIdentity.stampStage instantText ResultIdentity.longGates ⟨loopOf raw, start, stop, 1,
          [], ProfileHash.legacy, 0, "EVALUATED", "", "LIVE", none, DatasetHash.empty, flags⟩
          (accepted raw start stop) (some (longProfile resolveDefault raw)) with
        observabilityFlags := flags' } :=
  ResultIdentity.stampLong_eq

end WindowResults

end OpenBridge.Identity
