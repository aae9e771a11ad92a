import OpenBridge.Foundation.KeyText
import OpenBridge.Identity.TierDecision

/-!
# Identity: what a method run identifier names

The identifier of a run is made from the loop, the gate, the window, the bundle hash and the epoch;
the revision of a result is always 1.  The samples of the window, and the values below the bundle,
are not part of it.
-/

namespace OpenBridge.Identity

open OpenBridge.Foundation
open OpenBridge.GateConfig
open OpenBridge.Samples

/-! ## Texts without separators -/

namespace ProfileHash

theorem hexDigit_ne_bar {n : ℕ} (h : n < 16) : Sha256.hexDigit n ≠ '|' := by
  have key : ∀ n < 16, Sha256.hexDigit n ≠ '|' := by decide
  exact key n h

theorem bar_not_mem_sha256Hex (content : String) :
    '|' ∉ (CanonicalJson.sha256Hex content).toList := by
  unfold CanonicalJson.sha256Hex Sha256.hex
  rw [String.toList_ofList]
  intro h
  obtain ⟨b, hb, hmem⟩ := List.mem_flatMap.mp h
  have hlt := lt_of_mem_digest hb
  rcases List.mem_cons.mp hmem with hbar | hmem
  · exact hexDigit_ne_bar (by omega) hbar.symm
  · exact hexDigit_ne_bar (by omega) (List.mem_singleton.mp hmem).symm

theorem bar_not_mem_of {p : ResolvedProfile} (h : ∀ hash, p.profile.bundleHash = some hash →
    ∃ content, hash = CanonicalJson.sha256Hex content) : '|' ∉ (of (some p)).toList := by
  cases hbundle : p.profile.bundleHash with
  | none =>
    rw [of_ungoverned hbundle, String.toList_append, sha256Prefix, String.toList_ofList]
    intro hmem
    rcases List.mem_append.mp hmem with hmem | hmem
    · exact absurd hmem (by decide)
    · exact bar_not_mem_sha256Hex _ (List.mem_of_mem_take hmem)
  | some hash =>
    obtain ⟨content, rfl⟩ := h hash hbundle
    rw [of_governed hbundle]
    · exact bar_not_mem_sha256Hex content
    · intro hempty
      have hlength := length_sha256Hex content
      rw [hempty] at hlength
      cases hlength

end ProfileHash

namespace GateMethodCatalog

theorem bar_not_mem {gate : String} (h : gate ∈ gates) : '|' ∉ gate.toList ∧
    '|' ∉ (methodId gate).toList ∧ '|' ∉ (methodVersion gate).toList := by
  revert gate
  decide

end GateMethodCatalog

namespace RunIdentity

variable {loopId loopId' : String} {gate gate' bundleHash bundleHash' : String}
  {fromMs toMs fromMs' toMs' epoch epoch' revision revision' : ℤ}

def gateRunName (loopId gate : String) (fromMs toMs : ℤ) (bundleHash : String)
    (epoch revision : ℤ) : String :=
  runName (some loopId) gate (GateMethodCatalog.methodId gate)
    (GateMethodCatalog.methodVersion gate) fromMs toMs bundleHash epoch revision

def nameParts (gate : String) (fromMs toMs : ℤ) (bundleHash : String) (epoch revision : ℤ) :
    List String :=
  [gate, GateMethodCatalog.methodId gate, GateMethodCatalog.methodVersion gate, toString fromMs,
    toString toMs, bundleHash, toString epoch, toString revision]

theorem gateRunName_eq : gateRunName loopId gate fromMs toMs bundleHash epoch revision =
    (String.singleton '|').intercalate
      (loopId :: nameParts gate fromMs toMs bundleHash epoch revision) := by
  have hbar : String.singleton '|' = "|" := by decide
  unfold gateRunName runName nz nameParts
  rw [hbar, Option.getD_some]

theorem bar_not_mem_nameParts (hgate : gate ∈ GateMethodCatalog.gates)
    (hbundle : '|' ∉ bundleHash.toList) :
    ∀ part ∈ nameParts gate fromMs toMs bundleHash epoch revision, '|' ∉ part.toList := by
  have hnumber (n : ℤ) : '|' ∉ (toString n).toList :=
    KeyText.not_mem_toString (by decide) (by decide) n
  obtain ⟨hname, hmethod, hversion⟩ := GateMethodCatalog.bar_not_mem hgate
  unfold nameParts
  simp only [List.forall_mem_cons]
  exact ⟨hname, hmethod, hversion, hnumber _, hnumber _, hbundle, hnumber _, hnumber _,
    fun _ h => absurd h List.not_mem_nil⟩

theorem gateRunName_injective (hgate : gate ∈ GateMethodCatalog.gates)
    (hgate' : gate' ∈ GateMethodCatalog.gates) (hbundle : '|' ∉ bundleHash.toList)
    (hbundle' : '|' ∉ bundleHash'.toList)
    (h : gateRunName loopId gate fromMs toMs bundleHash epoch revision =
      gateRunName loopId' gate' fromMs' toMs' bundleHash' epoch' revision') :
    loopId = loopId' ∧ gate = gate' ∧ fromMs = fromMs' ∧ toMs = toMs' ∧
      bundleHash = bundleHash' ∧ epoch = epoch' := by
  rw [gateRunName_eq, gateRunName_eq] at h
  have hlength : (nameParts gate fromMs toMs bundleHash epoch revision).length =
      (nameParts gate' fromMs' toMs' bundleHash' epoch' revision').length := by
    unfold nameParts
    simp only [List.length_cons]
  obtain ⟨hloop, hrest⟩ := KeyText.intercalate_injective (bar_not_mem_nameParts hgate hbundle)
    (bar_not_mem_nameParts hgate' hbundle') hlength h
  unfold nameParts at hrest
  simp only [List.cons.injEq] at hrest
  obtain ⟨hgates, -, -, hfrom, hto, hhash, hepoch, -⟩ := hrest
  exact ⟨hloop, hgates, KeyText.toString_injective hfrom, KeyText.toString_injective hto, hhash,
    KeyText.toString_injective hepoch⟩

theorem lookup_map {α : Type} (f : String → α) {gates : List String} {gate : String}
    (h : gate ∈ gates) : (gates.map fun g => (g, f g)).lookup gate = some (f gate) := by
  induction gates with
  | nil => cases h
  | cons g rest ih =>
    rw [List.map_cons, List.lookup_cons]
    by_cases heq : gate = g
    · rw [heq, beq_self_eq_true]
    · rw [beq_false_of_ne heq]
      exact ih ((List.mem_cons.mp h).resolve_left heq)

theorem lookup_forGates (h : gate ∈ GateMethodCatalog.gates) :
    (forGates (some loopId) fromMs toMs bundleHash epoch revision).lookup gate =
      some (Guid.uuidV5 nameSpace
        (gateRunName loopId gate fromMs toMs bundleHash epoch revision)).text :=
  lookup_map _ h

end RunIdentity

namespace ResultIdentity

theorem lookup_subset {all : List (String × String)} {gates : List String} {gate id : String}
    (h : gate ∈ gates) (hid : all.lookup gate = some id) :
    (subset all gates).lookup gate = some id := by
  unfold subset
  induction gates with
  | nil => cases h
  | cons g rest ih =>
    rw [List.filterMap_cons]
    by_cases heq : gate = g
    · rw [← heq, hid]
      simp
    · have hrest := ih ((List.mem_cons.mp h).resolve_left heq)
      cases hg : all.lookup g with
      | none => exact hrest
      | some id' =>
        rw [Option.map_some, List.lookup_cons, beq_false_of_ne heq]
        exact hrest

end ResultIdentity

/-! ## Evaluations -/

namespace MethodRuns

inductive Stage where
  | short
  | long
  | fused
  deriving DecidableEq

def Stage.gates : Stage → List String
  | .short => ResultIdentity.shortGates
  | .long => ResultIdentity.longGates
  | .fused => GateMethodCatalog.gates

/-- One evaluation of a window: samples of one loop in it, each with the profile resolved for it,
and the profile the fusion stage evaluates under. -/
structure Evaluation where
  loopId : String
  start : ℤ
  stop : ℤ
  raw : List AttachedSample
  stage : Stage
  fusion : ResolvedProfile
  nonempty : raw ≠ []
  keyed : ∀ s ∈ raw, s.sample.loopId = some loopId
  inside : ∀ s ∈ raw, start ≤ s.eventTsMs ∧ s.eventTsMs < stop
  attached : ∀ s ∈ raw, ∃ p, s.resolvedProfile = some p ∧
    ∀ hash, p.profile.bundleHash = some hash → ∃ content, hash = CanonicalJson.sha256Hex content

namespace Evaluation

variable (instantText : ℤ → String)
  (resolveDefault : Option String → Option String → Option String → ResolvedProfile)
  (e : Evaluation)

def shortResult : StampedResult :=
  WindowResults.shortResult instantText resolveDefault e.raw e.start e.stop

def longResult : StampedResult :=
  WindowResults.longResult instantText resolveDefault [] e.raw e.start e.stop

def fusedResult : StampedResult :=
  WindowResults.fusedResult [] (e.shortResult instantText resolveDefault)
    (e.longResult instantText resolveDefault) (some e.fusion)

def result : StampedResult :=
  match e.stage with
  | .short => e.shortResult instantText resolveDefault
  | .long => e.longResult instantText resolveDefault
  | .fused => e.fusedResult instantText resolveDefault

def profile : ResolvedProfile := WindowResults.longProfile resolveDefault e.raw

def evaluated : ResolvedProfile :=
  match e.stage with
  | .fused => e.fusion
  | _ => e.profile resolveDefault

def accepted : List CplmNormalizedSample := WindowResults.accepted e.raw e.start e.stop

def gateName (gate : String) : String :=
  RunIdentity.gateRunName e.loopId gate e.start e.stop
    (ProfileHash.of (some (e.profile resolveDefault)))
    (e.profile resolveDefault).profile.bundleEpoch 1

end Evaluation

def SameValues (p q : ResolvedProfile) : Prop :=
  p.profile.gateProfileId = q.profile.gateProfileId ∧ p.profile.values = q.profile.values ∧
    p.others = q.others

section Naming

variable (instantText : ℤ → String)
  (resolveDefault : Option String → Option String → Option String → ResolvedProfile)

/-- Two results that carry one identifier, for a gate each, are of one evaluation. -/
def NamesOne (e₁ e₂ : Evaluation) (gate₁ gate₂ : String) : Prop :=
  let r₁ := e₁.result instantText resolveDefault
  let r₂ := e₂.result instantText resolveDefault
  r₁.methodRunIds.lookup gate₁ = r₂.methodRunIds.lookup gate₂ →
    gate₁ = gate₂ ∧ r₁.loopId = r₂.loopId ∧ r₁.windowStartMs = r₂.windowStartMs ∧
      r₁.windowEndMs = r₂.windowEndMs ∧ r₁.datasetHash = r₂.datasetHash ∧
      SameValues (e₁.evaluated resolveDefault) (e₂.evaluated resolveDefault)

/-- A fused result carries the identifiers of the short and the long result it was fused from. -/
def InheritsRuns (e : Evaluation) : Prop :=
  (∀ gate ∈ ResultIdentity.shortGates,
    (e.fusedResult instantText resolveDefault).methodRunIds.lookup gate =
      (e.shortResult instantText resolveDefault).methodRunIds.lookup gate) ∧
    ∀ gate ∈ ResultIdentity.longGates,
      (e.fusedResult instantText resolveDefault).methodRunIds.lookup gate =
        (e.longResult instantText resolveDefault).methodRunIds.lookup gate

/-- A run is repeated: one loop, one window and one configuration, which is a bundle at an epoch, or
the text of a profile without a bundle. -/
def Repeats (e₁ e₂ : Evaluation) : Prop :=
  let p := e₁.profile resolveDefault
  let q := e₂.profile resolveDefault
  e₁.loopId = e₂.loopId ∧ e₁.start = e₂.start ∧ e₁.stop = e₂.stop ∧
    p.profile.bundleHash = q.profile.bundleHash ∧ p.profile.bundleEpoch = q.profile.bundleEpoch ∧
    (p.profile.bundleHash = none → ProfileHash.text p = ProfileHash.text q)

/-- A repeated run takes the same accepted samples and the same profile values. -/
def RepeatsAlike (e₁ e₂ : Evaluation) : Prop :=
  Repeats resolveDefault e₁ e₂ → DatasetHash.text e₁.accepted = DatasetHash.text e₂.accepted ∧
    SameValues (e₁.evaluated resolveDefault) (e₂.evaluated resolveDefault)

structure CollisionFree (e₁ e₂ : Evaluation) (gate₁ gate₂ : String) : Prop where
  names : Guid.uuidV5 RunIdentity.nameSpace (e₁.gateName resolveDefault gate₁) =
      Guid.uuidV5 RunIdentity.nameSpace (e₂.gateName resolveDefault gate₂) →
    e₁.gateName resolveDefault gate₁ = e₂.gateName resolveDefault gate₂
  datasets : CanonicalJson.sha256Hex (DatasetHash.text e₁.accepted) =
      CanonicalJson.sha256Hex (DatasetHash.text e₂.accepted) →
    DatasetHash.text e₁.accepted = DatasetHash.text e₂.accepted
  profiles : ProfileHash.sha256Prefix (ProfileHash.text (e₁.profile resolveDefault)) 16 =
      ProfileHash.sha256Prefix (ProfileHash.text (e₂.profile resolveDefault)) 16 →
    ProfileHash.text (e₁.profile resolveDefault) = ProfileHash.text (e₂.profile resolveDefault)

end Naming

/-! ## The identity of a result -/

section Results

variable {instantText : ℤ → String}
  {resolveDefault : Option String → Option String → Option String → ResolvedProfile}
  {e e₁ e₂ : Evaluation} {gate gate₁ gate₂ : String}

theorem filterHalfOpen_ne_nil (e : Evaluation) :
    SignalMath.filterHalfOpen e.raw e.start e.stop ≠ [] :=
  SignalMath.filterHalfOpen_ne_nil e.nonempty e.inside

theorem shortLoop_eq (e : Evaluation) :
    WindowResults.shortLoop e.raw e.start e.stop = some e.loopId := by
  unfold WindowResults.shortLoop
  rw [if_neg (filterHalfOpen_ne_nil e)]
  cases hfiltered : SignalMath.filterHalfOpen e.raw e.start e.stop with
  | nil => exact absurd hfiltered (filterHalfOpen_ne_nil e)
  | cons s rest =>
    have hmem : s ∈ SignalMath.filterHalfOpen e.raw e.start e.stop := by
      rw [hfiltered]
      exact List.mem_cons_self
    exact e.keyed s (SignalMath.mem_of_mem_filterHalfOpen hmem)

theorem loopOf_eq (e : Evaluation) : WindowResults.loopOf e.raw = some e.loopId := by
  cases hraw : e.raw with
  | nil => exact absurd hraw e.nonempty
  | cons s rest => exact e.keyed s (hraw ▸ List.mem_cons_self)

theorem latestResolvedProfile_eq (e : Evaluation) :
    ∃ p, (∀ hash, p.profile.bundleHash = some hash →
        ∃ content, hash = CanonicalJson.sha256Hex content) ∧
      ∀ front, (∀ s ∈ front, s ∈ e.raw) →
        SignalMath.latestResolvedProfile front e.raw = some p := by
  have hall : ∀ s ∈ e.raw, ∃ p, s.resolvedProfile = some p :=
    fun s hs => (e.attached s hs).imp fun _ h => h.1
  have hbefore : ∀ s ∈ e.raw, s.eventTsMs ≤ e.stop := fun s hs => le_of_lt (e.inside s hs).2
  obtain ⟨newest, hnewest⟩ := SignalMath.exists_newest e.nonempty hbefore
  obtain ⟨p, hp, hdigest⟩ := e.attached newest (EffectiveDating.latest_mem hnewest).1
  refine ⟨p, hdigest, fun front hfront => ?_⟩
  rw [SignalMath.latestResolvedProfile_eq hfront hall hbefore, hnewest]
  exact hp

theorem shortProfile_eq (e : Evaluation) :
    WindowResults.shortProfile resolveDefault e.raw e.start e.stop = e.profile resolveDefault := by
  obtain ⟨p, -, hlatest⟩ := latestResolvedProfile_eq e
  unfold WindowResults.shortProfile Evaluation.profile WindowResults.longProfile
  dsimp only
  rw [hlatest _ fun s hs => SignalMath.mem_of_mem_filterHalfOpen hs, hlatest _ fun s hs => hs]
  rfl

theorem bundleHash_digest (e : Evaluation) {hash : String}
    (h : (e.profile resolveDefault).profile.bundleHash = some hash) :
    ∃ content, hash = CanonicalJson.sha256Hex content := by
  obtain ⟨p, hdigest, hlatest⟩ := latestResolvedProfile_eq e
  unfold Evaluation.profile WindowResults.longProfile at h
  rw [hlatest _ fun s hs => hs] at h
  exact hdigest hash h

structure Carries (resolveDefault : Option String → Option String → Option String → ResolvedProfile)
    (e : Evaluation) (gates : List String) (r : StampedResult) : Prop where
  loop : r.loopId = some e.loopId
  windowStart : r.windowStartMs = e.start
  windowEnd : r.windowEndMs = e.stop
  dataset : r.datasetHash = DatasetHash.of e.accepted
  runs : ∀ gate ∈ gates, r.methodRunIds.lookup gate =
    some (Guid.uuidV5 RunIdentity.nameSpace (e.gateName resolveDefault gate)).text

theorem lookup_stage {gates : List String} (hgates : ∀ g ∈ gates, g ∈ GateMethodCatalog.gates)
    (h : gate ∈ gates) :
    (ResultIdentity.subset (RunIdentity.forGates (some e.loopId) e.start e.stop
      (ProfileHash.of (some (e.profile resolveDefault)))
      (e.profile resolveDefault).profile.bundleEpoch 1) gates).lookup gate =
        some (Guid.uuidV5 RunIdentity.nameSpace (e.gateName resolveDefault gate)).text :=
  ResultIdentity.lookup_subset h (RunIdentity.lookup_forGates (hgates gate h))

theorem carries_short (e : Evaluation) : Carries resolveDefault e ResultIdentity.shortGates
    (e.shortResult instantText resolveDefault) := by
  have hloop := shortLoop_eq e
  refine ⟨hloop, rfl, rfl, rfl, fun gate hgate => ?_⟩
  unfold Evaluation.shortResult WindowResults.shortResult
  rw [hloop, shortProfile_eq]
  exact lookup_stage (by decide) hgate

theorem carries_long (e : Evaluation) : Carries resolveDefault e ResultIdentity.longGates
    (e.longResult instantText resolveDefault) := by
  have hloop := loopOf_eq e
  obtain ⟨flags, hlong⟩ :=
    @WindowResults.longResult_eq instantText resolveDefault [] e.raw e.start e.stop
  rw [hloop] at hlong
  unfold Evaluation.longResult
  rw [hlong]
  exact ⟨rfl, rfl, rfl, rfl, fun gate hgate => lookup_stage (by decide) hgate⟩

theorem of_profile_ne_empty (e : Evaluation) :
    ProfileHash.of (some (e.profile resolveDefault)) ≠ "" := by
  intro hempty
  have hlength := congrArg String.length hempty
  cases hbundle : (e.profile resolveDefault).profile.bundleHash with
  | none =>
    rw [ProfileHash.length_of_ungoverned hbundle] at hlength
    cases hlength
  | some hash =>
    obtain ⟨content, rfl⟩ := bundleHash_digest e hbundle
    have h64 := ProfileHash.length_sha256Hex content
    rw [ProfileHash.of_governed hbundle, h64] at hlength
    · cases hlength
    · intro h
      rw [h] at h64
      cases h64

theorem carries_fused (e : Evaluation) : Carries resolveDefault e GateMethodCatalog.gates
    (e.fusedResult instantText resolveDefault) := by
  have hshort := @carries_short instantText resolveDefault e
  have hlong := @carries_long instantText resolveDefault e
  obtain ⟨flags, heq⟩ :=
    @WindowResults.longResult_eq instantText resolveDefault [] e.raw e.start e.stop
  have hhash : (e.longResult instantText resolveDefault).bundleHash =
      ProfileHash.of (some (e.profile resolveDefault)) := congrArg StampedResult.bundleHash heq
  have hepoch : (e.longResult instantText resolveDefault).contextRevision =
      (e.profile resolveDefault).profile.bundleEpoch := congrArg StampedResult.contextRevision heq
  have hinherited : ResultIdentity.inherited (e.longResult instantText resolveDefault)
      (some e.fusion) = ProfileHash.of (some (e.profile resolveDefault)) := by
    unfold ResultIdentity.inherited
    rw [hhash, if_neg (of_profile_ne_empty e)]
  have hloop : ((e.longResult instantText resolveDefault).loopId.orElse fun _ =>
      (e.shortResult instantText resolveDefault).loopId) = some e.loopId := by
    rw [hlong.loop]
    rfl
  -- the window is that of the long result, or of the short one: the same
  have hstart : (if 0 < (e.longResult instantText resolveDefault).windowStartMs then
      (e.longResult instantText resolveDefault).windowStartMs
      else (e.shortResult instantText resolveDefault).windowStartMs) = e.start := by
    rw [hlong.windowStart, hshort.windowStart, ite_self]
  have hend : (if 0 < (e.longResult instantText resolveDefault).windowEndMs then
      (e.longResult instantText resolveDefault).windowEndMs
      else (e.shortResult instantText resolveDefault).windowEndMs) = e.stop := by
    rw [hlong.windowEnd, hshort.windowEnd, ite_self]
  refine ⟨hloop, hstart, hend, hlong.dataset, fun gate hgate => ?_⟩
  unfold Evaluation.fusedResult WindowResults.fusedResult ResultIdentity.stampFused
  dsimp only
  rw [hloop, hstart, hend, hinherited, hepoch]
  exact RunIdentity.lookup_forGates hgate

theorem carries_result (e : Evaluation) :
    Carries resolveDefault e e.stage.gates (e.result instantText resolveDefault) := by
  unfold Evaluation.result
  cases e.stage with
  | short => exact carries_short e
  | long => exact carries_long e
  | fused => exact carries_fused e

theorem inheritsRuns (e : Evaluation) : InheritsRuns instantText resolveDefault e := by
  have hshortGates : ∀ g ∈ ResultIdentity.shortGates, g ∈ GateMethodCatalog.gates := by decide
  have hlongGates : ∀ g ∈ ResultIdentity.longGates, g ∈ GateMethodCatalog.gates := by decide
  constructor
  · intro gate hgate
    rw [(carries_fused e).runs gate (hshortGates gate hgate), (carries_short e).runs gate hgate]
  · intro gate hgate
    rw [(carries_fused e).runs gate (hlongGates gate hgate), (carries_long e).runs gate hgate]

/-! ## Equal identifiers -/

theorem gates_subset (stage : Stage) : ∀ g ∈ stage.gates, g ∈ GateMethodCatalog.gates := by
  cases stage with
  | short => decide
  | long => decide
  | fused => exact fun g hg => hg

theorem of_eq_of_iff (hprofiles :
      ProfileHash.sha256Prefix (ProfileHash.text (e₁.profile resolveDefault)) 16 =
        ProfileHash.sha256Prefix (ProfileHash.text (e₂.profile resolveDefault)) 16 →
      ProfileHash.text (e₁.profile resolveDefault) = ProfileHash.text (e₂.profile resolveDefault)) :
    ProfileHash.of (some (e₁.profile resolveDefault)) =
        ProfileHash.of (some (e₂.profile resolveDefault)) ↔
      (e₁.profile resolveDefault).profile.bundleHash =
          (e₂.profile resolveDefault).profile.bundleHash ∧
        ((e₁.profile resolveDefault).profile.bundleHash = none →
          ProfileHash.text (e₁.profile resolveDefault) =
            ProfileHash.text (e₂.profile resolveDefault)) := by
  have hgoverned : ∀ (e : Evaluation) (hash : String),
      (e.profile resolveDefault).profile.bundleHash = some hash →
        ProfileHash.of (some (e.profile resolveDefault)) = hash := by
    intro e hash h
    obtain ⟨content, rfl⟩ := bundleHash_digest e h
    refine ProfileHash.of_governed h fun hempty => ?_
    have h64 := ProfileHash.length_sha256Hex content
    rw [hempty] at h64
    cases h64
  cases h₁ : (e₁.profile resolveDefault).profile.bundleHash with
  | none =>
    cases h₂ : (e₂.profile resolveDefault).profile.bundleHash with
    | none =>
      rw [ProfileHash.of_ungoverned h₁, ProfileHash.of_ungoverned h₂, String.append_right_inj]
      simp only [true_and, true_implies]
      exact ⟨hprofiles, fun h => by rw [h]⟩
    | some hash =>
      obtain ⟨content, rfl⟩ := bundleHash_digest e₂ h₂
      rw [hgoverned e₂ _ h₂]
      refine iff_of_false (ProfileHash.of_ne_sha256Hex h₁ content) ?_
      rintro ⟨h, -⟩
      cases h
  | some hash =>
    rw [hgoverned e₁ hash h₁]
    cases h₂ : (e₂.profile resolveDefault).profile.bundleHash with
    | none =>
      obtain ⟨content, rfl⟩ := bundleHash_digest e₁ h₁
      refine iff_of_false (fun h => ProfileHash.of_ne_sha256Hex h₂ content h.symm) ?_
      rintro ⟨h, -⟩
      cases h
    | some hash' =>
      rw [hgoverned e₂ hash' h₂]
      simp

theorem runId_eq_iff (h : CollisionFree resolveDefault e₁ e₂ gate₁ gate₂)
    (hgate₁ : gate₁ ∈ GateMethodCatalog.gates) (hgate₂ : gate₂ ∈ GateMethodCatalog.gates) :
    (Guid.uuidV5 RunIdentity.nameSpace (e₁.gateName resolveDefault gate₁)).text =
        (Guid.uuidV5 RunIdentity.nameSpace (e₂.gateName resolveDefault gate₂)).text ↔
      gate₁ = gate₂ ∧ Repeats resolveDefault e₁ e₂ := by
  have hof := of_eq_of_iff h.profiles
  unfold Repeats
  constructor
  · intro htext
    have hname := h.names (Guid.text_injective htext)
    obtain ⟨hloop, hgate, hstart, hstop, hhash, hepoch⟩ := RunIdentity.gateRunName_injective hgate₁
      hgate₂ (ProfileHash.bar_not_mem_of fun _ => bundleHash_digest e₁)
      (ProfileHash.bar_not_mem_of fun _ => bundleHash_digest e₂) hname
    obtain ⟨hbundle, hprofile⟩ := hof.mp hhash
    exact ⟨hgate, hloop, hstart, hstop, hbundle, hepoch, hprofile⟩
  · rintro ⟨rfl, hloop, hstart, hstop, hbundle, hepoch, hprofile⟩
    unfold Evaluation.gateName
    rw [hloop, hstart, hstop, hof.mpr ⟨hbundle, hprofile⟩, hepoch]

theorem datasetHash_eq_iff (hdatasets : CanonicalJson.sha256Hex (DatasetHash.text e₁.accepted) =
      CanonicalJson.sha256Hex (DatasetHash.text e₂.accepted) →
    DatasetHash.text e₁.accepted = DatasetHash.text e₂.accepted) :
    DatasetHash.of e₁.accepted = DatasetHash.of e₂.accepted ↔
      DatasetHash.text e₁.accepted = DatasetHash.text e₂.accepted := by
  have hne : ∀ e : Evaluation, e.accepted ≠ [] := by
    intro e hnil
    exact filterHalfOpen_ne_nil e (List.map_eq_nil_iff.mp hnil)
  unfold DatasetHash.of
  rw [if_neg (hne e₁), if_neg (hne e₂)]
  exact ⟨hdatasets, fun h => by rw [h]⟩

/-- **A method run identifier names one evaluation exactly when a repeated run takes the same
samples and the same values**, for any two short, long or fused results. -/
theorem names_one_iff (e₁ e₂ : Evaluation) (hgate₁ : gate₁ ∈ e₁.stage.gates)
    (hgate₂ : gate₂ ∈ e₂.stage.gates) (h : CollisionFree resolveDefault e₁ e₂ gate₁ gate₂) :
    NamesOne instantText resolveDefault e₁ e₂ gate₁ gate₂ ∧
        InheritsRuns instantText resolveDefault e₁ ∧ InheritsRuns instantText resolveDefault e₂ ↔
      (gate₁ = gate₂ → RepeatsAlike resolveDefault e₁ e₂) := by
  have h₁ := @carries_result instantText resolveDefault e₁
  have h₂ := @carries_result instantText resolveDefault e₂
  have hids := runId_eq_iff h (gates_subset _ _ hgate₁) (gates_subset _ _ hgate₂)
  have hdata := datasetHash_eq_iff h.datasets
  have hinherits : InheritsRuns instantText resolveDefault e₁ ∧
      InheritsRuns instantText resolveDefault e₂ := ⟨inheritsRuns e₁, inheritsRuns e₂⟩
  rw [and_iff_left hinherits]
  unfold NamesOne RepeatsAlike
  dsimp only
  rw [h₁.runs gate₁ hgate₁, h₂.runs gate₂ hgate₂, Option.some.injEq, hids, h₁.loop, h₂.loop,
    h₁.windowStart, h₂.windowStart, h₁.windowEnd, h₂.windowEnd, h₁.dataset, h₂.dataset, hdata]
  constructor
  · rintro hone hgate hrepeats
    obtain ⟨-, -, -, -, hsamples, hvalues⟩ := hone ⟨hgate, hrepeats⟩
    exact ⟨hsamples, hvalues⟩
  · rintro halike ⟨hgate, hrepeats⟩
    obtain ⟨hsamples, hvalues⟩ := halike hgate hrepeats
    exact ⟨hgate, congrArg some hrepeats.1, hrepeats.2.1, hrepeats.2.2.1, hsamples, hvalues⟩

end Results

/-! A window of a flow loop that is evaluated again when a late sample has arrived. -/

open TierDecision (flowSample noDefault)

private def flowPackProfile : ResolvedProfile := noDefault none none none

private theorem ungoverned_flowPack {times : List ℤ} :
    ∀ s ∈ times.map fun t => AttachedSample.mk (flowSample t) (some flowPackProfile),
      ∃ p, s.resolvedProfile = some p ∧ ∀ hash, p.profile.bundleHash = some hash →
        ∃ content, hash = CanonicalJson.sha256Hex content := by
  intro s hs
  obtain ⟨t, -, rfl⟩ := List.mem_map.mp hs
  exact ⟨flowPackProfile, rfl, fun hash h => by cases h⟩

private def firing (times : List ℤ) (hne : times ≠ []) (h : ∀ t ∈ times, 0 ≤ t ∧ t < 100) :
    Evaluation where
  loopId := "FIC-101"
  start := 0
  stop := 100
  raw := times.map fun t => ⟨flowSample t, some flowPackProfile⟩
  stage := .short
  fusion := flowPackProfile
  nonempty := by simpa using hne
  keyed := by simp [flowSample]
  inside := by simpa [AttachedSample.eventTsMs, flowSample] using h
  attached := ungoverned_flowPack

private def firstFiring : Evaluation := firing [10] (by decide) (by decide)

private def lateFiring : Evaluation := firing [10, 5] (by decide) (by decide)

private theorem collisionFree_firings (gate : String) :
    CollisionFree noDefault firstFiring lateFiring gate gate := by
  refine ⟨fun _ => rfl, fun h => ?_, fun _ => rfl⟩
  revert h
  decide +kernel

/-- For the two firings of the window. -/
theorem names_one_iff_firings :
    NamesOne (fun _ => "") noDefault firstFiring lateFiring "G0" "G0" ∧
        InheritsRuns (fun _ => "") noDefault firstFiring ∧
        InheritsRuns (fun _ => "") noDefault lateFiring ↔
      ("G0" = "G0" → RepeatsAlike noDefault firstFiring lateFiring) :=
  names_one_iff firstFiring lateFiring (by decide) (by decide) (collisionFree_firings "G0")

/-- The second firing carries the identifiers of the first over another data set. -/
theorem late_firing_repeats_id : ¬ ∀ (e₁ e₂ : Evaluation) (gate : String),
    gate ∈ e₁.stage.gates → gate ∈ e₂.stage.gates → CollisionFree noDefault e₁ e₂ gate gate →
      NamesOne (fun _ => "") noDefault e₁ e₂ gate gate := by
  intro h
  have hone := h firstFiring lateFiring "G0" (by decide) (by decide) (collisionFree_firings "G0")
  have hids : ((firstFiring.result (fun _ => "") noDefault).methodRunIds.lookup "G0") =
      (lateFiring.result (fun _ => "") noDefault).methodRunIds.lookup "G0" := by
    rw [(carries_result firstFiring).runs "G0" (by decide),
      (carries_result lateFiring).runs "G0" (by decide)]
    rfl
  obtain ⟨-, -, -, -, hdataset, -⟩ := hone hids
  revert hdataset
  decide +kernel

end MethodRuns

end OpenBridge.Identity
