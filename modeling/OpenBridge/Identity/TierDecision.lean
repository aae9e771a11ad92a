import OpenBridge.GateConfig.EntryInForce
import OpenBridge.Identity.ResultIdentity

/-!
# Identity: one configuration decision for a window

The short and the long job attach a profile to every sample, at the time of the sample; the fusion
job resolves one for the long record, at the end of the window.  Over one active-bundle state the
three decide alike exactly when the entry in force at the end of the window was already in force at
the newest sample, or repeats the one that was.
-/

namespace OpenBridge.Identity

open OpenBridge.Foundation
open OpenBridge.GateConfig
open OpenBridge.Samples
open EffectiveBundleSelector (entryInForce)
open BundleBroadcastHandler (Sound ContentKeyed Flat)

structure JobSettings where
  jobName : String
  hmacKey : Option String
  site : String

namespace TierDecision

variable {α : Type}

def inJob (w : ProfileWorker α) (job : JobSettings) : ProfileWorker α :=
  { w with jobName := job.jobName, hmacKey := job.hmacKey, site := job.site }

def sampleRef (s : CplmNormalizedSample) : LoopRef := ⟨s.loopId, s.loopType, s.assetUuid, s.site⟩

def recordRef (raw : List AttachedSample) : LoopRef :=
  let first (getter : CplmNormalizedSample → Option String) : Option String :=
    some ((SignalMath.firstNonBlank raw raw getter).getD "")
  ⟨WindowResults.loopOf raw, first CplmNormalizedSample.loopType,
    first CplmNormalizedSample.assetUuid, first CplmNormalizedSample.site⟩

/-- An operator that has reached the attributes and the configuration by some run resolves a profile
for a loop at a time, with no cache hit on a bundle that takes effect later. -/
def Resolves (w : ProfileWorker α) (attributes : α) (config : ActiveConfigState) (ref : LoopRef)
    (t : ℤ) (p : CplmLoopDynamicsProfile) : Prop :=
  ∃ attributes₀ events s, w.run attributes₀ events = .ok s ∧ s.attributes = attributes ∧
    s.config = config ∧ OneLoopPerKey (events ++ [.resolve ref t]) ∧
    ProfileWorker.InForce s ref t ∧ (w.resolve s ref t).map Prod.fst = .ok p

variable (others : α → LoopRef → List (String × String))

/-- The samples of a list, each with the profile an operator resolved for it at its own time;
`others` are the texts of the fields that the class pack and the attributes decide. -/
structure Attached (w : ProfileWorker α) (attributes : α) (config : ActiveConfigState)
    (samples : List CplmNormalizedSample) (attached : List AttachedSample) : Prop where
  samples_eq : attached.map AttachedSample.sample = samples
  resolved : ∀ a ∈ attached, ∃ p,
    Resolves w attributes config (sampleRef a.sample) a.eventTsMs p ∧
      a.resolvedProfile = some ⟨p, others attributes (sampleRef a.sample)⟩

def identity (p : ResolvedProfile) : String × ℤ := (ProfileHash.of (some p), p.profile.bundleEpoch)

def newestSample (samples : List CplmNormalizedSample) (before : ℤ) : Option CplmNormalizedSample :=
  EffectiveDating.latest CplmNormalizedSample.eventTsMs before samples

/-- The decision of a loop at `t'` was already that of a loop at `t`: the entry in force then took
effect no later than `t`, over the same scopes, or repeats the document and the epoch of the entry
in force at `t`; where none is in force at either, the class packs have one hash. -/
def Settled (w w' : ProfileWorker α) (attributes : α) (config : ActiveConfigState)
    (ref : LoopRef) (t : ℤ) (ref' : LoopRef) (t' : ℤ) : Prop :=
  ∃ base base', w.baseProfile attributes ref.loopId ref.loopType ref.assetUuid = .ok base ∧
    w'.baseProfile attributes ref'.loopId ref'.loopType ref'.assetUuid = .ok base' ∧
    match entryInForce config t' (w'.scopesOf ref' base') with
    | none => entryInForce config t (w.scopesOf ref base) = none ∧
        ProfileHash.of (some ⟨base.toProfile, others attributes ref⟩) =
          ProfileHash.of (some ⟨base'.toProfile, others attributes ref'⟩)
    | some e' => (w.scopesOf ref base = w'.scopesOf ref' base' ∧ e'.effectiveFromMs ≤ t) ∨
        ∃ e, entryInForce config t (w.scopesOf ref base) = some e ∧ e.hash = e'.hash ∧
          e.epoch = e'.epoch

/-! ## Two resolutions -/

section TwoResolutions

variable {others} {w w' : ProfileWorker α} {attributes : α} {config : ActiveConfigState}
  {ref ref' : LoopRef} {t t' : ℤ} {p p' : CplmLoopDynamicsProfile}

theorem Resolves.uncached (h : Resolves w attributes config ref t p) :
    w.uncached attributes config ref t = .ok p ∧ Sound config ∧ ContentKeyed config := by
  obtain ⟨attributes₀, events, s, hrun, rfl, rfl, hone, hin, hp⟩ := h
  have hsound := ProfileWorker.cacheSound_run hrun
  refine ⟨?_, hsound.sound, ProfileWorker.contentKeyed_run hrun⟩
  rw [← hp]
  refine (ProfileWorker.resolve_eq_uncached hsound ?_ hin).symm
  rintro ref' ⟨t', ht'⟩ hkey
  exact hone ref' t' ref t (by simp [ht']) (by simp) hkey

theorem resolves_of_cleared {attributes₀ : α} {events : List FnEvent} {s : FnState α}
    (hrun : w.run attributes₀ events = .ok s) (hcache : s.cache = Dict.empty)
    (hparsed : s.parsed = Dict.empty) (hnone : ∀ ref t, .resolve ref t ∉ events)
    (h : w.uncached s.attributes s.config ref t = .ok p) :
    Resolves w s.attributes s.config ref t p := by
  refine ⟨attributes₀, events, s, hrun, rfl, rfl, ?_, ?_, ?_⟩
  · intro ref₁ t₁ ref₂ t₂ h₁ h₂ _
    simp only [List.mem_append, hnone, List.mem_singleton, FnEvent.resolve.injEq,
      false_or] at h₁ h₂
    rw [h₁.1, h₂.1]
  · intro c hc
    simp [hcache] at hc
  · rw [(ProfileWorker.resolve_miss (hparsed ▸ EffectiveBundleSelector.coherent_empty)
      (by simp [hcache])).1]
    exact h

theorem identity_governed (hs : Sound config) (hkeyed : ContentKeyed config) (hflat : Flat config)
    {base : BaseProfile}
    (hbase : w.baseProfile attributes ref.loopId ref.loopType ref.assetUuid = .ok base)
    {e : ActiveEntry} (he : entryInForce config t (w.scopesOf ref base) = some e)
    (hp : w.uncached attributes config ref t = .ok p) (texts : List (String × String)) :
    identity ⟨p, texts⟩ = (e.hash, e.epoch) := by
  have hreads := BundleBroadcastHandler.readsBack_of_flat hs hkeyed hflat
  obtain ⟨hhash, hepoch, -, -⟩ := ProfileWorker.uncached_governed hreads hbase he hp
  obtain ⟨scope, -, hmem, -⟩ := EffectiveBundleSelector.entryInForce_mem he
  obtain ⟨content, hcontent⟩ := BundleBroadcastHandler.hash_of_active hs hkeyed hmem
  have hne : e.hash ≠ "" := by
    intro hempty
    have hlength := ProfileHash.length_sha256Hex content
    rw [← hcontent, hempty] at hlength
    cases hlength
  unfold identity
  rw [ProfileHash.of_governed hhash hne, hepoch]

theorem identity_ungoverned {base : BaseProfile}
    (hbase : w.baseProfile attributes ref.loopId ref.loopType ref.assetUuid = .ok base)
    (he : entryInForce config t (w.scopesOf ref base) = none)
    (hp : w.uncached attributes config ref t = .ok p) : p = base.toProfile := by
  rw [ProfileWorker.uncached_ungoverned hbase he] at hp
  exact (Except.ok.inj hp).symm

theorem identity_ne (hs : Sound config) (hkeyed : ContentKeyed config) {base : BaseProfile}
    {e : ActiveEntry} {scope : String} (he : e ∈ config.entries scope)
    (texts : List (String × String)) : identity ⟨base.toProfile, texts⟩ ≠ (e.hash, e.epoch) := by
  obtain ⟨content, hcontent⟩ := BundleBroadcastHandler.hash_of_active hs hkeyed he
  intro heq
  have hhash : ProfileHash.of (some ⟨base.toProfile, texts⟩) = e.hash := congrArg Prod.fst heq
  rw [hcontent] at hhash
  refine ProfileHash.of_ne_sha256Hex ?_ content hhash
  rfl

theorem identity_eq_iff (hflat : Flat config) (ht : t ≤ t') (h : Resolves w attributes config ref t p)
    (h' : Resolves w' attributes config ref' t' p') :
    identity ⟨p, others attributes ref⟩ = identity ⟨p', others attributes ref'⟩ ↔
      Settled others w w' attributes config ref t ref' t' := by
  obtain ⟨hp, hs, hkeyed⟩ := h.uncached
  obtain ⟨hp', -, -⟩ := h'.uncached
  obtain ⟨base, hbase⟩ := ProfileWorker.base_of_uncached hp
  obtain ⟨base', hbase'⟩ := ProfileWorker.base_of_uncached hp'
  have hsettled : ∀ P : BaseProfile → BaseProfile → Prop,
      (∃ b b', w.baseProfile attributes ref.loopId ref.loopType ref.assetUuid = .ok b ∧
        w'.baseProfile attributes ref'.loopId ref'.loopType ref'.assetUuid = .ok b' ∧ P b b') ↔
        P base base' := by
    intro P
    constructor
    · rintro ⟨b, b', hb, hb', hP⟩
      obtain rfl := Except.ok.inj (hbase.symm.trans hb)
      obtain rfl := Except.ok.inj (hbase'.symm.trans hb')
      exact hP
    · exact fun hP => ⟨base, base', hbase, hbase', hP⟩
  unfold Settled
  rw [hsettled]
  cases he' : entryInForce config t' (w'.scopesOf ref' base') with
  | none =>
    obtain rfl := identity_ungoverned hbase' he' hp'
    cases he : entryInForce config t (w.scopesOf ref base) with
    | none =>
      -- neither is governed: the class packs decide
      obtain rfl := identity_ungoverned hbase he hp
      simp only [identity, Prod.mk.injEq, true_and]
      exact ⟨fun h => h.1, fun h => ⟨h, rfl⟩⟩
    | some e =>
      obtain ⟨scope, -, hmem, -⟩ := EffectiveBundleSelector.entryInForce_mem he
      rw [identity_governed hs hkeyed hflat hbase he hp]
      simp only [reduceCtorEq, false_and, iff_false]
      exact fun heq => identity_ne hs hkeyed hmem _ heq.symm
  | some e' =>
    rw [identity_governed hs hkeyed hflat hbase' he' hp']
    -- an entry that is not newer than `t` was in force at `t`
    have hleft : w.scopesOf ref base = w'.scopesOf ref' base' → e'.effectiveFromMs ≤ t →
        entryInForce config t (w.scopesOf ref base) = some e' := by
      intro hscopes hle
      rw [hscopes]
      exact EffectiveBundleSelector.entryInForce_of_le he' hle ht
    cases he : entryInForce config t (w.scopesOf ref base) with
    | none =>
      obtain rfl := identity_ungoverned hbase he hp
      obtain ⟨scope, -, hmem, -⟩ := EffectiveBundleSelector.entryInForce_mem he'
      refine iff_of_false (identity_ne hs hkeyed hmem _) ?_
      rintro (⟨hscopes, hle⟩ | ⟨e, hnone, -⟩)
      · rw [hleft hscopes hle] at he
        cases he
      · cases hnone
    | some e =>
      rw [identity_governed hs hkeyed hflat hbase he hp, Prod.mk.injEq]
      constructor
      · exact fun h => .inr ⟨e, rfl, h⟩
      · rintro (⟨hscopes, hle⟩ | ⟨e₀, heq, hsame⟩)
        · rw [hleft hscopes hle] at he
          obtain rfl := Option.some.inj he
          exact ⟨rfl, rfl⟩
        · obtain rfl := Option.some.inj heq
          exact hsame

end TwoResolutions

/-! ## The three results of a window -/

section Window

variable (instantText : ℤ → String)
  (resolveDefault : Option String → Option String → Option String → ResolvedProfile)

/-- The short result, the long result and the fusion stage name one bundle and epoch for a window,
and the fused result does not say otherwise. -/
def OneDecision (start stop : ℤ) (shortSamples longSamples : List AttachedSample)
    (fusion : ResolvedProfile) : Prop :=
  let shortF := WindowResults.shortResult instantText resolveDefault shortSamples start stop
  let longD := WindowResults.longResult instantText resolveDefault [] longSamples start stop
  (shortF.bundleHash, shortF.contextRevision) = (longD.bundleHash, longD.contextRevision) ∧
    (longD.bundleHash, longD.contextRevision) = identity fusion ∧
    "BUNDLE_MISMATCH_FUSION" ∉
      (WindowResults.fusedResult [] shortF longD (some fusion)).observabilityFlags

variable {others instantText resolveDefault} {w : ProfileWorker α} {attributes : α}
  {config : ActiveConfigState} {samples : List CplmNormalizedSample} {raw : List AttachedSample}
  {start stop : ℤ}

theorem Attached.newest (h : Attached others w attributes config samples raw)
    {newest : CplmNormalizedSample} (hnewest : newestSample samples stop = some newest) :
    ∃ a p, SignalMath.newest raw stop = some a ∧
      Resolves w attributes config (sampleRef newest) newest.eventTsMs p ∧
      a.resolvedProfile = some ⟨p, others attributes (sampleRef newest)⟩ := by
  have hmap : newestSample samples stop =
      (SignalMath.newest raw stop).map AttachedSample.sample := by
    rw [← h.samples_eq]
    exact EffectiveDating.latest_map fun _ => rfl
  rw [hnewest] at hmap
  obtain ⟨a, ha, rfl⟩ := Option.map_eq_some_iff.mp hmap.symm
  obtain ⟨p, hp, hresolved⟩ := h.resolved a (EffectiveDating.latest_mem ha).1
  exact ⟨a, p, ha, hp, hresolved⟩

theorem Attached.profiles (h : Attached others w attributes config samples raw)
    (hstop : ∀ s ∈ samples, s.eventTsMs < stop) {newest : CplmNormalizedSample}
    (hnewest : newestSample samples stop = some newest) :
    ∃ p, Resolves w attributes config (sampleRef newest) newest.eventTsMs p ∧
      WindowResults.shortProfile resolveDefault raw start stop =
        ⟨p, others attributes (sampleRef newest)⟩ ∧
      WindowResults.longProfile resolveDefault raw = ⟨p, others attributes (sampleRef newest)⟩ := by
  obtain ⟨a, p, ha, hp, hresolved⟩ := h.newest hnewest
  have hbefore : ∀ s ∈ raw, s.eventTsMs ≤ stop := by
    intro s hs
    refine le_of_lt (hstop s.sample ?_)
    rw [← h.samples_eq]
    exact List.mem_map_of_mem hs
  -- whatever samples of the list stand in front of it
  have hlatest : ∀ front, (∀ s ∈ front, s ∈ raw) → SignalMath.latestResolvedProfile front raw =
      some ⟨p, others attributes (sampleRef newest)⟩ := by
    intro front hfront
    rw [SignalMath.latestResolvedProfile_eq hfront
      (fun s hs => (h.resolved s hs).imp' _ fun _ hq => hq.2) hbefore, ha]
    exact hresolved
  refine ⟨p, hp, ?_, ?_⟩
  · unfold WindowResults.shortProfile
    dsimp only
    rw [hlatest _ fun s hs => SignalMath.mem_of_mem_filterHalfOpen hs]
    rfl
  · unfold WindowResults.longProfile
    rw [hlatest _ fun s hs => hs]
    rfl

/-- **The tiers decide alike exactly when the decision of the window end was settled at the newest
sample.** -/
theorem oneDecision_iff (shortJob longJob fusionJob : JobSettings)
    {newest : CplmNormalizedSample} (hnewest : newestSample samples stop = some newest)
    (hstop : ∀ s ∈ samples, s.eventTsMs < stop) (hflat : Flat config)
    {shortSamples longSamples : List AttachedSample} {fusion : CplmLoopDynamicsProfile}
    (hshort : Attached others (inJob w shortJob) attributes config samples shortSamples)
    (hlong : Attached others (inJob w longJob) attributes config samples longSamples)
    (hfusion : Resolves (inJob w fusionJob) attributes config (recordRef longSamples) stop fusion) :
    OneDecision instantText resolveDefault start stop shortSamples longSamples
        ⟨fusion, others attributes (recordRef longSamples)⟩ ↔
      Settled others (inJob w shortJob) (inJob w longJob) attributes config
        (sampleRef newest) newest.eventTsMs (sampleRef newest) newest.eventTsMs ∧
      Settled others (inJob w longJob) (inJob w fusionJob) attributes config
        (sampleRef newest) newest.eventTsMs (recordRef longSamples) stop := by
  obtain ⟨pS, hpS, hshortProfile, -⟩ :=
    @Attached.profiles _ _ resolveDefault _ _ _ _ _ start _ hshort hstop _ hnewest
  obtain ⟨pL, hpL, -, hlongProfile⟩ :=
    @Attached.profiles _ _ resolveDefault _ _ _ _ _ start _ hlong hstop _ hnewest
  have hle : newest.eventTsMs ≤ stop := (EffectiveDating.latest_mem hnewest).2
  rw [← identity_eq_iff hflat (le_refl _) hpS hpL, ← identity_eq_iff hflat hle hpL hfusion]
  have hshortIdentity :
      ((WindowResults.shortResult instantText resolveDefault shortSamples start stop).bundleHash,
        (WindowResults.shortResult instantText resolveDefault shortSamples start
          stop).contextRevision) = identity ⟨pS, others attributes (sampleRef newest)⟩ := by
    rw [← hshortProfile]
    rfl
  have hlongIdentity :
      ((WindowResults.longResult instantText resolveDefault [] longSamples start stop).bundleHash,
        (WindowResults.longResult instantText resolveDefault [] longSamples start
          stop).contextRevision) = identity ⟨pL, others attributes (sampleRef newest)⟩ := by
    obtain ⟨flags, hlongD⟩ :=
      @WindowResults.longResult_eq instantText resolveDefault [] longSamples start stop
    rw [hlongD, hlongProfile]
    rfl
  unfold OneDecision
  dsimp only
  rw [hshortIdentity, hlongIdentity]
  refine and_congr_right fun _ => ⟨And.left, fun heq => ⟨heq, ?_⟩⟩
  -- the fused result inherits the hash that the fusion stage resolved itself
  have hhash : (WindowResults.longResult instantText resolveDefault [] longSamples start
      stop).bundleHash =
        ProfileHash.of (some ⟨fusion, others attributes (recordRef longSamples)⟩) :=
    congrArg Prod.fst (hlongIdentity.trans heq)
  unfold WindowResults.fusedResult
  rw [ResultIdentity.mismatch_iff List.not_mem_nil, not_ne_iff]
  unfold ResultIdentity.inherited
  split
  · rfl
  · exact hhash.symm

end Window

/-! A plant whose bundle takes effect at 100, and windows that end at 150. -/

open ControlPlane.BundleEnvelope.Publication

def neutralValue : (k : ProfileField.Kind) → k.Value
  | .number => (none : Option Double)
  | .integer => (3 : ℤ)
  | .role => GateRole.primary

def flowWorker : ProfileWorker Unit where
  jobName := "cplm-short"
  hmacKey := some "service-key"
  site := "plant-1"
  baseProfile := fun _ _ _ _ => .ok ⟨some "FLOW_FAST_SELF_REG", fun f => neutralValue f.kind⟩
  applyUpdate := fun a _ => a

def plantJob (jobName : String) : JobSettings := ⟨jobName, some "service-key", "plant-1"⟩

private def plantConfig : ActiveConfigState :=
  BundleBroadcastHandler.applyBundle
    { ActiveConfigState.empty with
      prepared := Dict.empty.set (cycles "PREPARE" 100).view.contentHash
        (cycles "PREPARE" 100).document }
    (cycles "APPLY" 100).received (cycles "APPLY" 100).deploymentId

private theorem flat_plantConfig : Flat plantConfig :=
  BundleBroadcastHandler.flat_prepare BundleBroadcastHandler.flat_empty rfl

private def plantRun : List FnEvent :=
  [] ++ [.control ((cycles "PREPARE" 100).message "service-key")] ++
    [.control ((cycles "APPLY" 100).message "service-key")]

private theorem run_plant (jobName : String) :
    (inJob flowWorker (plantJob jobName)).run () plantRun =
      .ok ⟨(), plantConfig, Dict.empty, Dict.empty⟩ := by
  have hprepare := ProfileWorker.run_step
    (show (inJob flowWorker (plantJob jobName)).run () [] = .ok (ProfileWorker.initial ()) from rfl)
    (ProfileWorker.step_control_message (by decide) (canonical_cycles _ 100)
      (handle_prepare_message (by decide) (canonical_cycles _ 100) rfl (valid_cycles _ _)))
  exact ProfileWorker.run_step hprepare (ProfileWorker.step_control_message (by decide)
    (canonical_cycles _ 100) (handle_apply_message (by decide) (canonical_cycles _ 100) rfl
      (by decide)))

def flowSample (t : ℤ) : CplmNormalizedSample :=
  { loopId := some "FIC-101", eventTsMs := t, loopType := some "FIC", assetUuid := some "A-1",
    site := some "plant-1" }

def flowProfile (config : ActiveConfigState) (t : ℤ) : CplmLoopDynamicsProfile :=
  match flowWorker.uncached () config (sampleRef (flowSample t)) t with
  | .ok p => p
  | .error _ => BaseProfile.toProfile ⟨none, fun f => neutralValue f.kind⟩

def flowAttached (config : ActiveConfigState) (t : ℤ) : List AttachedSample :=
  [⟨flowSample t, some ⟨flowProfile config t, []⟩⟩]

theorem resolves_flow {jobName : String} {events : List FnEvent} {config : ActiveConfigState}
    {t : ℤ} (hrun : (inJob flowWorker (plantJob jobName)).run () events =
      .ok ⟨(), config, Dict.empty, Dict.empty⟩) (hnone : ∀ ref t, .resolve ref t ∉ events)
    (h : (flowWorker.uncached () config (sampleRef (flowSample t)) t).isOk = true) :
    Resolves (inJob flowWorker (plantJob jobName)) () config (sampleRef (flowSample t)) t
      (flowProfile config t) := by
  have hok : flowWorker.uncached () config (sampleRef (flowSample t)) t =
      .ok (flowProfile config t) := by
    unfold flowProfile
    cases hp : flowWorker.uncached () config (sampleRef (flowSample t)) t with
    | error e =>
      rw [hp] at h
      cases h
    | ok p => rfl
  exact resolves_of_cleared hrun rfl rfl hnone hok

theorem attached_flow {jobName : String} {events : List FnEvent} {config : ActiveConfigState}
    {t : ℤ} (hrun : (inJob flowWorker (plantJob jobName)).run () events =
      .ok ⟨(), config, Dict.empty, Dict.empty⟩) (hnone : ∀ ref t, .resolve ref t ∉ events)
    (h : (flowWorker.uncached () config (sampleRef (flowSample t)) t).isOk = true) :
    Attached (fun _ _ => []) (inJob flowWorker (plantJob jobName)) () config [flowSample t]
      (flowAttached config t) := by
  refine ⟨rfl, fun a ha => ?_⟩
  obtain rfl := List.mem_singleton.mp ha
  exact ⟨flowProfile config t, resolves_flow hrun hnone h, rfl⟩

def noDefault : Option String → Option String → Option String → ResolvedProfile :=
  fun _ _ _ => ⟨BaseProfile.toProfile ⟨none, fun f => neutralValue f.kind⟩, []⟩

private theorem resolves_end : Resolves (inJob flowWorker (plantJob "cplm-fusion")) () plantConfig
    (sampleRef (flowSample 150)) 150 (flowProfile plantConfig 150) :=
  resolves_flow (run_plant "cplm-fusion") (by simp [plantRun]) (by decide)

/-- With a sample at 120 the decision at 150 is settled exactly when the tiers decide alike. -/
theorem oneDecision_iff_flow :
    OneDecision (fun _ => "") noDefault 100 150 (flowAttached plantConfig 120)
        (flowAttached plantConfig 120) ⟨flowProfile plantConfig 150, []⟩ ↔
      Settled (fun _ _ => []) (inJob flowWorker (plantJob "cplm-short"))
          (inJob flowWorker (plantJob "cplm-long")) () plantConfig
          (sampleRef (flowSample 120)) 120 (sampleRef (flowSample 120)) 120 ∧
        Settled (fun _ _ => []) (inJob flowWorker (plantJob "cplm-long"))
          (inJob flowWorker (plantJob "cplm-fusion")) () plantConfig
          (sampleRef (flowSample 120)) 120 (recordRef (flowAttached plantConfig 120)) 150 :=
  oneDecision_iff (plantJob "cplm-short") (plantJob "cplm-long") (plantJob "cplm-fusion")
    (show newestSample [flowSample 120] 150 = some (flowSample 120) from rfl)
    (by simp [flowSample]) flat_plantConfig
    (attached_flow (run_plant _) (by simp [plantRun]) (by decide))
    (attached_flow (run_plant _) (by simp [plantRun]) (by decide)) resolves_end

/-- A sample at 50 is resolved before the bundle takes effect, the window that ends at 150 after: the
fusion stage reports a mismatch over one unchanged configuration. -/
theorem tiers_disagree : ¬ ∀ (w : ProfileWorker Unit) (shortJob longJob fusionJob : JobSettings)
    (others : Unit → LoopRef → List (String × String)) (instantText : ℤ → String)
    (resolveDefault : Option String → Option String → Option String → ResolvedProfile)
    (config : ActiveConfigState) (samples : List CplmNormalizedSample) (start stop : ℤ)
    (shortSamples longSamples : List AttachedSample) (fusion : CplmLoopDynamicsProfile),
    samples ≠ [] → (∀ s ∈ samples, start ≤ s.eventTsMs ∧ s.eventTsMs < stop) → Flat config →
    Attached others (inJob w shortJob) () config samples shortSamples →
    Attached others (inJob w longJob) () config samples longSamples →
    Resolves (inJob w fusionJob) () config (recordRef longSamples) stop fusion →
      OneDecision instantText resolveDefault start stop shortSamples longSamples
        ⟨fusion, others () (recordRef longSamples)⟩ := by
  intro h
  have hdecision := h flowWorker (plantJob "cplm-short") (plantJob "cplm-long")
    (plantJob "cplm-fusion") (fun _ _ => []) (fun _ => "") noDefault plantConfig [flowSample 50]
    0 150 (flowAttached plantConfig 50) (flowAttached plantConfig 50) (flowProfile plantConfig 150)
    (by simp) (by simp [flowSample]) flat_plantConfig
    (attached_flow (run_plant _) (by simp [plantRun]) (by decide))
    (attached_flow (run_plant _) (by simp [plantRun]) (by decide)) resolves_end
  have hhash : ProfileHash.of (some ⟨flowProfile plantConfig 50, []⟩) =
      ProfileHash.of (some ⟨flowProfile plantConfig 150, []⟩) := congrArg Prod.fst hdecision.2.1
  have hlength := congrArg String.length hhash
  rw [ProfileHash.length_of_ungoverned (by decide),
    @ProfileHash.of_governed ⟨flowProfile plantConfig 150, []⟩ (cycles "APPLY" 100).view.contentHash
      (by decide) (by decide)] at hlength
  revert hlength
  decide

end TierDecision

end OpenBridge.Identity
