import OpenBridge.Identity.TierDecision

/-!
# Identity: results within one state-boundary epoch

A window waits when the bundle in force at its newest sample is a state boundary that took effect
after the window began.  A boundary that another bundle covers at the newest sample, or that takes
effect after it, is not seen: the window is evaluated over two epochs.
-/

namespace OpenBridge.Identity

open OpenBridge.Foundation
open OpenBridge.GateConfig
open OpenBridge.Samples
open EffectiveBundleSelector (entryInForce ReadsBack)
open BundleBroadcastHandler (Sound ContentKeyed Flat)

namespace EpochSupport

open TierDecision

def IsBoundary (e : ActiveEntry) : Prop := e.changeClass = "STATE_BOUNDARY"

def BoundaryInside (config : ActiveConfigState) (scopes : List String) (start stop : ℤ) : Prop :=
  ∃ e, IsBoundary e ∧ start < e.effectiveFromMs ∧ e.effectiveFromMs < stop ∧
    entryInForce config e.effectiveFromMs scopes = some e

def OneEpoch (config : ActiveConfigState) (scopes : List String) (r : StampedResult) : Prop :=
  r.evaluationState ≠ "WAITING" → ¬ BoundaryInside config scopes r.windowStartMs r.windowEndMs

/-- The entry in force at a time is a boundary that took effect after the start. -/
def Warming (config : ActiveConfigState) (scopes : List String) (start t : ℤ) : Prop :=
  ∃ e, entryInForce config t scopes = some e ∧ IsBoundary e ∧ start < e.effectiveFromMs

/-- A boundary inside a window is seen at its newest sample: the bundle in force there is a boundary
that took effect after the window began. -/
def BoundarySeen (config : ActiveConfigState) (scopes : List String) (start stop t : ℤ) : Prop :=
  BoundaryInside config scopes start stop → Warming config scopes start t

/-! ## Which windows wait -/

section Waiting

variable {α : Type} {others : α → LoopRef → List (String × String)} {w : ProfileWorker α}
  {attributes : α} {config : ActiveConfigState} {ref : LoopRef} {t start stop : ℤ}
  {p : CplmLoopDynamicsProfile} {base : BaseProfile} {texts : List (String × String)}
  {instantText : ℤ → String} {samples : List CplmNormalizedSample} {raw : List AttachedSample}
  {resolveDefault : Option String → Option String → Option String → ResolvedProfile}

theorem warmup_isSome {profile : ResolvedProfile} :
    (ResultIdentity.warmup instantText (some profile) start).isSome = true ↔
      profile.profile.bundleHash.isSome = true ∧
        profile.profile.bundleChangeClass = some "STATE_BOUNDARY" ∧
        start < profile.profile.bundleEffectiveFromMs := by
  unfold ResultIdentity.warmup
  rw [Option.map_some]
  dsimp only
  cases profile.profile.bundleHash with
  | none => simp
  | some hash =>
    dsimp only
    split
    · rename_i hskip
      constructor
      · intro h
        cases h
      · rintro ⟨-, hclass, hlt⟩
        exact absurd hskip (not_or.mpr ⟨not_not.mpr hclass, not_le.mpr hlt⟩)
    · rename_i hwait
      obtain ⟨hclass, hlt⟩ := not_or.mp hwait
      exact iff_of_true rfl ⟨rfl, not_not.mp hclass, not_le.mp hlt⟩

theorem warmup_iff (hflat : Flat config) (h : Resolves w attributes config ref t p)
    (hbase : w.baseProfile attributes ref.loopId ref.loopType ref.assetUuid = .ok base) :
    (ResultIdentity.warmup instantText (some ⟨p, texts⟩) start).isSome = true ↔
      Warming config (w.scopesOf ref base) start t := by
  obtain ⟨hp, hs, hkeyed⟩ := h.uncached
  have hreads := BundleBroadcastHandler.readsBack_of_flat hs hkeyed hflat
  rw [warmup_isSome]
  unfold Warming IsBoundary
  cases he : entryInForce config t (w.scopesOf ref base) with
  | none =>
    obtain rfl := identity_ungoverned hbase he hp
    refine iff_of_false ?_ ?_
    · rintro ⟨hhash, -⟩
      cases hhash
    · rintro ⟨e, hnone, -⟩
      cases hnone
  | some e =>
    obtain ⟨hhash, -, heffective, hclass⟩ := ProfileWorker.uncached_governed hreads hbase he hp
    rw [hhash, heffective, hclass]
    constructor
    · rintro ⟨-, hboundary, hlt⟩
      exact ⟨e, rfl, Option.some.inj hboundary, hlt⟩
    · rintro ⟨e₀, heq, hboundary, hlt⟩
      obtain rfl := Option.some.inj heq
      exact ⟨rfl, congrArg some hboundary, hlt⟩

theorem oneEpoch_of_waiting {scopes : List String} {r : StampedResult}
    (hwindow : r.windowStartMs = start ∧ r.windowEndMs = stop)
    (hstate : r.evaluationState = "WAITING" ↔ Warming config scopes start t) :
    OneEpoch config scopes r ↔ BoundarySeen config scopes start stop t := by
  unfold OneEpoch BoundarySeen
  rw [hwindow.1, hwindow.2, Ne, hstate]
  exact not_imp_not

end Waiting

/-! A plant that opens a new epoch at 100, inside a window from 50 to 150. -/

open ControlPlane.BundleEnvelope (Publication)
open ControlPlane.BundleEnvelope.Publication

private def boundary (phase : String) (effectiveFromMs : ℤ) : Publication :=
  { cycles phase effectiveFromMs with
    view := { (cycles phase effectiveFromMs).view with changeClass := "STATE_BOUNDARY" } }

private theorem canonical_boundary (phase : String) (t : ℤ) :
    (CanonicalJson.canonicalize (boundary phase t).document).isOk = true := by
  have h : (CanonicalJson.canonicalize (boundary "" 0).document).isOk = true := by decide +kernel
  exact h

private def boundaryConfig : ActiveConfigState :=
  BundleBroadcastHandler.applyBundle
    { ActiveConfigState.empty with
      prepared := Dict.empty.set (boundary "PREPARE" 100).view.contentHash
        (boundary "PREPARE" 100).document }
    (boundary "APPLY" 100).received (boundary "APPLY" 100).deploymentId

private def coveredConfig : ActiveConfigState :=
  BundleBroadcastHandler.applyBundle
    { boundaryConfig with
      prepared := boundaryConfig.prepared.set (samples "PREPARE" 120).view.contentHash
        (samples "PREPARE" 120).document }
    (samples "APPLY" 120).received (samples "APPLY" 120).deploymentId

private theorem flat_boundaryConfig : Flat boundaryConfig :=
  BundleBroadcastHandler.flat_prepare BundleBroadcastHandler.flat_empty rfl

private theorem flat_coveredConfig : Flat coveredConfig :=
  BundleBroadcastHandler.flat_prepare flat_boundaryConfig rfl

private def boundaryRun : List FnEvent :=
  [] ++ [.control ((boundary "PREPARE" 100).message "service-key")] ++
    [.control ((boundary "APPLY" 100).message "service-key")]

private def coveredRun : List FnEvent :=
  boundaryRun ++ [.control ((samples "PREPARE" 120).message "service-key")] ++
    [.control ((samples "APPLY" 120).message "service-key")]

private def shortWorker : ProfileWorker Unit := inJob flowWorker (plantJob "cplm-short")

private theorem run_boundary : shortWorker.run () boundaryRun =
    .ok ⟨(), boundaryConfig, Dict.empty, Dict.empty⟩ := by
  have hprepare := ProfileWorker.run_step
    (show shortWorker.run () [] = .ok (ProfileWorker.initial ()) from rfl)
    (ProfileWorker.step_control_message (by decide) (canonical_boundary _ 100)
      (handle_prepare_message (by decide) (canonical_boundary _ 100) rfl (by decide +kernel)))
  exact ProfileWorker.run_step hprepare (ProfileWorker.step_control_message (by decide)
    (canonical_boundary _ 100) (handle_apply_message (by decide) (canonical_boundary _ 100) rfl
      (by decide)))

private theorem run_covered : shortWorker.run () coveredRun =
    .ok ⟨(), coveredConfig, Dict.empty, Dict.empty⟩ := by
  have hprepare := ProfileWorker.run_step run_boundary
    (ProfileWorker.step_control_message (by decide) (canonical_samples _ 120)
      (handle_prepare_message (by decide) (canonical_samples _ 120) rfl (valid_samples _ _)))
  exact ProfileWorker.run_step hprepare (ProfileWorker.step_control_message (by decide)
    (canonical_samples _ 120) (handle_apply_message (by decide) (canonical_samples _ 120) rfl
      (by decide)))

private def flowPack : BaseProfile := ⟨some "FLOW_FAST_SELF_REG", fun f => neutralValue f.kind⟩

end EpochSupport

end OpenBridge.Identity
