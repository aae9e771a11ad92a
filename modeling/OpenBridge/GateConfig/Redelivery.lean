import OpenBridge.GateConfig.Reception

/-!
# Gate configuration: an `APPLY` that is delivered twice

The second delivery is accepted as the first was.
-/

namespace OpenBridge.GateConfig

open OpenBridge.Foundation

namespace BundleBroadcastHandler

variable {jobName : String} {hmacKey : Option String} {s s' : ActiveConfigState} {root : Json}
  {b : GateConfigBundle}

def later (jobName : String) (hmacKey : Option String) (messages : List (Except String Json))
    (s : ActiveConfigState) : Except String ActiveConfigState :=
  messages.foldlM (fun s m => (handle jobName hmacKey m s).map Prod.fst) s

def laterSelection (jobName : String) (hmacKey : Option String)
    (messages : List (Except String Json)) (site : String) (loopId gateProfileId : Option String)
    (t : ℤ) (s : ActiveConfigState) : Except String Selected :=
  (later jobName hmacKey messages s).bind fun s =>
    (EffectiveBundleSelector.select s site loopId gateProfileId t Dict.empty).map Prod.fst

/-- Two states with the same active lists and epoch, and the same selections from here on. -/
structure Unchanged (jobName : String) (hmacKey : Option String) (s s' : ActiveConfigState) :
    Prop where
  entries : ∀ scope, s'.entries scope = s.entries scope
  epoch : s'.epoch = s.epoch
  selections : ∀ messages site loopId gateProfileId t,
    laterSelection jobName hmacKey messages site loopId gateProfileId t s' =
      laterSelection jobName hmacKey messages site loopId gateProfileId t s

theorem Unchanged.refl (s : ActiveConfigState) : Unchanged jobName hmacKey s s :=
  ⟨fun _ => rfl, rfl, fun _ _ _ _ _ => rfl⟩

/-! ## The second delivery is accepted -/

/-- What an accepted `APPLY` passed: the checks on the message do not read the state. -/
structure Acceptable (hmacKey : Option String) (root : Json) (b : GateConfigBundle) : Prop where
  record : isBundleRecord root = true
  parsed : GateConfigBundle.parse root = .ok b
  signed : verify root hmacKey = .ok none
  phase : (root.get "phase").asText "PREPARE" = "APPLY"

theorem acceptable_of_handle {acks : List ConfigAck} {ack : ConfigAck}
    (h : handle jobName hmacKey (.ok root) s = .ok (s', acks)) (hmem : ack ∈ acks)
    (hphase : ack.phase = "APPLY") (hreason : ack.reason = none)
    (hb : GateConfigBundle.parse root = .ok b) : Acceptable hmacKey root b := by
  unfold handle at h
  dsimp only at h
  split at h
  · cases h
    cases hmem
  · rename_i hrecord
    rw [hb] at h
    dsimp only at h
    cases hv : verify root hmacKey with
    | error e =>
      rw [hv] at h
      cases h
    | ok unsigned =>
      rw [hv] at h
      cases unsigned with
      | some reason =>
        cases h
        obtain rfl := List.mem_singleton.mp hmem
        cases hreason
      | none =>
        refine ⟨not_not.mp hrecord, hb, hv, ?_⟩
        simp only [bind, Except.bind] at h
        split at h
        · rename_i hp
          cases hvalid : b.validate jobName with
          | error e =>
            rw [hvalid] at h
            cases h
          | ok reasons =>
            rw [hvalid] at h
            dsimp only at h
            split at h
            · cases h
              obtain rfl := List.mem_singleton.mp hmem
              exact hphase
            · split at h
              · cases h
              · cases h
                obtain rfl := List.mem_singleton.mp hmem
                exact hphase
        · split at h
          · rename_i hp
            exact hp
          · cases h
            obtain rfl := List.mem_singleton.mp hmem
            exact hphase

theorem acceptable_of_applied (h : applied jobName hmacKey root s = some (b, s')) :
    Acceptable hmacKey root b := by
  unfold applied at h
  split at h
  · rename_i s₁ ack b₁ hh hb
    split at h
    · rename_i hack
      simp only [Option.some.injEq, Prod.mk.injEq] at h
      obtain ⟨rfl, rfl⟩ := h
      exact acceptable_of_handle hh (List.mem_singleton.mpr rfl) hack.1 hack.2 hb
    · cases h
  · cases h

theorem applied_of_acceptable (h : Acceptable hmacKey root b)
    (hprepared : s.prepared.contains b.hash = true) :
    applied jobName hmacKey root s =
      some (b, applyBundle s b ((root.get "deployment_id").asText "")) := by
  unfold applied
  rw [handle_apply h.record h.parsed h.signed h.phase hprepared, h.parsed]
  exact if_pos ⟨rfl, rfl⟩

/-! ## What it does to the state -/

theorem kept_of_filter {list others : List ActiveEntry} {hash : String}
    (h : list.filter (fun e => e.hash ≠ hash) = others) (hlength : others.length + 1 ≤ activeHistory) :
    kept list hash = others := by
  unfold kept
  dsimp only
  rw [h, Nat.sub_eq_zero_of_le hlength, List.drop_zero]

theorem kept_activated (list : List ActiveEntry) (entry : ActiveEntry) :
    kept (kept list entry.hash ++ [entry]) entry.hash = kept list entry.hash := by
  refine kept_of_filter ?_ ?_
  · have hothers : (kept list entry.hash).filter (fun e => e.hash ≠ entry.hash) =
        kept list entry.hash :=
      List.filter_eq_self.mpr fun e he => decide_eq_true (hash_ne_of_mem_kept he)
    rw [List.filter_append, hothers]
    simp
  · simp only [kept, List.length_drop, activeHistory]
    omega

theorem nextEpoch_ne (epoch : ℤ) : nextEpoch epoch "STATE_BOUNDARY" ≠ epoch := by
  intro h
  have hmod : Int.bmod (epoch + 1) (2 ^ 32) = epoch := h
  have hemod : Int.bmod (epoch + 1) (2 ^ 32) % (2 ^ 32 : ℕ) = (epoch + 1) % (2 ^ 32 : ℕ) :=
    Int.bmod_emod
  rw [hmod] at hemod
  omega

theorem applyBundle_applyBundle (h : b.changeClass ≠ "STATE_BOUNDARY") (deploymentId : String) :
    applyBundle (applyBundle s b deploymentId) b deploymentId = applyBundle s b deploymentId := by
  have hepoch (epoch : ℤ) : nextEpoch epoch b.changeClass = epoch := if_neg h
  have hentries := entries_applyBundle s b deploymentId b.scopeKey
  rw [if_pos rfl, hepoch] at hentries
  have hkept := kept_activated (s.entries b.scopeKey)
    ⟨b.hash, b.bundleId, b.effectiveFromMs, s.epoch, b.changeClass, deploymentId⟩
  generalize hs : applyBundle s b deploymentId = s' at hentries
  have hactive : s'.active = s.active.set b.scopeKey (s'.entries b.scopeKey) := by
    rw [hentries, ← hs]
    unfold applyBundle
    dsimp only
    rw [activate_eq, hepoch]
  have hepoch' : s'.epoch = s.epoch := by
    rw [← hs]
    exact hepoch s.epoch
  unfold applyBundle
  dsimp only
  rw [activate_eq, hepoch, hepoch', hentries, hkept, ← hentries, hactive, Dict.set_set, ← hactive]
  rw [← hepoch']

theorem unchanged_iff (deploymentId : String) :
    Unchanged jobName hmacKey (applyBundle s b deploymentId)
        (applyBundle (applyBundle s b deploymentId) b deploymentId) ↔
      b.changeClass ≠ "STATE_BOUNDARY" := by
  constructor
  · intro h hboundary
    have hepoch : nextEpoch (nextEpoch s.epoch b.changeClass) b.changeClass =
        nextEpoch s.epoch b.changeClass := h.epoch
    rw [hboundary] at hepoch
    exact nextEpoch_ne _ hepoch
  · intro h
    rw [applyBundle_applyBundle h]
    exact .refl _

/-- **Redelivery**: in every reachable state an accepted `APPLY` that is delivered again is accepted
again, and changes nothing exactly when it is no state boundary. -/
theorem redelivered_apply {messages : List (Except String Json)}
    (_ : after jobName hmacKey messages = .ok s)
    (happly : applied jobName hmacKey root s = some (b, s')) :
    ∃ s'', applied jobName hmacKey root s' = some (b, s'') ∧
      (Unchanged jobName hmacKey s' s'' ↔ b.changeClass ≠ "STATE_BOUNDARY") := by
  obtain ⟨hprepared, rfl⟩ := applied_cases happly
  exact ⟨_, applied_of_acceptable (acceptable_of_applied happly) hprepared, unchanged_iff _⟩

/-! A worker that has prepared the bundle of complete cycles. -/

open ControlPlane.BundleEnvelope
open ControlPlane.BundleEnvelope.Publication

private theorem reads_prepare {p : Publication}
    (hcanonical : (CanonicalJson.canonicalize p.document).isOk = true) (hphase : p.phase = "PREPARE")
    (hvalid : p.received.validate "cplm-gates" = .ok []) :
    ∃ messages s, after "cplm-gates" (some "service-key") messages = .ok s ∧
      s.prepared.contains p.view.contentHash = true := by
  refine ⟨[] ++ [p.message "service-key"], _,
    after_step (show after "cplm-gates" (some "service-key") [] = .ok .empty from rfl)
      (handle_prepare_message (by decide) hcanonical hphase hvalid), ?_⟩
  unfold Dict.contains
  rw [Dict.get?_set_self]
  rfl

private theorem applies_message {p : Publication} (s : ActiveConfigState)
    (hcanonical : (CanonicalJson.canonicalize p.document).isOk = true) (hphase : p.phase = "APPLY")
    (hprepared : s.prepared.contains p.view.contentHash = true) :
    ∃ root s', applied "cplm-gates" (some "service-key") root s = some (p.received, s') := by
  obtain ⟨signature, hmessage, -⟩ := @message_verifies p "service-key" (by decide) hcanonical
  exact ⟨_, _, applied_message (by decide) hcanonical hphase hprepared hmessage⟩

/-- A policy bundle that is applied twice. -/
theorem redelivered_policy :
    ∃ root s s' s'', applied "cplm-gates" (some "service-key") root s =
        some ((cycles "APPLY" 100).received, s') ∧
      applied "cplm-gates" (some "service-key") root s' =
        some ((cycles "APPLY" 100).received, s'') ∧
      Unchanged "cplm-gates" (some "service-key") s' s'' := by
  obtain ⟨messages, s, hreads, hprepared⟩ :=
    reads_prepare (canonical_cycles "PREPARE" 100) rfl (valid_cycles _ _)
  obtain ⟨root, s', happly⟩ := applies_message s (canonical_cycles "APPLY" 100) rfl hprepared
  obtain ⟨s'', hagain, hsame⟩ := redelivered_apply hreads happly
  exact ⟨root, s, s', s'', happly, hagain, hsame.mpr (by decide)⟩

private def switchover (phase : String) : Publication :=
  { cycles phase 100 with
    view := { (cycles phase 100).view with changeClass := "STATE_BOUNDARY" } }

private theorem canonical_switchover (phase : String) :
    (CanonicalJson.canonicalize (switchover phase).document).isOk = true := by
  have h : (CanonicalJson.canonicalize (switchover "").document).isOk = true := by decide +kernel
  exact h

/-- A state boundary that is delivered twice opens two epochs. -/
theorem boundary_applied_twice :
    ¬ ∀ (messages : List (Except String Json)) (s s' s'' : ActiveConfigState) (root : Json)
        (b : GateConfigBundle),
      after "cplm-gates" (some "service-key") messages = .ok s →
        applied "cplm-gates" (some "service-key") root s = some (b, s') →
          applied "cplm-gates" (some "service-key") root s' = some (b, s'') →
            Unchanged "cplm-gates" (some "service-key") s' s'' := by
  intro h
  obtain ⟨messages, s, hreads, hprepared⟩ :=
    @reads_prepare (switchover "PREPARE") (canonical_switchover _) rfl (by decide +kernel)
  obtain ⟨root, s', happly⟩ :=
    @applies_message (switchover "APPLY") s (canonical_switchover _) rfl hprepared
  obtain ⟨-, rfl⟩ := applied_cases happly
  exact (unchanged_iff _).mp (h messages s _ _ root _ hreads happly
    (applied_of_acceptable (acceptable_of_applied happly) hprepared)) rfl

end BundleBroadcastHandler

end OpenBridge.GateConfig
