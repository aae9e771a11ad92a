import OpenBridge.GateConfig.Reception

/-!
# Gate configuration: what an activation does to the past

A decision of the past keeps its bundle over an `APPLY` exactly when no entry that the `APPLY` takes
off the scope's list was in force before the new bundle's effective time.
-/

namespace OpenBridge.GateConfig

open OpenBridge.Foundation

namespace EffectiveBundleSelector

open BundleBroadcastHandler

variable {s s' : ActiveConfigState} {b : GateConfigBundle} {t : ℤ} {deploymentId : String}

/-- The selection of every loop at every time before `e` is the same in both states: the bundle,
its epoch, its effective time and its change class. -/
def NotRetroactive (s s' : ActiveConfigState) (e : ℤ) : Prop :=
  ∀ (site : String) (loopId gateProfileId : Option String) (t : ℤ), t < e →
    (select s' site loopId gateProfileId t Dict.empty).map (·.1.governs) =
      (select s site loopId gateProfileId t Dict.empty).map (·.1.governs)

/-- Each entry that an `APPLY` of the bundle takes off its scope's list takes effect at or after the
bundle, or is shadowed by an entry listed later with the same effective time. -/
def KeepsPast (s : ActiveConfigState) (b : GateConfigBundle) : Prop :=
  ∀ r ∈ s.entries b.scopeKey, r ∉ kept (s.entries b.scopeKey) b.hash →
    r.effectiveFromMs < b.effectiveFromMs →
      EffectiveDating.Shadowed ActiveEntry.effectiveFromMs (s.entries b.scopeKey) r

instance : Decidable (KeepsPast s b) :=
  inferInstanceAs (Decidable (∀ r ∈ s.entries b.scopeKey, _ → _ → _))

/-- What makes a removed entry visible: the scope is one that loops are selected from, the content
of every entry reads back under its hash, and a removed hash is active in no other scope. -/
structure Visible (s : ActiveConfigState) (b : GateConfigBundle) : Prop where
  selectable : b.scopeKind = "SITE" ∨ b.scopeKind = "PROFILE" ∨ b.scopeKind = "LOOP"
  readsBack : ∀ scope, ∀ e ∈ s.entries scope, ∃ c, stored s e.hash = .ok (some c) ∧ c.hash = e.hash
  unshared : ∀ r ∈ s.entries b.scopeKey, r ∉ kept (s.entries b.scopeKey) b.hash →
    ∀ scope ≠ b.scopeKey, ∀ x ∈ s.entries scope, x.hash ≠ r.hash

/-! ## The past is kept -/

theorem governing_applyBundle (ht : t < b.effectiveFromMs) (scope : String) :
    governing ((applyBundle s b deploymentId).entries scope) t =
      if scope = b.scopeKey then governing (kept (s.entries scope) b.hash) t
      else governing (s.entries scope) t := by
  rw [entries_applyBundle]
  split
  · rw [governing_eq, governing_eq]
    apply EffectiveDating.latest_concat_of_lt
    exact ht
  · rfl

theorem governing_of_keepsPast (hs : Sound s) (hk : KeepsPast s b) (ht : t < b.effectiveFromMs)
    (scope : String) : governing ((applyBundle s b deploymentId).entries scope) t =
      governing (s.entries scope) t := by
  rw [governing_applyBundle ht]
  split
  · rename_i h
    subst h
    refine EffectiveDating.latest_sublist (hs.distinct _).of_map (kept_sublist _ _) ?_
    exact fun r hr hgone hrt => hk r hr hgone (lt_of_le_of_lt hrt ht)
  · rfl

theorem stored_applyBundle (hash : String) :
    stored (applyBundle s b deploymentId) hash = stored s hash := rfl

theorem choice_applyBundle (hs : Sound s) (hk : KeepsPast s b) (ht : t < b.effectiveFromMs)
    (l : List String) : choice (applyBundle s b deploymentId) t l = choice s t l := by
  induction l with
  | nil => rfl
  | cons scope rest ih =>
    simp only [choice, governing_of_keepsPast hs hk ht, stored_applyBundle, ih]

theorem notRetroactive_of_keepsPast (hs : Sound s) (hk : KeepsPast s b) :
    NotRetroactive s (applyBundle s b deploymentId) b.effectiveFromMs := by
  intro site loopId gateProfileId t ht
  rw [select_governs, select_governs, choice_applyBundle hs hk ht]

/-! ## An entry that is lost is seen -/

theorem exists_fresh (keys : List String) (prefix_ : String) :
    ∃ name : String, prefix_ ++ name ∉ keys := by
  let bound := (keys.map String.length).foldr max 0
  have hbound : ∀ k ∈ keys, k.length ≤ bound := by
    intro k hk
    have : ∀ l : List ℕ, ∀ n ∈ l, n ≤ l.foldr max 0 := by
      intro l
      induction l with
      | nil => simp
      | cons a rest ih =>
        intro n hn
        rcases List.mem_cons.mp hn with rfl | hn
        · exact le_max_left _ _
        · exact le_trans (ih n hn) (le_max_right _ _)
    exact this _ _ (List.mem_map_of_mem hk)
  refine ⟨String.ofList (List.replicate (bound + 1) 'x'), fun h => ?_⟩
  have := hbound _ h
  simp only [String.length_append, String.length_ofList, List.length_replicate] at this
  omega

theorem entries_of_not_mem {scope : String} (h : scope ∉ s.active.keys) : s.entries scope = [] := by
  simp [ActiveConfigState.entries, Dict.get?_eq_none_iff.mpr h]

theorem exists_loop (h : b.scopeKind = "SITE" ∨ b.scopeKind = "PROFILE" ∨ b.scopeKind = "LOOP") :
    ∃ (loopId gateProfileId : Option String) (pre rest : List String),
      scopes b.site loopId gateProfileId = pre ++ b.scopeKey :: rest ∧
        ∀ scope ∈ pre, s.entries scope = [] := by
  obtain ⟨loop, hloop⟩ := exists_fresh s.active.keys ("LOOP" ++ ":" ++ b.site ++ "/")
  obtain ⟨profile, hprofile⟩ := exists_fresh s.active.keys ("PROFILE" ++ ":" ++ b.site ++ "/")
  let freshLoop := GateConfigBundle.scopeKeyOf "LOOP" b.site (some loop)
  let freshProfile := GateConfigBundle.scopeKeyOf "PROFILE" b.site (some profile)
  let site := GateConfigBundle.scopeKeyOf "SITE" b.site none
  have hl : s.entries freshLoop = [] := entries_of_not_mem hloop
  have hp : s.entries freshProfile = [] := entries_of_not_mem hprofile
  rcases h with h | h | h
  · refine ⟨some loop, some profile, [freshLoop, freshProfile], [], ?_, ?_⟩
    · simp [scopes, GateConfigBundle.scopeKey, GateConfigBundle.scopeKeyOf, h, freshLoop,
        freshProfile]
    · simp [hl, hp]
  · refine ⟨some loop, b.profileId, [freshLoop], [site], ?_, ?_⟩
    · simp [scopes, GateConfigBundle.scopeKey, h, freshLoop, site]
    · simp [hl]
  · refine ⟨b.loopId, none, [], [GateConfigBundle.scopeKeyOf "PROFILE" b.site none, site], ?_, ?_⟩
    · simp [scopes, GateConfigBundle.scopeKey, h, site]
    · simp

theorem choice_append {pre rest : List String} (h : ∀ scope ∈ pre, s.entries scope = []) :
    choice s t (pre ++ rest) = choice s t rest := by
  induction pre with
  | nil => rfl
  | cons scope pre ih =>
    rw [List.cons_append, choice, h scope (by simp)]
    exact ih fun x hx => h x (by simp [hx])

theorem hash_ne_of_choice (hs : Sound s) (hv : Visible s b) {r : ActiveEntry}
    (hr : r ∈ s.entries b.scopeKey) (hgone : r ∉ kept (s.entries b.scopeKey) b.hash)
    (ht : t < b.effectiveFromMs) {l : List String} {x : Selected}
    (h : choice (applyBundle s b deploymentId) t l = .ok (some x)) :
    x.bundle.map (·.hash) ≠ some r.hash := by
  obtain ⟨scope, e, c, he, hc, rfl⟩ := choice_cases h
  -- the chosen entry was active before, and is not of the hash that went
  have hmem : e ∈ s.entries scope ∧ e.hash ≠ r.hash := by
    rw [governing_applyBundle ht] at he
    split at he
    · rename_i hscope
      subst hscope
      have hek := (EffectiveDating.latest_mem he).1
      have hel := (kept_sublist _ _).subset hek
      refine ⟨hel, fun heq => hgone ?_⟩
      rw [← List.inj_on_of_nodup_map (hs.distinct _) hel hr heq]
      exact hek
    · rename_i hscope
      have hel := (EffectiveDating.latest_mem he).1
      exact ⟨hel, hv.unshared r hr hgone scope hscope e hel⟩
  obtain ⟨c', hc', hhash⟩ := hv.readsBack scope e hmem.1
  rw [stored_applyBundle, hc'] at hc
  simp only [Except.ok.injEq, Option.some.injEq] at hc
  subst hc
  simp only [selectedOf, Option.map_some, ne_eq, Option.some.injEq, hhash]
  exact hmem.2

theorem keepsPast_of_notRetroactive (hs : Sound s) (hv : Visible s b)
    (h : NotRetroactive s (applyBundle s b deploymentId) b.effectiveFromMs) : KeepsPast s b := by
  intro r hr hgone hlt
  by_contra hshadow
  obtain ⟨loopId, gateProfileId, pre, rest, hscopes, hempty⟩ := @exists_loop s b hv.selectable
  obtain ⟨c, hc, hhash⟩ := hv.readsBack _ r hr
  -- when the removed entry took effect, it governed the loop
  have hgov : governing (s.entries b.scopeKey) r.effectiveFromMs = some r :=
    EffectiveDating.latest_self hr (hs.distinct _).of_map hshadow
  have hbefore : choice s r.effectiveFromMs (scopes b.site loopId gateProfileId) =
      .ok (some (selectedOf c r)) := by
    rw [hscopes, choice_append hempty]
    simp only [choice, hgov, hc]
  have hsame := h b.site loopId gateProfileId r.effectiveFromMs hlt
  rw [select_governs, select_governs, hbefore] at hsame
  cases hafter : choice (applyBundle s b deploymentId) r.effectiveFromMs
      (scopes b.site loopId gateProfileId) with
  | error e => simp [hafter, Except.map] at hsame
  | ok x =>
    rw [hafter] at hsame
    cases x with
    | none => simp [Except.map, ofChoice, Selected.governs, selectedOf] at hsame
    | some x =>
      simp only [Except.map, Except.ok.injEq, ofChoice, Selected.governs, Prod.mk.injEq] at hsame
      refine hash_ne_of_choice hs hv hr hgone hlt hafter ?_
      rw [hsame.1]
      simp [selectedOf, hhash]

/-- **An activation is not retroactive exactly when the past is kept**, in every state a worker
reaches, where removed entries are visible. -/
theorem apply_not_retroactive {jobName : String} {hmacKey : Option String}
    {messages : List (Except String Json)} {root : Json}
    (hreached : after jobName hmacKey messages = .ok s)
    (happlied : applied jobName hmacKey root s = some (b, s')) :
    (KeepsPast s b → NotRetroactive s s' b.effectiveFromMs) ∧
      (Visible s b → (NotRetroactive s s' b.effectiveFromMs ↔ KeepsPast s b)) := by
  obtain ⟨-, rfl⟩ := applied_cases happlied
  have hs := sound_after hreached
  refine ⟨notRetroactive_of_keepsPast hs, fun hv => ⟨?_, notRetroactive_of_keepsPast hs⟩⟩
  exact keepsPast_of_notRetroactive hs hv

open ControlPlane.BundleEnvelope (Publication)
open ControlPlane.BundleEnvelope.Publication

/-! A plant that activates one bundle at 100, a second at 200, and the first again at 300. -/

private def afterFirst : ActiveConfigState :=
  let prepared := { ActiveConfigState.empty with
    prepared := Dict.empty.set (cycles "PREPARE" 100).view.contentHash (cycles "PREPARE" 100).document }
  let active := applyBundle prepared (cycles "APPLY" 100).received (cycles "APPLY" 100).deploymentId
  { active with
    prepared := active.prepared.set (samples "PREPARE" 200).view.contentHash
      (samples "PREPARE" 200).document }

private def afterSecond : ActiveConfigState :=
  applyBundle afterFirst (samples "APPLY" 200).received (samples "APPLY" 200).deploymentId

private def firstMessages : List (Except String Json) :=
  [] ++ [(cycles "PREPARE" 100).message "service-key"] ++
    [(cycles "APPLY" 100).message "service-key"] ++ [(samples "PREPARE" 200).message "service-key"]

private def secondMessages : List (Except String Json) :=
  firstMessages ++ [(samples "APPLY" 200).message "service-key"]

private theorem reached_first :
    after "cplm-gates" (some "service-key") firstMessages = .ok afterFirst := by
  have h₁ := after_step (show after "cplm-gates" (some "service-key") [] = .ok .empty from rfl)
    (handle_prepare_message (by decide) (canonical_cycles _ 100) rfl (valid_cycles _ _))
  have h₂ := after_step h₁
    (handle_apply_message (by decide) (canonical_cycles _ 100) rfl (by decide))
  exact after_step h₂
    (handle_prepare_message (by decide) (canonical_samples _ 200) rfl (valid_samples _ _))

private theorem reached_second :
    after "cplm-gates" (some "service-key") secondMessages = .ok afterSecond :=
  after_step reached_first
    (handle_apply_message (by decide) (canonical_samples _ 200) rfl (by decide))

/-- Activating the second bundle takes nothing off the list: the past is kept. -/
theorem second_activation_not_retroactive : NotRetroactive afterFirst afterSecond 200 := by
  obtain ⟨signature, hroot, -⟩ :=
    @message_verifies (samples "APPLY" 200) "service-key" (by decide) (canonical_samples _ _)
  exact (apply_not_retroactive reached_first (applied_message (by decide) (canonical_samples _ _) rfl
    (by decide) hroot)).1 (by decide)

/-- Activating the first bundle again at 300 changes the decision at 150: it is governed by no
bundle afterwards. -/
theorem reactivation_is_retroactive :
    ¬ ∀ (messages : List (Except String Json)) (s s' : ActiveConfigState) (root : Json)
        (b : GateConfigBundle), after "cplm-gates" (some "service-key") messages = .ok s →
      applied "cplm-gates" (some "service-key") root s = some (b, s') →
        NotRetroactive s s' b.effectiveFromMs := by
  intro h
  obtain ⟨signature, hroot, -⟩ :=
    @message_verifies (cycles "APPLY" 300) "service-key" (by decide) (canonical_cycles _ _)
  have happlied := @applied_message (cycles "APPLY" 300) "cplm-gates" "service-key" afterSecond _
    (by decide) (canonical_cycles _ _) rfl (by decide) hroot
  have hsame := h secondMessages afterSecond _ _ _ reached_second happlied "plant-1" (some "FIC-101")
    (some "FLOW_FAST_SELF_REG") 150 (by decide)
  have hhash := congrArg (Except.map fun g => g.1.map (·.hash)) hsame
  revert hhash
  decide

end EffectiveBundleSelector

end OpenBridge.GateConfig
