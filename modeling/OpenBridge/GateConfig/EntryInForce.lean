import OpenBridge.GateConfig.ProfileBroadcastFn

/-!
# Gate configuration: the entry in force

The decision of a loop at a time in terms of the active lists: the first of its scopes with an entry
in force.
-/

namespace OpenBridge.GateConfig

open OpenBridge.Foundation

namespace EffectiveBundleSelector

def entryInForce (s : ActiveConfigState) (t : ℤ) (scopes : List String) : Option ActiveEntry :=
  scopes.findSome? fun scope => governing (s.entries scope) t

variable {s : ActiveConfigState} {t t' : ℤ} {l : List String} {e : ActiveEntry}

theorem entryInForce_mem (h : entryInForce s t l = some e) :
    ∃ scope ∈ l, e ∈ s.entries scope ∧ e.effectiveFromMs ≤ t := by
  obtain ⟨scope, hscope, hg⟩ := List.exists_of_findSome?_eq_some h
  exact ⟨scope, hscope, EffectiveDating.latest_mem hg⟩

theorem entryInForce_of_le (h : entryInForce s t' l = some e) (he : e.effectiveFromMs ≤ t)
    (ht : t ≤ t') : entryInForce s t l = some e := by
  induction l with
  | nil => cases h
  | cons scope rest ih =>
    unfold entryInForce at h ⊢
    rw [List.findSome?_cons] at h ⊢
    cases hg : governing (s.entries scope) t' with
    | none =>
      rw [hg] at h
      rw [governing_eq, EffectiveDating.latest_none_of_le hg ht]
      exact ih h
    | some g =>
      rw [hg] at h
      obtain rfl : g = e := Option.some.inj h
      rw [governing_eq, EffectiveDating.latest_of_le hg he ht]

def ReadsBack (s : ActiveConfigState) : Prop :=
  ∀ scope, ∀ e ∈ s.entries scope, ∃ c, stored s e.hash = .ok (some c) ∧ c.hash = e.hash

theorem choice_of_entryInForce (hs : ReadsBack s) (h : entryInForce s t l = some e) :
    ∃ c, choice s t l = .ok (some (selectedOf c e)) ∧ c.hash = e.hash := by
  induction l with
  | nil => cases h
  | cons scope rest ih =>
    unfold entryInForce at h
    rw [List.findSome?_cons] at h
    simp only [choice]
    cases hg : governing (s.entries scope) t with
    | none =>
      rw [hg] at h
      exact ih h
    | some g =>
      rw [hg] at h
      obtain rfl : g = e := Option.some.inj h
      obtain ⟨c, hc, hhash⟩ := hs scope g (EffectiveDating.latest_mem hg).1
      exact ⟨c, by simp only [hc], hhash⟩

theorem choice_of_entryInForce_none (h : entryInForce s t l = none) : choice s t l = .ok none := by
  induction l with
  | nil => rfl
  | cons scope rest ih =>
    unfold entryInForce at h
    rw [List.findSome?_cons] at h
    simp only [choice]
    cases hg : governing (s.entries scope) t with
    | none =>
      rw [hg] at h
      exact ih h
    | some g =>
      rw [hg] at h
      cases h

theorem apply_selectedOf {p q : CplmLoopDynamicsProfile} {b : GateConfigBundle}
    (h : apply p (ofChoice 0 (some (selectedOf b e))) = .ok q) :
    q.bundleHash = some b.hash ∧ q.bundleEpoch = e.epoch ∧
      q.bundleEffectiveFromMs = e.effectiveFromMs ∧ q.bundleChangeClass = some e.changeClass := by
  simp only [apply, ofChoice, selectedOf, bind, Except.bind] at h
  split at h
  · cases h
  · simp only [Except.ok.injEq] at h
    subst h
    exact ⟨rfl, rfl, rfl, rfl⟩

end EffectiveBundleSelector

/-! ## The prepared documents -/

namespace BundleBroadcastHandler

open EffectiveBundleSelector (stored ReadsBack)

variable {jobName : String} {hmacKey : Option String} {s s' : ActiveConfigState} {root : Json}
  {acks : List ConfigAck}

/-- Every prepared hash is the digest of a content, and a document that carries no other document
reads back under it. -/
def ContentKeyed (s : ActiveConfigState) : Prop :=
  ∀ hash doc, s.prepared.get? hash = some doc →
    (∃ content, hash = CanonicalJson.sha256Hex content) ∧
      (doc.get "bundle" = none → ∃ b, GateConfigBundle.parse doc = .ok b ∧ b.hash = hash)

theorem hash_of_validate {b : GateConfigBundle} (h : b.validate jobName = .ok []) :
    ∃ content, b.hash = CanonicalJson.sha256Hex content := by
  unfold GateConfigBundle.validate at h
  cases hr : b.recomputedHash with
  | error message =>
    rw [hr] at h
    cases h
  | ok recomputed =>
    rw [hr] at h
    have hreasons := Except.ok.inj h
    simp only [List.append_eq_nil_iff, GateConfigBundle.identityReasons] at hreasons
    have hhash := hreasons.1.1.1.1.1.1.2
    split at hhash
    · rename_i hboth
      unfold GateConfigBundle.recomputedHash CanonicalJson.sha256 at hr
      cases hc : CanonicalJson.canonicalize (.object [
          ("layers", (b.bundle.get "layers").getD .null),
          ("resolved", (b.bundle.get "resolved").getD .null)]) with
      | error message =>
        rw [hc] at hr
        cases hr
      | ok content =>
        rw [hc] at hr
        exact ⟨content, hboth.2.trans (Except.ok.inj hr).symm⟩
    · cases hhash

theorem parse_document {doc : Json} {b : GateConfigBundle} (hb : GateConfigBundle.parse root = .ok b)
    (hdoc : root.get "bundle" = some doc) (hflat : doc.get "bundle" = none) :
    ∃ c, GateConfigBundle.parse doc = .ok c ∧ c.hash = b.hash := by
  have hroot : GateConfigBundle.document root = doc := by simp [GateConfigBundle.document, hdoc]
  have hself : GateConfigBundle.document doc = doc := by simp [GateConfigBundle.document, hflat]
  unfold GateConfigBundle.parse at hb ⊢
  rw [hroot] at hb
  rw [hself]
  dsimp only at hb ⊢
  split at hb
  · cases hb
  · rename_i hfields
    rw [if_neg hfields]
    obtain rfl := Except.ok.inj hb
    exact ⟨_, rfl, rfl⟩

theorem Effect.contentKeyed (h : Effect jobName root s s' acks) (hs : ContentKeyed s) :
    ContentKeyed s' := by
  cases h with
  | rest => exact hs
  | prepare b doc hb hvalid hdoc hphase =>
    intro hash doc' hget
    rw [Dict.get?_set] at hget
    split at hget
    · rename_i heq
      obtain rfl : doc = doc' := Option.some.inj hget
      rw [heq]
      exact ⟨hash_of_validate hvalid, parse_document hb hdoc⟩
    · exact hs hash doc' hget
  | apply b hb hprepared hphase => exact hs

theorem handle_contentKeyed {json : Except String Json}
    (h : handle jobName hmacKey json s = .ok (s', acks)) (hs : ContentKeyed s) :
    ContentKeyed s' := by
  cases json with
  | error e =>
    simp only [handle, Except.ok.injEq, Prod.mk.injEq] at h
    exact h.1 ▸ hs
  | ok root => exact (handle_effect h).contentKeyed hs

theorem contentKeyed_empty : ContentKeyed ActiveConfigState.empty := by
  intro hash doc h
  simp [ActiveConfigState.empty] at h

def Flat (s : ActiveConfigState) : Prop :=
  ∀ hash doc, s.prepared.get? hash = some doc → doc.get "bundle" = none

theorem flat_empty : Flat ActiveConfigState.empty := by
  intro hash doc h
  simp [ActiveConfigState.empty] at h

theorem flat_prepare (h : Flat s) {hash : String} {doc : Json} (hdoc : doc.get "bundle" = none) :
    Flat { s with prepared := s.prepared.set hash doc } := by
  intro hash' doc' hget
  rw [Dict.get?_set] at hget
  split at hget
  · rw [← Option.some.inj hget]
    exact hdoc
  · exact h hash' doc' hget

theorem readsBack_of_flat (hs : Sound s) (hkeyed : ContentKeyed s) (hflat : Flat s) :
    ReadsBack s := by
  intro scope e he
  have hcontains := hs.prepared scope e he
  simp only [Dict.contains] at hcontains
  obtain ⟨doc, hdoc⟩ := Option.isSome_iff_exists.mp hcontains
  obtain ⟨b, hb, hhash⟩ := (hkeyed _ doc hdoc).2 (hflat _ doc hdoc)
  exact ⟨b, by simp [stored, hdoc, hb, Except.map], hhash⟩

theorem hash_of_active (hs : Sound s) (hkeyed : ContentKeyed s) {scope : String} {e : ActiveEntry}
    (he : e ∈ s.entries scope) : ∃ content, e.hash = CanonicalJson.sha256Hex content := by
  have hcontains := hs.prepared scope e he
  simp only [Dict.contains] at hcontains
  obtain ⟨doc, hdoc⟩ := Option.isSome_iff_exists.mp hcontains
  exact (hkeyed _ doc hdoc).1

end BundleBroadcastHandler

/-! ## What a worker resolves -/

namespace ProfileWorker

open EffectiveBundleSelector

variable {α : Type} {w : ProfileWorker α} {s s' : FnState α} {attributes : α}
  {config : ActiveConfigState} {ref : LoopRef} {t : ℤ}

theorem config_run {P : ActiveConfigState → Prop} (hempty : P ActiveConfigState.empty)
    (hhandle : ∀ value s s' acks, BundleBroadcastHandler.handle w.jobName w.hmacKey value s =
      .ok (s', acks) → P s → P s')
    {events : List FnEvent} (h : w.run attributes events = .ok s) : P s.config := by
  induction events using List.reverseRecOn generalizing s with
  | nil =>
    simp only [run, List.foldlM_nil, pure, Except.pure, Except.ok.injEq] at h
    subst h
    exact hempty
  | append_singleton events e ih =>
    rw [run_concat] at h
    cases hpre : w.run attributes events with
    | error err => simp [hpre, Except.bind] at h
    | ok s₁ =>
      simp only [hpre, Except.bind] at h
      have hs₁ := ih hpre
      cases e with
      | control value =>
        cases value with
        | error err =>
          simp only [step, processBroadcastElement, Except.ok.injEq] at h
          exact h ▸ hs₁
        | ok root =>
          simp only [step, processBroadcastElement] at h
          split at h
          · cases hh : BundleBroadcastHandler.handle w.jobName w.hmacKey (.ok root) s₁.config with
            | error err => simp [hh, bind, Except.bind] at h
            | ok next =>
              simp only [hh, bind, Except.bind, Except.ok.injEq] at h
              subst h
              exact hhandle _ _ _ _ hh hs₁
          · simp only [Except.ok.injEq] at h
            subst h
            exact hs₁
      | resolve ref t =>
        cases hr : w.resolve s₁ ref t with
        | error err => simp [step, hr, Except.map] at h
        | ok r =>
          simp only [step, hr, Except.map, Except.ok.injEq] at h
          subst h
          simp only [resolve] at hr
          split at hr
          · simp only [Except.ok.injEq] at hr
            subst hr
            exact hs₁
          · simp only [bind, Except.bind] at hr
            split at hr
            · cases hr
            · split at hr
              · cases hr
              · split at hr
                · cases hr
                · simp only [Except.ok.injEq] at hr
                  subst hr
                  exact hs₁
      | restore =>
        simp only [step, Except.ok.injEq] at h
        subst h
        exact hs₁

theorem contentKeyed_run {events : List FnEvent} (h : w.run attributes events = .ok s) :
    BundleBroadcastHandler.ContentKeyed s.config :=
  config_run BundleBroadcastHandler.contentKeyed_empty
    (fun _ _ _ _ hh hs => BundleBroadcastHandler.handle_contentKeyed hh hs) h

theorem uncached_governed (hs : ReadsBack config) {base : BaseProfile}
    (hbase : w.baseProfile attributes ref.loopId ref.loopType ref.assetUuid = .ok base)
    {e : ActiveEntry} (he : entryInForce config t (w.scopesOf ref base) = some e)
    {p : CplmLoopDynamicsProfile} (h : w.uncached attributes config ref t = .ok p) :
    p.bundleHash = some e.hash ∧ p.bundleEpoch = e.epoch ∧
      p.bundleEffectiveFromMs = e.effectiveFromMs ∧ p.bundleChangeClass = some e.changeClass := by
  obtain ⟨c, hc, hhash⟩ := choice_of_entryInForce hs he
  simp only [uncached_eq, hbase, Except.bind, hc] at h
  rw [← hhash]
  exact apply_selectedOf h

theorem uncached_ungoverned {base : BaseProfile}
    (hbase : w.baseProfile attributes ref.loopId ref.loopType ref.assetUuid = .ok base)
    (he : entryInForce config t (w.scopesOf ref base) = none) :
    w.uncached attributes config ref t = .ok base.toProfile := by
  simp only [uncached_eq, hbase, Except.bind, choice_of_entryInForce_none he]
  rfl

theorem base_of_uncached {p : CplmLoopDynamicsProfile}
    (h : w.uncached attributes config ref t = .ok p) :
    ∃ base, w.baseProfile attributes ref.loopId ref.loopType ref.assetUuid = .ok base := by
  rw [uncached_eq] at h
  cases hbase : w.baseProfile attributes ref.loopId ref.loopType ref.assetUuid with
  | error e =>
    rw [hbase] at h
    cases h
  | ok base => exact ⟨base, rfl⟩

end ProfileWorker

end OpenBridge.GateConfig
