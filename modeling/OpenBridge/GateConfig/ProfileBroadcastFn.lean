import OpenBridge.GateConfig.BundleProfileMapper
import OpenBridge.GateConfig.Reception

/-!
# Gate configuration: overlaying a bundle on a profile

`EffectiveBundleSelector.apply`: the contents of the SITE, PROFILE and LOOP layers in the order of
the document; the values of the response job are kept aside.
-/

namespace OpenBridge.GateConfig

open OpenBridge.Foundation

namespace EffectiveBundleSelector

/-- Whether a layer's value is applied: neither null nor `RESET_TO_INHERITED`. -/
def isSet (v : Json) : Bool := !v.isNull && !isReset v

def responseValues (g12 : Dict String Json) (content : Dict String Json) : Dict String Json :=
  content.entries.foldl (fun d e =>
    if isSet e.2 ∧ e.1 ∈ BundleProfileMapper.responseProperties then d.set e.1 e.2 else d) g12

def profileValues (content : Dict String Json) : Dict String Json :=
  content.entries.foldl (fun d e =>
    if isSet e.2 ∧ e.1 ∉ BundleProfileMapper.responseProperties ∧
      BundleProfileMapper.isProfileProperty e.1 then d.set e.1 e.2 else d) Dict.empty

def overlay (p : CplmLoopDynamicsProfile) (contents : List (Dict String Json)) :
    Except String CplmLoopDynamicsProfile :=
  contents.foldlM (fun p content => BundleProfileMapper.apply p (profileValues content)) p

/-- The numbers among the response values; absent when the layers have no response value. -/
def numericValues (g12 : Dict String Json) : Option (Dict String Double) :=
  if g12.entries = [] then none
  else some (g12.entries.foldl (fun d e =>
    match e.2 with
    | .number n => d.set e.1 n.toDouble
    | _ => d) Dict.empty)

/-- `apply`: the profile under a selection; without a bundle it is unchanged. -/
def apply (p : CplmLoopDynamicsProfile) (s : Selected) : Except String CplmLoopDynamicsProfile :=
  match s.bundle with
  | none => .ok p
  | some b => do
      let contents := b.layerContents ["SITE", "PROFILE", "LOOP"]
      let overlaid ← overlay p contents
      .ok { overlaid with
        bundleHash := some b.hash
        bundleEpoch := s.epoch
        bundleEffectiveFromMs := s.effectiveFromMs
        bundleChangeClass := s.changeClass
        bundleResponseValues := numericValues (contents.foldl responseValues Dict.empty) }

end EffectiveBundleSelector

/-!
# Gate configuration: the resolution of a loop's profile and its cache

`ProfileBroadcastFn`: the profile of a sample or a window is the loop's class pack and registry
attributes with the governing bundle on top.  The class pack and the attributes are parameters: any
profile of a loop's attributes, and any change of them by a metadata record.
-/

open EffectiveBundleSelector

/-- A profile before a bundle governs it: the class pack and the registry attributes. -/
structure BaseProfile where
  gateProfileId : Option String
  values : (f : ProfileField) → f.Value

def BaseProfile.toProfile (b : BaseProfile) : CplmLoopDynamicsProfile :=
  ⟨b.gateProfileId, b.values, none, 0, 0, none, none⟩

structure LoopRef where
  loopId : Option String
  loopType : Option String
  assetUuid : Option String
  sampleSite : Option String
  deriving DecidableEq

def valueOf (s : Option String) : String := s.getD "null"

def LoopRef.cacheKey (r : LoopRef) : String :=
  valueOf r.loopId ++ "|" ++ valueOf r.loopType ++ "|" ++ valueOf r.assetUuid ++ "|" ++
    valueOf r.sampleSite

structure Cached where
  profile : CplmLoopDynamicsProfile
  validUntilMs : ℤ

/-- A worker's settings, and what its attributes make of a loop and of a metadata record. -/
structure ProfileWorker (α : Type) where
  jobName : String
  hmacKey : Option String
  site : String
  baseProfile : α → Option String → Option String → Option String → Except String BaseProfile
  applyUpdate : α → Json → α

structure FnState (α : Type) where
  attributes : α
  config : ActiveConfigState
  cache : Dict String Cached
  parsed : ParsedBundles

/-- What the function is called with; a restore keeps the broadcast state only. -/
inductive FnEvent where
  | control (value : Except String Json)
  | resolve (ref : LoopRef) (decisionTimeMs : ℤ)
  | restore

namespace ProfileWorker

variable {α : Type} (w : ProfileWorker α)

def effectiveSite (sampleSite : Option String) : String :=
  (sampleSite.filter (· ≠ "")).getD w.site

/-- `processBroadcastElement`: a record that does not parse is dropped before the caches are
cleared. -/
def processBroadcastElement (s : FnState α) (value : Except String Json) :
    Except String (FnState α) :=
  match value with
  | .error _ => .ok s
  | .ok root =>
      if BundleBroadcastHandler.isBundleRecord root then do
        let (config, _) ← BundleBroadcastHandler.handle w.jobName w.hmacKey value s.config
        .ok ⟨s.attributes, config, Dict.empty, Dict.empty⟩
      else .ok ⟨w.applyUpdate s.attributes root, s.config, Dict.empty, Dict.empty⟩

/-- `resolve`: the profile in force for the loop at the decision time. -/
def resolve (s : FnState α) (ref : LoopRef) (t : ℤ) :
    Except String (CplmLoopDynamicsProfile × FnState α) :=
  match (s.cache.get? ref.cacheKey).filter fun c => t < c.validUntilMs with
  | some cached => .ok (cached.profile, s)
  | none => do
      let base ← w.baseProfile s.attributes ref.loopId ref.loopType ref.assetUuid
      let (sel, parsed) ← select s.config (w.effectiveSite ref.sampleSite) ref.loopId
        base.gateProfileId t s.parsed
      let profile ← apply base.toProfile sel
      .ok (profile, { s with
        cache := s.cache.set ref.cacheKey ⟨profile, sel.validUntilMs⟩
        parsed := parsed })

/-- The same without a cache: select and apply on the state as it is. -/
def uncached (attributes : α) (config : ActiveConfigState) (ref : LoopRef) (t : ℤ) :
    Except String CplmLoopDynamicsProfile := do
  let base ← w.baseProfile attributes ref.loopId ref.loopType ref.assetUuid
  let (sel, _) ← select config (w.effectiveSite ref.sampleSite) ref.loopId base.gateProfileId t
    Dict.empty
  apply base.toProfile sel

def step (s : FnState α) : FnEvent → Except String (FnState α)
  | .control value => w.processBroadcastElement s value
  | .resolve ref t => (w.resolve s ref t).map Prod.snd
  | .restore => .ok { s with cache := Dict.empty, parsed := Dict.empty }

def initial (attributes : α) : FnState α :=
  ⟨attributes, ActiveConfigState.empty, Dict.empty, Dict.empty⟩

/-- The state after a run; an error is an exception on the way. -/
def run (attributes : α) (events : List FnEvent) : Except String (FnState α) :=
  events.foldlM w.step (initial attributes)

/-! ## The properties of a run -/

def Transparent (attributes : α) (events : List FnEvent) : Prop :=
  ∀ pre ref t post s, events = pre ++ .resolve ref t :: post → w.run attributes pre = .ok s →
    (w.resolve s ref t).map Prod.fst = w.uncached s.attributes s.config ref t

/-- A profile that the cache would return carries no bundle that takes effect after the decision
time. -/
def InForce (s : FnState α) (ref : LoopRef) (t : ℤ) : Prop :=
  ∀ c, s.cache.get? ref.cacheKey = some c → t < c.validUntilMs →
    c.profile.bundleHash.isSome = true → c.profile.bundleEffectiveFromMs ≤ t

def HitsInForce (attributes : α) (events : List FnEvent) : Prop :=
  ∀ pre ref t post s, events = pre ++ .resolve ref t :: post → w.run attributes pre = .ok s →
    InForce s ref t

end ProfileWorker

def OneLoopPerKey (events : List FnEvent) : Prop :=
  ∀ ref t ref' t', .resolve ref t ∈ events → .resolve ref' t' ∈ events →
    ref.cacheKey = ref'.cacheKey → ref = ref'

/-! ## How long a selection holds -/

namespace EffectiveBundleSelector

variable {s : ActiveConfigState} {t t' : ℤ}

theorem le_validUntil_iff {l : List String} {bound v : ℤ} :
    v ≤ validUntil s t l bound ↔
      v ≤ bound ∧ ∀ scope ∈ l, ∀ e ∈ s.entries scope, t < e.effectiveFromMs →
        v ≤ e.effectiveFromMs := by
  induction l generalizing bound with
  | nil => simp [validUntil]
  | cons scope rest ih =>
    have hstep : validUntil s t (scope :: rest) bound =
        validUntil s t rest (nextEffective (s.entries scope) t bound) := rfl
    rw [hstep, ih, nextEffective_eq, EffectiveDating.le_next_iff]
    simp only [List.mem_cons, forall_eq_or_imp, and_assoc]

theorem choice_of_lt_validUntil {l : List String} {bound : ℤ} (ht : t ≤ t')
    (h : t' < validUntil s t l bound) : choice s t' l = choice s t l := by
  have hgov : ∀ scope ∈ l, governing (s.entries scope) t' = governing (s.entries scope) t := by
    intro scope hscope
    refine EffectiveDating.latest_congr fun e he => ⟨fun het => ?_, fun het => le_trans het ht⟩
    by_contra hlt
    have := (le_validUntil_iff.mp (le_refl (validUntil s t l bound))).2 scope hscope e he (by omega)
    omega
  clear h
  induction l with
  | nil => rfl
  | cons scope rest ih =>
    simp only [choice, hgov scope (by simp), ih fun x hx => hgov x (by simp [hx])]

theorem stored_ne_none (hs : BundleBroadcastHandler.Sound s) {scope : String} {e : ActiveEntry}
    (he : e ∈ s.entries scope) : stored s e.hash ≠ .ok none := by
  have := hs.prepared scope e he
  simp only [Dict.contains, Option.isSome_iff_exists] at this
  obtain ⟨doc, hdoc⟩ := this
  simp only [stored, hdoc]
  cases GateConfigBundle.parse doc <;> simp [Except.map]

theorem choice_of_inForce (hs : BundleBroadcastHandler.Sound s) {l : List String}
    {c : Option Selected} (ht : t ≤ t') (h : choice s t' l = .ok c)
    (hc : ∀ x, c = some x → x.effectiveFromMs ≤ t) : choice s t l = .ok c := by
  induction l with
  | nil => exact h
  | cons scope rest ih =>
    simp only [choice] at h ⊢
    cases hg : governing (s.entries scope) t' with
    | none =>
      simp only [hg] at h
      rw [governing_eq, EffectiveDating.latest_none_of_le hg ht]
      exact ih h
    | some e =>
      simp only [hg] at h
      cases hst : stored s e.hash with
      | error err => simp [hst] at h
      | ok b =>
        cases b with
        | none => exact absurd hst (stored_ne_none hs (EffectiveDating.latest_mem hg).1)
        | some b =>
          simp only [hst, Except.ok.injEq] at h
          subst h
          have het : e.effectiveFromMs ≤ t := hc _ rfl
          rw [governing_eq, EffectiveDating.latest_of_le hg het ht]
          simp only [hst]

theorem effectiveFrom_le_of_choice {l : List String} {x : Selected}
    (h : choice s t l = .ok (some x)) : x.effectiveFromMs ≤ t := by
  obtain ⟨scope, e, c, he, -, rfl⟩ := choice_cases h
  exact (EffectiveDating.latest_mem he).2

theorem apply_stamps {p q : CplmLoopDynamicsProfile} {x : Selected} {b : GateConfigBundle}
    (hb : x.bundle = some b) (h : apply p x = .ok q) :
    q.bundleHash = some b.hash ∧ q.bundleEffectiveFromMs = x.effectiveFromMs := by
  simp only [apply, hb, bind, Except.bind] at h
  split at h
  · cases h
  · simp only [Except.ok.injEq] at h
    subst h
    exact ⟨rfl, rfl⟩

end EffectiveBundleSelector

/-! ## What the cache holds -/

namespace ProfileWorker

variable {α : Type} {w : ProfileWorker α} {s s' : FnState α} {attributes : α}
  {config : ActiveConfigState} {ref : LoopRef} {t t₀ : ℤ}

def scopesOf (w : ProfileWorker α) (ref : LoopRef) (base : BaseProfile) : List String :=
  scopes (w.effectiveSite ref.sampleSite) ref.loopId base.gateProfileId

theorem apply_ofChoice (p : CplmLoopDynamicsProfile) (v : ℤ) (c : Option Selected) :
    apply p (ofChoice v c) = apply p (ofChoice 0 c) := by
  cases c <;> rfl

theorem uncached_eq : w.uncached attributes config ref t =
    (w.baseProfile attributes ref.loopId ref.loopType ref.assetUuid).bind fun base =>
      (choice config t (w.scopesOf ref base)).bind fun c =>
        apply base.toProfile (ofChoice 0 c) := by
  simp only [uncached, bind, Except.bind]
  cases w.baseProfile attributes ref.loopId ref.loopType ref.assetUuid with
  | error e => rfl
  | ok base =>
    simp only [scopesOf]
    cases hc : choice config t (scopes (w.effectiveSite ref.sampleSite) ref.loopId
        base.gateProfileId) with
    | error e => simp only [select_of_error coherent_empty hc]
    | ok c =>
      obtain ⟨parsed, hs, -⟩ := select_of_ok coherent_empty hc
      simp only [hs]
      exact apply_ofChoice _ _ _

/-- A cached profile was computed for a loop at a time, on the state as it is. -/
def Computed (w : ProfileWorker α) (attributes : α) (config : ActiveConfigState) (ref : LoopRef)
    (t : ℤ) (c : Cached) : Prop :=
  ∃ base chosen, w.baseProfile attributes ref.loopId ref.loopType ref.assetUuid = .ok base ∧
    choice config t (w.scopesOf ref base) = .ok chosen ∧
    apply base.toProfile (ofChoice 0 chosen) = .ok c.profile ∧
    c.validUntilMs = validUntil config t (w.scopesOf ref base) forever

/-- What a worker holds between two calls: a reachable configuration, parsed bundles that are the
prepared documents, and cached profiles computed on the state as it is, for loops asked about. -/
structure CacheSound (w : ProfileWorker α) (asked : LoopRef → Prop) (s : FnState α) : Prop where
  sound : BundleBroadcastHandler.Sound s.config
  coherent : Coherent s.config s.parsed
  computed : ∀ key c, s.cache.get? key = some c →
    ∃ ref t, asked ref ∧ ref.cacheKey = key ∧ w.Computed s.attributes s.config ref t c

theorem resolve_miss (hcoherent : Coherent s.config s.parsed)
    (hmiss : (s.cache.get? ref.cacheKey).filter (fun c => t < c.validUntilMs) = none) :
    (w.resolve s ref t).map Prod.fst = w.uncached s.attributes s.config ref t ∧
      ∀ r, w.resolve s ref t = .ok r → ∃ c parsed, Computed w s.attributes s.config ref t c ∧
        Coherent s.config parsed ∧
        r.2 = { s with cache := s.cache.set ref.cacheKey c, parsed := parsed } := by
  simp only [resolve, hmiss, uncached_eq, bind, Except.bind]
  cases hbase : w.baseProfile s.attributes ref.loopId ref.loopType ref.assetUuid with
  | error e => simp [Except.map]
  | ok base =>
    cases hc : choice s.config t (w.scopesOf ref base) with
    | error e =>
      have hs := select_of_error hcoherent hc
      simp [hs, hc, Except.map]
    | ok c =>
      obtain ⟨parsed, hs, hparsed⟩ := select_of_ok hcoherent hc
      simp only [hs, hc, apply_ofChoice]
      cases happly : apply base.toProfile (ofChoice 0 c) with
      | error e => simp [Except.map]
      | ok profile =>
        refine ⟨rfl, fun r hr => ?_⟩
        simp only [Except.ok.injEq] at hr
        subst hr
        refine ⟨⟨profile, _⟩, parsed, ⟨base, c, hbase, hc, happly, rfl⟩, hparsed, ?_⟩
        cases c <;> rfl

theorem CacheSound.mono {asked asked' : LoopRef → Prop} (h : CacheSound w asked s)
    (hsub : ∀ ref, asked ref → asked' ref) : CacheSound w asked' s := by
  refine ⟨h.sound, h.coherent, fun key c hc => ?_⟩
  obtain ⟨ref, t, hasked, hkey, hcomputed⟩ := h.computed key c hc
  exact ⟨ref, t, hsub ref hasked, hkey, hcomputed⟩

theorem cacheSound_of_cleared {asked : LoopRef → Prop}
    (hs : BundleBroadcastHandler.Sound s.config) (hparsed : s.parsed = Dict.empty)
    (hcache : s.cache = Dict.empty) : CacheSound w asked s := by
  refine ⟨hs, ?_, fun key c hc => ?_⟩
  · rw [hparsed]
    exact coherent_empty
  · rw [hcache] at hc
    simp at hc

theorem CacheSound.step {asked : LoopRef → Prop} {e : FnEvent} (h : CacheSound w asked s)
    (hasked : ∀ ref t, e = .resolve ref t → asked ref) (hstep : w.step s e = .ok s') :
    CacheSound w asked s' := by
  cases e with
  | control value =>
    cases value with
    | error err =>
      simp only [ProfileWorker.step, processBroadcastElement, Except.ok.injEq] at hstep
      exact hstep ▸ h
    | ok root =>
      simp only [ProfileWorker.step, processBroadcastElement] at hstep
      split at hstep
      · cases hh : BundleBroadcastHandler.handle w.jobName w.hmacKey (.ok root) s.config with
        | error err => simp [hh, bind, Except.bind] at hstep
        | ok next =>
          simp only [hh, bind, Except.bind, Except.ok.injEq] at hstep
          subst hstep
          exact cacheSound_of_cleared (BundleBroadcastHandler.handle_sound hh h.sound) rfl rfl
      · simp only [Except.ok.injEq] at hstep
        subst hstep
        exact cacheSound_of_cleared h.sound rfl rfl
  | resolve ref t =>
    cases hr : w.resolve s ref t with
    | error err => simp [ProfileWorker.step, hr, Except.map] at hstep
    | ok r =>
      simp only [ProfileWorker.step, hr, Except.map, Except.ok.injEq] at hstep
      subst hstep
      cases hhit : (s.cache.get? ref.cacheKey).filter fun c => t < c.validUntilMs with
      | some cached =>
        simp only [resolve, hhit, Except.ok.injEq] at hr
        exact hr ▸ h
      | none =>
        obtain ⟨c, parsed, hcomputed, hparsed, hnext⟩ := (resolve_miss h.coherent hhit).2 r hr
        rw [hnext]
        refine ⟨h.sound, hparsed, fun key c' hc' => ?_⟩
        simp only [Dict.get?_set] at hc'
        split at hc'
        · rename_i hkey
          simp only [Option.some.injEq] at hc'
          subst hc'
          exact ⟨ref, t, hasked ref t rfl, hkey.symm, hcomputed⟩
        · exact h.computed key c' hc'
  | restore =>
    simp only [ProfileWorker.step, Except.ok.injEq] at hstep
    subst hstep
    exact cacheSound_of_cleared h.sound rfl rfl

theorem run_concat {events : List FnEvent} {e : FnEvent} :
    w.run attributes (events ++ [e]) = (w.run attributes events).bind fun s => w.step s e := by
  simp only [run, List.foldlM_append, List.foldlM_cons, List.foldlM_nil]
  cases events.foldlM w.step (initial attributes) with
  | error err => rfl
  | ok s₁ =>
    simp only [bind, Except.bind]
    cases w.step s₁ e <;> rfl

theorem cacheSound_run {events : List FnEvent} (h : w.run attributes events = .ok s) :
    CacheSound w (fun ref => ∃ t, .resolve ref t ∈ events) s := by
  induction events using List.reverseRecOn generalizing s with
  | nil =>
    simp only [run, List.foldlM_nil, pure, Except.pure, Except.ok.injEq] at h
    subst h
    exact cacheSound_of_cleared BundleBroadcastHandler.sound_empty rfl rfl
  | append_singleton events e ih =>
    rw [run_concat] at h
    cases hpre : w.run attributes events with
    | error err => simp [hpre, Except.bind] at h
    | ok s₁ =>
      simp only [hpre, Except.bind] at h
      have hmono : CacheSound w (fun ref => ∃ t, .resolve ref t ∈ events ++ [e]) s₁ :=
        (ih hpre).mono fun ref ⟨t, ht⟩ => ⟨t, by simp [ht]⟩
      refine hmono.step (fun ref t heq => ⟨t, by simp [heq]⟩) h

/-! ## Transparency -/

theorem resolve_eq_uncached {asked : LoopRef → Prop} (h : CacheSound w asked s)
    (hone : ∀ ref', asked ref' → ref'.cacheKey = ref.cacheKey → ref' = ref)
    (hin : InForce s ref t) :
    (w.resolve s ref t).map Prod.fst = w.uncached s.attributes s.config ref t := by
  cases hhit : (s.cache.get? ref.cacheKey).filter fun c => t < c.validUntilMs with
  | none => exact (resolve_miss h.coherent hhit).1
  | some c =>
    obtain ⟨hc, hvalid⟩ := Option.filter_eq_some_iff.mp hhit
    have ht : t < c.validUntilMs := by simpa using hvalid
    obtain ⟨ref', t₀, hasked, hkey, base, chosen, hbase, hchosen, happly, huntil⟩ :=
      h.computed _ c hc
    obtain rfl := hone ref' hasked hkey
    -- the choice of the cached profile is the choice at the decision time
    have hchoice : choice s.config t (w.scopesOf ref' base) = .ok chosen := by
      rcases le_total t₀ t with hle | hle
      · rw [choice_of_lt_validUntil hle (huntil ▸ ht), hchosen]
      · refine choice_of_inForce h.sound hle hchosen fun x hx => ?_
        subst hx
        obtain ⟨scope, e, b, -, -, rfl⟩ := choice_cases hchosen
        obtain ⟨hhash, heff⟩ := apply_stamps rfl happly
        have := hin c hc ht (by rw [hhash]; rfl)
        rw [heff] at this
        exact this
    simp only [resolve, hhit, Except.map, uncached_eq, hbase, Except.bind, hchoice, happly]

theorem inForce_of_eq_uncached
    (h : (w.resolve s ref t).map Prod.fst = w.uncached s.attributes s.config ref t) :
    InForce s ref t := by
  intro c hc ht hbundle
  have hhit : (s.cache.get? ref.cacheKey).filter (fun c => t < c.validUntilMs) = some c :=
    Option.filter_eq_some_iff.mpr ⟨hc, by simpa using ht⟩
  simp only [resolve, hhit, Except.map] at h
  rw [uncached_eq] at h
  cases hbase : w.baseProfile s.attributes ref.loopId ref.loopType ref.assetUuid with
  | error e => simp [hbase, Except.bind] at h
  | ok base =>
    cases hchoice : choice s.config t (w.scopesOf ref base) with
    | error e => simp [hbase, hchoice, Except.bind] at h
    | ok chosen =>
      simp only [hbase, hchoice, Except.bind] at h
      cases chosen with
      | none =>
        simp only [ofChoice, apply, Except.ok.injEq] at h
        rw [h] at hbundle
        simp [BaseProfile.toProfile] at hbundle
      | some x =>
        have hle := effectiveFrom_le_of_choice hchoice
        obtain ⟨scope, e, b, -, -, rfl⟩ := choice_cases hchoice
        rw [(apply_stamps rfl h.symm).2]
        exact hle

/-- **The cache is transparent exactly when every hit is on a bundle in force**, in every run in
which the calls that share a cache key are about one loop. -/
theorem transparent_iff (w : ProfileWorker α) (attributes : α) (events : List FnEvent)
    (hone : OneLoopPerKey events) :
    w.Transparent attributes events ↔ w.HitsInForce attributes events := by
  constructor
  · intro h pre ref t post s heq hrun
    exact inForce_of_eq_uncached (h pre ref t post s heq hrun)
  · intro h pre ref t post s heq hrun
    refine resolve_eq_uncached (cacheSound_run hrun) ?_ (h pre ref t post s heq hrun)
    rintro ref' ⟨t', ht'⟩ hkey
    exact hone ref' t' ref t (by rw [heq]; simp [ht']) (by rw [heq]; simp) hkey

/-! A worker that resolves a window and then a late sample of one loop, around the effective time of
the plant's bundle. -/

open ControlPlane.BundleEnvelope.Publication

private def packValue : (k : ProfileField.Kind) → k.Value
  | .number => (none : Option Double)
  | .integer => (3 : ℤ)
  | .role => GateRole.primary

private def plantWorker : ProfileWorker Unit where
  jobName := "cplm-gates"
  hmacKey := some "service-key"
  site := "plant-1"
  baseProfile := fun _ _ _ _ => .ok ⟨some "FLOW_FAST_SELF_REG", fun f => packValue f.kind⟩
  applyUpdate := fun a _ => a

private def flowLoop : LoopRef := ⟨some "FIC-101", some "FIC", none, none⟩

private def lateSampleRun : List FnEvent :=
  [] ++ [.control ((cycles "PREPARE" 100).message "service-key")] ++
    [.control ((cycles "APPLY" 100).message "service-key")] ++ [.resolve flowLoop 150]

private theorem oneLoopPerKey_lateSampleRun :
    OneLoopPerKey (lateSampleRun ++ [.resolve flowLoop 50]) := by
  intro ref t ref' t' h h' _
  simp only [lateSampleRun, List.mem_append, List.mem_singleton, List.not_mem_nil, false_or,
    reduceCtorEq, FnEvent.resolve.injEq, or_false] at h h'
  rcases h with ⟨rfl, -⟩ | ⟨rfl, -⟩ <;> rcases h' with ⟨rfl, -⟩ | ⟨rfl, -⟩ <;> rfl

/-- In the run with the late sample the cache is transparent exactly when its hits are in force. -/
theorem transparent_iff_lateSample :
    plantWorker.Transparent () (lateSampleRun ++ [.resolve flowLoop 50]) ↔
      plantWorker.HitsInForce () (lateSampleRun ++ [.resolve flowLoop 50]) :=
  transparent_iff plantWorker () _ oneLoopPerKey_lateSampleRun

theorem step_control_message {p : ControlPlane.BundleEnvelope.Publication} {key : String}
    {next : ActiveConfigState} {acks : List ConfigAck} (hkey : key ≠ "")
    (hcanonical : (CanonicalJson.canonicalize p.document).isOk = true)
    (h : BundleBroadcastHandler.handle w.jobName w.hmacKey (p.message key) s.config =
      .ok (next, acks)) :
    w.step s (.control (p.message key)) = .ok ⟨s.attributes, next, Dict.empty, Dict.empty⟩ := by
  obtain ⟨signature, hmessage, -⟩ := message_verifies hkey hcanonical
  rw [hmessage] at h ⊢
  simp [ProfileWorker.step, processBroadcastElement, isBundleRecord_signed, h, bind, Except.bind]

theorem run_step {events : List FnEvent} {e : FnEvent} (h : w.run attributes events = .ok s)
    (he : w.step s e = .ok s') : w.run attributes (events ++ [e]) = .ok s' := by
  simp only [run_concat, h, Except.bind, he]

private def activeConfig : ActiveConfigState :=
  BundleBroadcastHandler.applyBundle
    { ActiveConfigState.empty with
      prepared := Dict.empty.set (cycles "PREPARE" 100).view.contentHash
        (cycles "PREPARE" 100).document }
    (cycles "APPLY" 100).received (cycles "APPLY" 100).deploymentId

/-- The late sample gets the profile cached for the window, with the bundle that takes effect after
it. -/
theorem late_sample_from_cache : ¬ ∀ (w : ProfileWorker Unit) (events : List FnEvent),
    w.Transparent () events := by
  intro h
  have hprepare := run_step (show plantWorker.run () [] = .ok (initial ()) from rfl)
    (step_control_message (by decide) (canonical_cycles _ 100)
      (handle_prepare_message (by decide) (canonical_cycles _ 100) rfl (valid_cycles _ _)))
  have happly := run_step hprepare (step_control_message (by decide) (canonical_cycles _ 100)
    (handle_apply_message (by decide) (canonical_cycles _ 100) rfl (by decide)))
  have hcached : ((plantWorker.resolve ⟨(), activeConfig, Dict.empty, Dict.empty⟩ flowLoop
      150).toOption.bind fun r => (r.2.cache.get? flowLoop.cacheKey).map fun c =>
        (c.validUntilMs, c.profile.bundleHash.isSome, c.profile.bundleEffectiveFromMs)) =
      some (forever, true, 100) := by
    decide
  cases hr : plantWorker.resolve ⟨(), activeConfig, Dict.empty, Dict.empty⟩ flowLoop 150 with
  | error e => simp [hr, Except.toOption] at hcached
  | ok r =>
    have hrun : plantWorker.run () lateSampleRun = .ok r.2 :=
      run_step happly (by simp only [ProfileWorker.step]; exact congrArg (Except.map Prod.snd) hr)
    have hin := inForce_of_eq_uncached
      (h plantWorker (lateSampleRun ++ [.resolve flowLoop 50]) lateSampleRun flowLoop 50 [] r.2 rfl
        hrun)
    cases hc : r.2.cache.get? flowLoop.cacheKey with
    | none => simp [hr, hc, Except.toOption] at hcached
    | some c =>
      simp only [hr, hc, Except.toOption, Option.bind_some, Option.map_some, Option.some.injEq,
        Prod.mk.injEq] at hcached
      obtain ⟨huntil, hbundle, heff⟩ := hcached
      have hle := hin c hc (by rw [huntil]; decide) hbundle
      omega

end ProfileWorker

end OpenBridge.GateConfig
