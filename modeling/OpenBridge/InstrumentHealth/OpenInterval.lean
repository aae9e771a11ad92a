import OpenBridge.InstrumentHealth.SourceIsolation

/-!
# Instrument health: the contexts of the open interval

The current interval of a device is open, and a refreshed verification does not change what it is
evaluated to.
-/

namespace OpenBridge.InstrumentHealth

open OpenBridge.Foundation

/-! ## The current interval -/

structure HealthInterval.Sound (i : HealthInterval) : Prop where
  isOpen : i.toMs = none
  complete : i.collectionState = "VERIFIED" → i.activeFlags = [] → i.measurementImpact ≠ "UNKNOWN" →
    (i.healthStateId = noActiveDiagnostic ↔ i.stateComplete = true)

namespace HealthEligibilityPolicy

theorem evaluate_congr {i j : HealthInterval} (hi : i.Sound) (hj : j.Sound)
    (hcollection : i.collectionState = j.collectionState) (hflags : i.activeFlags = j.activeFlags)
    (himpact : i.measurementImpact = j.measurementImpact)
    (hstate : i.healthStateId = j.healthStateId)
    (haffected : i.affectedVariableIds = j.affectedVariableIds) (signalId : String) :
    evaluate (some i) signalId = evaluate (some j) signalId := by
  simp only [evaluate, hcollection]
  by_cases hverified : j.collectionState = "VERIFIED"
  · simp only [hverified, ne_eq, not_true_eq_false, if_false, evaluateVerified, hflags, himpact,
      haffected]
    by_cases hnone : j.activeFlags = []
    · by_cases hunknown : j.measurementImpact = "UNKNOWN"
      · simp [hnone, hunknown]
      · -- only here is the completeness read
        have hcomplete : i.stateComplete = j.stateComplete := by
          have hleft := hi.complete (hcollection.trans hverified) (hflags.trans hnone)
            (himpact ▸ hunknown)
          have hright := hj.complete hverified hnone hunknown
          rw [hstate] at hleft
          rw [Bool.eq_iff_iff, ← hleft, hright]
        rw [hcomplete]
    · simp [hnone]
  · simp [hverified]

end HealthEligibilityPolicy

namespace DeviceStateMachine

variable {m : DeviceStateMachine} {o : HealthObservation} {c next : HealthInterval} {nowMs : ℤ}

def Sober (m : DeviceStateMachine) : Prop := ∀ c, m.current = some c → c.Sound

theorem sober_new (siteMinFreshnessMs : ℤ) : Sober (new siteMinFreshnessMs) := by
  intro c hc
  cases hc

theorem sound_build (m : DeviceStateMachine) (o : HealthObservation) (nowMs : ℤ) :
    (m.build o nowMs).Sound := by
  refine ⟨rfl, fun hverified hflags _ => ?_⟩
  change m.collection o nowMs = "VERIFIED" at hverified
  change o.activeFlags.eraseDups = [] at hflags
  show stateId o.activeFlags.eraseDups _ o.stateComplete (m.collection o nowMs) = _ ↔
    o.stateComplete = true
  rw [stateId, hflags, hverified]
  cases o.stateComplete with
  | true => simp
  | false => simp [noActiveDiagnostic]

theorem sound_nextInterval (m : DeviceStateMachine) (c : HealthInterval) (o : HealthObservation)
    (nowMs : ℤ) : (m.nextInterval c o nowMs).Sound := by
  rw [nextInterval]
  split
  · exact sound_build m o nowMs
  · exact ⟨rfl, fun _ _ hknown => absurd rfl hknown⟩

theorem sound_refresh (hc : c.Sound) (hnext : next.Sound) (h : sameState c next = true) :
    (refresh c next).Sound := by
  simp only [sameState, decide_eq_true_eq] at h
  obtain ⟨hflags, hcollection, himpact, hstate, -, -⟩ := h
  refine ⟨hc.isOpen, fun hverified hnone hknown => ?_⟩
  show c.healthStateId = _ ↔ next.stateComplete = true
  rw [hstate]
  exact hnext.complete (hcollection ▸ hverified) (hflags ▸ hnone) (himpact ▸ hknown)

theorem evaluate_refreshed (hc : c.Sound) (hnext : next.Sound) (h : sameState c next = true)
    (signalId : String) : HealthEligibilityPolicy.evaluate (some (refresh c next)) signalId =
      HealthEligibilityPolicy.evaluate (some c) signalId :=
  HealthEligibilityPolicy.evaluate_congr (sound_refresh hc hnext h) hc rfl rfl rfl rfl rfl signalId

theorem sound_lastKnown (c : HealthInterval) (collection : String) (atMs : ℤ) :
    (lastKnown c collection atMs).Sound :=
  ⟨rfl, fun _ _ hknown => absurd rfl hknown⟩

/-! ## The transitions of a step -/

def SameContext (a b : Option HealthInterval) : Prop :=
  a.map (·.deviceId) = b.map (·.deviceId) ∧ ∀ signalId,
    a.map (fun i => HealthEligibilityPolicy.evaluate (some i) signalId) =
      b.map fun i => HealthEligibilityPolicy.evaluate (some i) signalId

theorem sameContext_refl (a : Option HealthInterval) : SameContext a a := ⟨rfl, fun _ => rfl⟩

variable {bindings : List LoopBindings} {now : ℤ}

def Unbound (bindings : List LoopBindings) (deviceId : String) (atMs : ℤ) : Prop :=
  ∀ lb ∈ bindings, ∀ b ∈ lb.bindings, b.deviceId = deviceId → b.coversAt atMs = false

/-- The bindings of the device that are in force at the time are in force now. -/
def StillBound (bindings : List LoopBindings) (deviceId : String) (atMs now : ℤ) : Prop :=
  ∀ lb ∈ bindings, ∀ b ∈ lb.bindings, b.deviceId = deviceId → b.coversAt atMs = true →
    b.coversAt now = true

/-- A late correction finds no loop bound to the device before the open interval, and what was bound
at the end of an interval that the step closes is bound now. -/
def Settles (bindings : List LoopBindings) (now : ℤ) (m : DeviceStateMachine) : Input → Prop
  | .observation o nowMs => ∀ m₁ c, o.isAvailability = false → m.ordered o = some m₁ →
      m.current = some c →
      if isLateCorrection c o then Unbound bindings o.deviceId (max o.observedAtMs (c.fromMs - 1))
      else sameState c (m₁.nextInterval c o nowMs) = false → o.deviceId = c.deviceId ∧
        StillBound bindings c.deviceId
          (max c.fromMs (max (supportedFromMs o nowMs) c.fromMs - 1)) now
  | .timer nowMs => ∀ c, m.current = some c → m.isExpired c nowMs = true →
      StillBound bindings c.deviceId (max c.fromMs (max (m.expiryMs c) c.fromMs - 1)) now
  | .offline atMs => ∀ c, m.current = some c → c.collectionState ≠ "OFFLINE" →
      StillBound bindings c.deviceId (max c.fromMs (max atMs c.fromMs - 1)) now

/-- What a step renders for the loops: nothing and the evaluation stays, or last the interval it
opens, after transitions of the same bindings. -/
inductive Change (bindings : List LoopBindings) (now : ℤ) (m : DeviceStateMachine) :
    DeviceStateMachine → List Transition → Prop where
  | steady (m' : DeviceStateMachine) (ts : List Transition)
      (hsame : SameContext m.current m'.current)
      (hts : ∀ t ∈ ts, Unbound bindings t.interval.deviceId (ContextFn.lookupMs t.interval now)) :
      Change bindings now m m' ts
  | opens (m' : DeviceStateMachine) (ts : List Transition) (next : HealthInterval)
      (hcurrent : m'.current = some next) (hopen : next.Sound)
      (hdevice : ∀ c, m.current = some c → c.deviceId = next.deviceId)
      (hts : ∀ t ∈ ts, t.interval.deviceId = next.deviceId ∧
        StillBound bindings t.interval.deviceId (ContextFn.lookupMs t.interval now) now) :
      Change bindings now m m' (ts ++ [⟨.open, next⟩])

theorem change_quiet (m : DeviceStateMachine) : Change bindings now m m [] :=
  Change.steady m [] (sameContext_refl _) (by simp)

theorem change_boundary {kind : BoundaryKind} {collection : String} {atMs : ℤ}
    (hcurrent : m.current = some c)
    (hbound : StillBound bindings c.deviceId (max c.fromMs (max atMs c.fromMs - 1)) now) :
    Change bindings now m (m.boundaryTo c kind collection (max atMs c.fromMs)).1
      (m.boundaryTo c kind collection (max atMs c.fromMs)).2 := by
  refine Change.opens _ [⟨.close, ended c (max atMs c.fromMs) kind⟩] _ rfl (sound_lastKnown _ _ _)
    (fun c' hc' => ?_) (fun t ht => ?_)
  · rw [hcurrent] at hc'
    obtain rfl := Option.some.inj hc'
    rfl
  · obtain rfl := List.mem_singleton.mp ht
    exact ⟨rfl, hbound⟩

theorem deviceId_nextInterval (m : DeviceStateMachine) (c : HealthInterval) (o : HealthObservation)
    (nowMs : ℤ) : (m.nextInterval c o nowMs).deviceId = o.deviceId := by
  rw [nextInterval]
  split <;> rfl

theorem change_step (hm : Sober m) {i : Input} (h : Settles bindings now m i) :
    Change bindings now m (step m i).1 (step m i).2 := by
  cases i with
  | observation o nowMs =>
    rw [step]
    rcases apply_cases m o nowMs with happly | ⟨m₁, hkind, hordered, hcases⟩
    · rw [happly]
      exact change_quiet m
    rcases hcases with ⟨hnone, happly⟩ | ⟨c, hcurrent, hcases⟩
    · rw [happly]
      refine Change.opens _ [] _ rfl (sound_build _ _ _) (fun c hc => ?_) (by simp)
      rw [hnone] at hc
      cases hc
    have hsettles := h m₁ c hkind hordered hcurrent
    rcases hcases with ⟨hlate, happly⟩ | ⟨hlate, hsame, happly⟩ | ⟨hlate, hsame, happly⟩
    · rw [happly]
      rw [hlate, if_pos rfl] at hsettles
      refine Change.steady _ _ ?_ fun t ht => ?_
      · exact (current_of_ordered hordered) ▸ sameContext_refl _
      · obtain rfl := List.mem_singleton.mp ht
        exact hsettles
    · rw [happly]
      have hsound := hm c hcurrent
      have hnext := sound_nextInterval m₁ c o nowMs
      refine Change.steady _ [] ⟨by rw [hcurrent]; rfl, fun signalId => ?_⟩ (by simp)
      rw [hcurrent]
      exact congrArg some (evaluate_refreshed hsound hnext hsame signalId).symm
    · rw [happly]
      rw [hlate, if_neg Bool.false_ne_true] at hsettles
      obtain ⟨hdevice, hbound⟩ := hsettles hsame
      have hid := deviceId_nextInterval m₁ c o nowMs
      refine Change.opens _ [⟨.close, ended c _ .newerState⟩] _ rfl (sound_nextInterval _ _ _ _)
        (fun c' hc' => ?_) (fun t ht => ?_)
      · rw [hcurrent] at hc'
        obtain rfl := Option.some.inj hc'
        rw [hid, hdevice]
      · obtain rfl := List.mem_singleton.mp ht
        refine ⟨by rw [hid, hdevice]; rfl, ?_⟩
        rw [nextInterval_fromMs]
        exact hbound
  | timer nowMs =>
    rw [step]
    rcases onTimer_cases m nowMs with happly | ⟨c, hcurrent, hexpired, happly⟩
    · rw [happly]
      exact change_quiet m
    · rw [happly]
      exact change_boundary hcurrent (h c hcurrent hexpired)
  | offline atMs =>
    rw [step]
    rcases sourceOffline_cases m atMs with happly | ⟨c, hcurrent, honline, happly⟩
    · rw [happly]
      exact change_quiet m
    · rw [happly]
      exact change_boundary hcurrent (h c hcurrent honline)

theorem sober_step (hm : Sober m) (i : Input) : Sober (step m i).1 := by
  have hboundary : ∀ c kind collection atMs, Sober (m.boundaryTo c kind collection atMs).1 := by
    intro c kind collection atMs c' hc'
    obtain rfl := Option.some.inj hc'
    exact sound_lastKnown _ _ _
  cases i with
  | observation o nowMs =>
    rw [step]
    rcases apply_cases m o nowMs with happly | ⟨m₁, hkind, hordered, hcases⟩
    · rw [happly]
      exact hm
    rcases hcases with ⟨-, happly⟩ | ⟨c, hcurrent, ⟨-, happly⟩ | ⟨-, hsame, happly⟩ | ⟨-, -, happly⟩⟩
    · rw [happly]
      intro c' hc'
      obtain rfl := Option.some.inj hc'
      exact sound_build _ _ _
    · rw [happly]
      intro c' hc'
      exact hm c' ((current_of_ordered hordered).symm.trans hc')
    · rw [happly]
      intro c' hc'
      obtain rfl := Option.some.inj hc'
      exact sound_refresh (hm c hcurrent) (sound_nextInterval _ _ _ _) hsame
    · rw [happly]
      intro c' hc'
      obtain rfl := Option.some.inj hc'
      exact sound_nextInterval _ _ _ _
  | timer nowMs =>
    rw [step]
    rcases onTimer_cases m nowMs with happly | ⟨c, -, -, happly⟩
    · rw [happly]
      exact hm
    · rw [happly]
      exact hboundary _ _ _ _
  | offline atMs =>
    rw [step]
    rcases sourceOffline_cases m atMs with happly | ⟨c, -, -, happly⟩
    · rw [happly]
      exact hm
    · rw [happly]
      exact hboundary _ _ _ _

end DeviceStateMachine

/-! ## The contexts that a device renders -/

def ContextRecord.context? : ContextRecord → Option LoopContext
  | .loopContext context => some context
  | .deviceInterval _ _ _ => none

def contexts (records : List ContextRecord) : List LoopContext :=
  records.filterMap ContextRecord.context?

theorem contexts_map (cs : List LoopContext) : contexts (cs.map ContextRecord.loopContext) = cs := by
  rw [contexts, List.filterMap_map]
  exact List.filterMap_some

theorem mem_contexts {records : List ContextRecord} {c : LoopContext} :
    c ∈ contexts records ↔ .loopContext c ∈ records := by
  simp only [contexts, List.mem_filterMap]
  constructor
  · rintro ⟨r, hr, hc⟩
    cases r with
    | loopContext context => exact Option.some.inj hc ▸ hr
    | deviceInterval _ _ _ => cases hc
  · intro h
    exact ⟨_, h, rfl⟩

namespace ContextFn

open DeviceStateMachine (Sober Change SameContext Unbound StillBound)

variable {bindings : List LoopBindings} {now atMs : ℤ} {i : HealthInterval} {transition : String}

theorem contexts_render (ts : List Transition) (bindings : List LoopBindings) (now : ℤ) :
    contexts (render ts bindings now) = ts.flatMap fun t =>
      loopContexts bindings t.interval (lookupMs t.interval now) t.kind.text now := by
  rw [contexts, render, List.filterMap_flatMap]
  refine List.flatMap_congr fun t _ => ?_
  rw [List.filterMap_cons]
  exact contexts_map _

theorem mem_loopContexts {c : LoopContext} : c ∈ loopContexts bindings i atMs transition now ↔
    ∃ lb ∈ bindings, ∃ b ∈ lb.bindings, b.deviceId = i.deviceId ∧ b.coversAt atMs = true ∧
      c = LoopHealthContext.loopContext lb.loopId b.signalRole b.bindingId i
        (HealthEligibilityPolicy.evaluate (some i)
          (LoopHealthContext.signalId lb.loopId b.signalRole)) transition now := by
  simp only [loopContexts, LoopBindings.bindingsForDevice, List.mem_flatMap, List.mem_map,
    List.mem_filter, decide_eq_true_eq]
  constructor
  · rintro ⟨lb, hlb, b, ⟨hb, hdevice, hcovers⟩, rfl⟩
    exact ⟨lb, hlb, b, hb, hdevice, hcovers, rfl⟩
  · rintro ⟨lb, hlb, b, hb, hdevice, hcovers, rfl⟩
    exact ⟨lb, hlb, b, ⟨hb, hdevice, hcovers⟩, rfl⟩

theorem loopContexts_of_unbound (h : Unbound bindings i.deviceId atMs) :
    loopContexts bindings i atMs transition now = [] := by
  rw [List.eq_nil_iff_forall_not_mem]
  intro c hc
  obtain ⟨lb, hlb, b, hb, hdevice, hcovers, -⟩ := mem_loopContexts.mp hc
  exact absurd (h lb hlb b hb hdevice) (by simp [hcovers])

/-- A context is of a binding of the device that is in force now. -/
def OfBinding (bindings : List LoopBindings) (deviceId : String) (now : ℤ) (c : LoopContext) : Prop :=
  ∃ lb ∈ bindings, ∃ b ∈ lb.bindings, b.deviceId = deviceId ∧ b.coversAt now = true ∧
    c.loopId = lb.loopId ∧ c.role = b.signalRole

namespace DeviceView

variable {device : String} {v : DeviceView}

def current (v : DeviceView) : Option HealthInterval := v.machine.bind (·.current)

def Sober (v : DeviceView) : Prop := ∀ m, v.machine = some m → DeviceStateMachine.Sober m

inductive Change (v : DeviceView) (now : ℤ) : DeviceView → List LoopContext → Prop where
  | steady (v' : DeviceView) (hsame : SameContext v.current v'.current) : Change v now v' []
  | opens (v' : DeviceView) (pre : List LoopContext) (next : HealthInterval)
      (hcurrent : v'.current = some next)
      (hdevice : ∀ c, v.current = some c → c.deviceId = next.deviceId)
      (hpre : ∀ c ∈ pre, OfBinding v.bindings.values next.deviceId now c) :
      Change v now v' (pre ++ loopContexts v.bindings.values next now "OPEN" now)

/-- The condition on a step of the machine, for the element that is one. -/
def Settles (device : String) (v : DeviceView) : Input → Prop
  | .observation o now => o.isAvailability = false → o.deviceKey = device →
      DeviceStateMachine.Settles v.bindings.values now
        (v.machine.getD (DeviceStateMachine.new v.siteMinFreshnessMs)) (.observation o now)
  | .timer device' timestamp => device' = device → ∀ m, v.machine = some m →
      DeviceStateMachine.Settles v.bindings.values timestamp m (.timer timestamp)
  | .availability av now => IsOutage av → sameSite device av = true → ∀ m, v.machine = some m →
      DeviceStateMachine.Settles v.bindings.values now m (.offline (availabilityMs av now))
  | .binding _ _ => True

theorem change_refl (v : DeviceView) : Change v now v [] :=
  Change.steady v (DeviceStateMachine.sameContext_refl _)

theorem change_advance {m : DeviceStateMachine} {stepped : DeviceStateMachine × List Transition}
    (hm : v.current = m.current)
    (h : DeviceStateMachine.Change v.bindings.values now m stepped.1 stepped.2) :
    Change v now (v.advance now stepped).1 (contexts (v.advance now stepped).2) := by
  obtain ⟨m', ts⟩ := stepped
  change DeviceStateMachine.Change v.bindings.values now m m' ts at h
  rw [advance, contexts_render]
  cases h with
  | steady _ hsame hts =>
    have hnone : (ts.flatMap fun t => loopContexts v.bindings.values t.interval
        (lookupMs t.interval now) t.kind.text now) = [] := by
      rw [List.flatMap_eq_nil_iff]
      exact fun t ht => loopContexts_of_unbound (hts t ht)
    rw [hnone]
    refine Change.steady _ ?_
    rw [hm]
    exact hsame
  | opens ts next hcurrent hopen hdevice hts =>
    simp only [List.flatMap_append, List.flatMap_singleton]
    rw [show lookupMs next now = now by rw [lookupMs, hopen.isOpen]]
    refine Change.opens _ _ next hcurrent (fun c hc => hdevice c (hm ▸ hc)) fun c hc => ?_
    obtain ⟨t, ht, hc⟩ := List.mem_flatMap.mp hc
    obtain ⟨lb, hlb, b, hb, hid, hcovers, rfl⟩ := mem_loopContexts.mp hc
    obtain ⟨hnext, hbound⟩ := hts t ht
    exact ⟨lb, hlb, b, hb, hid.trans hnext, hbound lb hlb b hb hid hcovers, rfl, rfl⟩

end DeviceView

def Input.time : Input → ℤ
  | .observation _ now => now
  | .timer _ timestamp => timestamp
  | .binding _ now => now
  | .availability _ now => now

def Input.isBinding : Input → Bool
  | .binding _ _ => true
  | _ => false

namespace DeviceView

variable {device : String} {v : DeviceView}

theorem change_step (hv : v.Sober) {i : Input} (hi : i.isBinding = false)
    (h : v.Settles device i) :
    Change v i.time (v.step device i).1 (contexts (v.step device i).2) := by
  cases i with
  | observation o now =>
    rw [step]
    split
    · exact change_refl v
    · rename_i hown
      push Not at hown
      refine change_advance ?_ (@DeviceStateMachine.change_step _ _ _ ?_ (.observation o now)
        (h (by simpa using hown.1) hown.2))
      · rw [current]
        cases v.machine <;> rfl
      · cases hm : v.machine with
        | none => exact DeviceStateMachine.sober_new _
        | some m => exact hv m hm
  | timer device' timestamp =>
    rw [step]
    cases hm : v.machine with
    | none => exact change_refl v
    | some m =>
      simp only
      split
      · rename_i hown
        exact change_advance (by rw [current, hm]; rfl) (@DeviceStateMachine.change_step _ _ _
          (hv m hm) (.timer timestamp) (h hown m hm))
      · exact change_refl v
  | binding _ _ => cases hi
  | availability av now =>
    rw [step]
    cases hm : v.machine with
    | none => exact change_refl v
    | some m =>
      simp only
      split
      · rename_i houtage
        refine change_advance (by rw [current, hm]; rfl) ?_
        rw [offline]
        split
        · rename_i hsite
          exact @DeviceStateMachine.change_step _ _ _ (hv m hm) (.offline (availabilityMs av now))
            (h houtage hsite m hm)
        · exact DeviceStateMachine.change_quiet m
      · exact change_refl v

theorem sober_step (hv : v.Sober) (i : Input) : (v.step device i).1.Sober := by
  have hadvance : ∀ now stepped, DeviceStateMachine.Sober stepped.1 →
      (v.advance now stepped).1.Sober := by
    intro now stepped hstepped m hm
    obtain rfl := Option.some.inj hm
    exact hstepped
  cases i with
  | observation o now =>
    rw [step]
    split
    · exact hv
    · refine hadvance _ _ (@DeviceStateMachine.sober_step _ ?_ (.observation o now))
      cases hm : v.machine with
      | none => exact DeviceStateMachine.sober_new _
      | some m => exact hv m hm
  | timer device' timestamp =>
    rw [step]
    cases hm : v.machine with
    | none => exact hv
    | some m =>
      simp only
      split
      · exact hadvance _ _ (@DeviceStateMachine.sober_step _ (hv m hm) (.timer timestamp))
      · exact hv
  | binding lb now =>
    rw [step]
    split
    · exact hv
    · exact hv
  | availability av now =>
    rw [step]
    cases hm : v.machine with
    | none => exact hv
    | some m =>
      simp only
      split
      · refine hadvance _ _ ?_
        rw [offline]
        split
        · exact @DeviceStateMachine.sober_step _ (hv m hm) (.offline (availabilityMs av now))
        · exact hv m hm
      · exact hv

theorem current_step_of_some (hv : v.Sober) {i : Input} (h : v.Settles device i)
    {c : HealthInterval} (hc : v.current = some c) :
    ∃ c', (v.step device i).1.current = some c' ∧ c'.deviceId = c.deviceId := by
  cases hi : i.isBinding with
  | false =>
    have hchange := change_step hv hi h
    generalize contexts (v.step device i).2 = cs at hchange
    cases hchange with
    | steady hsame =>
      have hid := hsame.1
      rw [hc, Option.map_some, eq_comm, Option.map_eq_some_iff] at hid
      exact hid
    | opens pre next hcurrent hdevice hpre => exact ⟨next, hcurrent, (hdevice c hc).symm⟩
  | true =>
    cases i with
    | binding lb now =>
      refine ⟨c, ?_, rfl⟩
      rw [step]
      split
      · exact hc
      · exact hc
    | observation _ _ => cases hi
    | timer _ _ => cases hi
    | availability _ _ => cases hi

end DeviceView

end ContextFn

end OpenBridge.InstrumentHealth
