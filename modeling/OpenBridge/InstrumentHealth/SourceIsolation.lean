import OpenBridge.Foundation.Dict
import OpenBridge.InstrumentHealth.Timeline

/-!
# Instrument health: the instrument-context operator

`LoopBindings` and `CplmInstrumentContextJob.ContextFn`: one state machine a device, the device
bindings of the loops and the availability of the sources from the control plane, and the records
that every element renders.
-/

namespace OpenBridge.InstrumentHealth

open OpenBridge.Foundation

/-- One binding of a device to a signal role, from a time and, when it has an end, up to one. -/
structure Binding where
  bindingId : String
  signalRole : String
  deviceId : String
  validFromMs : ℤ
  validToMs : Option ℤ
  deriving DecidableEq

def Binding.coversAt (b : Binding) (atMs : ℤ) : Bool :=
  b.validFromMs ≤ atMs ∧ ∀ toMs ∈ b.validToMs, atMs < toMs

structure LoopBindings where
  loopId : String
  bindings : List Binding
  deriving DecidableEq

/-- `bindingsForDevice`: the bindings that name the device at a time. -/
def LoopBindings.bindingsForDevice (lb : LoopBindings) (deviceId : String) (atMs : ℤ) :
    List Binding :=
  lb.bindings.filter fun b => b.deviceId = deviceId ∧ b.coversAt atMs

def HealthObservation.sourceKey (o : HealthObservation) : String :=
  o.tenantId ++ "|" ++ o.site ++ "|" ++ o.sourceId

/-- The operator: the machine and the last source of every device, and the control plane. -/
structure ContextFn where
  siteMinFreshnessMs : ℤ
  machines : Dict String DeviceStateMachine
  sources : Dict String String
  bindings : Dict String LoopBindings
  availability : Dict String String

namespace ContextFn

def new (siteMinFreshnessMs : ℤ) : ContextFn :=
  ⟨siteMinFreshnessMs, Dict.empty, Dict.empty, Dict.empty, Dict.empty⟩

def loopContexts (bindings : List LoopBindings) (i : HealthInterval) (atMs : ℤ)
    (transition : String) (now : ℤ) : List LoopContext :=
  bindings.flatMap fun lb => (lb.bindingsForDevice i.deviceId atMs).map fun b =>
    LoopHealthContext.loopContext lb.loopId b.signalRole b.bindingId i
      (HealthEligibilityPolicy.evaluate (some i)
        (LoopHealthContext.signalId lb.loopId b.signalRole)) transition now

def lookupMs (i : HealthInterval) (now : ℤ) : ℤ :=
  match i.toMs with
  | none => now
  | some toMs => max i.fromMs (toMs - 1)

/-- `render`: the interval of each transition, and the contexts of the loops bound to its device. -/
def render (transitions : List Transition) (bindings : List LoopBindings) (now : ℤ) :
    List ContextRecord :=
  transitions.flatMap fun t => .deviceInterval t.interval t.kind now ::
    (loopContexts bindings t.interval (lookupMs t.interval now) t.kind.text now).map
      ContextRecord.loopContext

def machine (s : ContextFn) (device : String) : DeviceStateMachine :=
  (s.machines.get? device).getD (DeviceStateMachine.new s.siteMinFreshnessMs)

def processElement (s : ContextFn) (o : HealthObservation) (now : ℤ) :
    ContextFn × List ContextRecord :=
  let applied := (s.machine o.deviceKey).apply o now
  ({ s with
      machines := s.machines.set o.deviceKey applied.1
      sources := s.sources.set o.deviceKey o.sourceKey },
    render applied.2 s.bindings.values now)

/-- `onTimer`: the freshness timer of a device. -/
def onTimer (s : ContextFn) (device : String) (timestamp : ℤ) : ContextFn × List ContextRecord :=
  match s.machines.get? device with
  | none => (s, [])
  | some m =>
      let ticked := m.onTimer timestamp
      ({ s with machines := s.machines.set device ticked.1 },
        render ticked.2 s.bindings.values timestamp)

def republish (lb : LoopBindings) (now : ℤ) (m : DeviceStateMachine) : List ContextRecord :=
  match m.current with
  | none => []
  | some current =>
      let atMs := match current.toMs with
        | none => now
        | some toMs => toMs - 1
      (loopContexts [lb] current atMs "BINDING" now).map ContextRecord.loopContext

/-- `processBroadcastElement` for the bindings of a loop. -/
def processBinding (s : ContextFn) (lb : LoopBindings) (now : ℤ) :
    ContextFn × List ContextRecord :=
  if lb.loopId = "" then (s, [])
  else
    ({ s with bindings := s.bindings.set lb.loopId lb },
      if lb.bindings = [] then
        [.loopContext (LoopHealthContext.notConfigured lb.loopId "PV" now)]
      else s.machines.entries.flatMap fun e => republish lb now e.2)

/-- The device is of the tenant and the site of the source, as its key tells. -/
def sameSite (device : String) (av : HealthObservation) : Bool :=
  (av.tenantId ++ "|" ++ av.site ++ "|").toList.isPrefixOf device.toList

def offline (av : HealthObservation) (atMs : ℤ) (device : String) (m : DeviceStateMachine) :
    DeviceStateMachine × List Transition :=
  if sameSite device av then m.sourceOffline atMs else (m, [])

def availabilityMs (av : HealthObservation) (now : ℤ) : ℤ :=
  if 0 < av.sinceMs then av.sinceMs else now

/-- `processBroadcastElement` for the availability of a source. -/
def processAvailability (s : ContextFn) (av : HealthObservation) (now : ℤ) :
    ContextFn × List ContextRecord :=
  if ¬ av.isAvailability then (s, [])
  else
    let state := av.availabilityState.getD "null"
    let s := { s with
      availability := s.availability.set av.sourceKey (state ++ "@" ++ toString av.sinceMs) }
    if state ≠ "OFFLINE" then (s, [])
    else
      let atMs := availabilityMs av now
      ({ s with machines := s.machines.mapWithKey fun device m => (offline av atMs device m).1 },
        s.machines.entries.flatMap fun e =>
          render (offline av atMs e.1 e.2).2 s.bindings.values now)

inductive Input where
  | observation (o : HealthObservation) (now : ℤ)
  | timer (device : String) (timestamp : ℤ)
  | binding (lb : LoopBindings) (now : ℤ)
  | availability (av : HealthObservation) (now : ℤ)

def step (s : ContextFn) : Input → ContextFn × List ContextRecord
  | .observation o now => if o.isAvailability then (s, []) else s.processElement o now
  | .timer device timestamp => s.onTimer device timestamp
  | .binding lb now => s.processBinding lb now
  | .availability av now => s.processAvailability av now

end ContextFn

/-!
# Instrument health: the view of one device and the sources of a site

What the operator does for one device depends on the machine of the device and on the bindings
alone.  A source that goes offline reaches every device of its site, so the records of a device are
independent of a source exactly when each of its outages finds the device elsewhere, without an
interval, or offline already.
-/

namespace ContextRecord

def isOf (device : String) : ContextRecord → Bool
  | .deviceInterval interval _ _ => interval.deviceKey = device
  | .loopContext context => context.interval.any fun i => i.deviceKey = device

end ContextRecord

namespace ContextFn

structure DeviceView where
  siteMinFreshnessMs : ℤ
  machine : Option DeviceStateMachine
  bindings : Dict String LoopBindings

def view (device : String) (s : ContextFn) : DeviceView :=
  ⟨s.siteMinFreshnessMs, s.machines.get? device, s.bindings⟩

namespace DeviceView

def advance (v : DeviceView) (now : ℤ) (stepped : DeviceStateMachine × List Transition) :
    DeviceView × List ContextRecord :=
  ({ v with machine := some stepped.1 }, render stepped.2 v.bindings.values now)

/-- One element, as far as it concerns the device. -/
def step (device : String) (v : DeviceView) : Input → DeviceView × List ContextRecord
  | .observation o now =>
      if o.isAvailability ∨ o.deviceKey ≠ device then (v, [])
      else v.advance now
        ((v.machine.getD (DeviceStateMachine.new v.siteMinFreshnessMs)).apply o now)
  | .timer device' timestamp =>
      match v.machine with
      | none => (v, [])
      | some m => if device' = device then v.advance timestamp (m.onTimer timestamp) else (v, [])
  | .binding lb now =>
      if lb.loopId = "" then (v, [])
      else
        ({ v with bindings := v.bindings.set lb.loopId lb },
          match v.machine with
          | none => []
          | some m => if lb.bindings = [] then [] else republish lb now m)
  | .availability av now =>
      match v.machine with
      | none => (v, [])
      | some m =>
          if av.isAvailability ∧ av.availabilityState = some "OFFLINE" then
            v.advance now (offline av (availabilityMs av now) device m)
          else (v, [])

end DeviceView

/-! ## The records of a device -/

variable {s : ContextFn} {device : String} {now : ℤ}

def Owned (s : ContextFn) : Prop :=
  ∀ device m, s.machines.get? device = some m → DeviceStateMachine.Owns device m

theorem owned_new (siteMinFreshnessMs : ℤ) : Owned (new siteMinFreshnessMs) := by
  intro device m h
  cases h

theorem owns_machine (hs : Owned s) (device : String) :
    DeviceStateMachine.Owns device (s.machine device) := by
  rw [machine]
  cases h : s.machines.get? device with
  | none =>
    intro c hc
    cases hc
  | some m => exact hs device m h

theorem owns_offline {m : DeviceStateMachine} (hm : DeviceStateMachine.Owns device m)
    (av : HealthObservation) (atMs : ℤ) :
    DeviceStateMachine.Owns device (offline av atMs device m).1 ∧
      ∀ t ∈ (offline av atMs device m).2, t.interval.deviceKey = device := by
  rw [offline]
  split
  · exact @DeviceStateMachine.owns_step m (.offline atMs) device hm trivial
  · exact ⟨hm, by simp⟩

theorem isOf_loopContexts {bindings : List LoopBindings} {i : HealthInterval} {atMs : ℤ}
    {transition : String} {c : LoopContext}
    (h : c ∈ loopContexts bindings i atMs transition now) : c.interval = some i := by
  obtain ⟨lb, -, h⟩ := List.mem_flatMap.mp h
  obtain ⟨b, -, rfl⟩ := List.mem_map.mp h
  rfl

theorem isOf_render {transitions : List Transition} {bindings : List LoopBindings}
    (h : ∀ t ∈ transitions, t.interval.deviceKey = device) {r : ContextRecord}
    (hr : r ∈ render transitions bindings now) (device' : String) :
    r.isOf device' = decide (device = device') := by
  obtain ⟨t, ht, hr⟩ := List.mem_flatMap.mp hr
  rcases List.mem_cons.mp hr with rfl | hr
  · simp [ContextRecord.isOf, h t ht]
  · obtain ⟨c, hc, rfl⟩ := List.mem_map.mp hr
    simp [ContextRecord.isOf, isOf_loopContexts hc, h t ht]

theorem isOf_republish {lb : LoopBindings} {m : DeviceStateMachine}
    (hm : DeviceStateMachine.Owns device m) {r : ContextRecord} (hr : r ∈ republish lb now m)
    (device' : String) : r.isOf device' = decide (device = device') := by
  rw [republish] at hr
  cases hcurrent : m.current with
  | none => simp [hcurrent] at hr
  | some current =>
    simp only [hcurrent] at hr
    obtain ⟨c, hc, rfl⟩ := List.mem_map.mp hr
    simp [ContextRecord.isOf, isOf_loopContexts hc, (hm current hcurrent).1]

theorem filter_render {transitions : List Transition} {bindings : List LoopBindings}
    (h : ∀ t ∈ transitions, t.interval.deviceKey = device) (device' : String) :
    (render transitions bindings now).filter (·.isOf device') =
      if device = device' then render transitions bindings now else [] := by
  split
  · rename_i heq
    refine List.filter_eq_self.mpr fun r hr => ?_
    rw [isOf_render h hr, decide_eq_true heq]
  · rename_i hne
    refine List.filter_eq_nil_iff.mpr fun r hr => ?_
    rw [isOf_render h hr, decide_eq_false hne]
    simp

def IsOutage (av : HealthObservation) : Prop :=
  av.isAvailability = true ∧ av.availabilityState = some "OFFLINE"

theorem processAvailability_of_not_outage {av : HealthObservation} (h : ¬ IsOutage av) :
    (s.processAvailability av now).1.machines = s.machines ∧
      (s.processAvailability av now).1.bindings = s.bindings ∧
        (s.processAvailability av now).1.siteMinFreshnessMs = s.siteMinFreshnessMs ∧
          (s.processAvailability av now).2 = [] := by
  rw [processAvailability]
  by_cases hkind : av.isAvailability = true
  · have hstate : av.availabilityState.getD "null" ≠ "OFFLINE" := by
      intro hstate
      refine h ⟨hkind, ?_⟩
      cases hav : av.availabilityState with
      | none => simp [hav] at hstate
      | some state => simpa [hav] using hstate
    simp [hkind, hstate]
  · simp [hkind]

theorem processAvailability_of_outage {av : HealthObservation} (h : IsOutage av) :
    (s.processAvailability av now).1.machines =
        s.machines.mapWithKey (fun device m => (offline av (availabilityMs av now) device m).1) ∧
      (s.processAvailability av now).1.bindings = s.bindings ∧
        (s.processAvailability av now).1.siteMinFreshnessMs = s.siteMinFreshnessMs ∧
          (s.processAvailability av now).2 = s.machines.entries.flatMap fun e =>
            render (offline av (availabilityMs av now) e.1 e.2).2 s.bindings.values now := by
  obtain ⟨hkind, hstate⟩ := h
  simp [processAvailability, hkind, hstate]

theorem owned_step (hs : Owned s) (i : Input) : Owned (step s i).1 := by
  intro device m h
  cases i with
  | observation o now =>
    rw [step] at h
    split at h
    · exact hs device m h
    · rw [processElement, Dict.get?_set] at h
      split at h
      · rename_i heq
        obtain rfl := Option.some.inj h
        rw [heq]
        exact (@DeviceStateMachine.owns_step _ (.observation o now) o.deviceKey
          (owns_machine hs o.deviceKey) rfl).1
      · exact hs device m h
  | timer device' timestamp =>
    rw [step, onTimer] at h
    cases hm : s.machines.get? device' with
    | none => exact hs device m (by simpa [hm] using h)
    | some m₀ =>
      simp only [hm, Dict.get?_set] at h
      split at h
      · rename_i heq
        obtain rfl := Option.some.inj h
        rw [heq]
        exact (@DeviceStateMachine.owns_step m₀ (.timer timestamp) device' (hs device' m₀ hm)
          trivial).1
      · exact hs device m h
  | binding lb now =>
    rw [step, processBinding] at h
    split at h
    · exact hs device m h
    · exact hs device m h
  | availability av now =>
    rw [step] at h
    by_cases houtage : IsOutage av
    · rw [(processAvailability_of_outage houtage).1, Dict.get?_mapWithKey,
        Option.map_eq_some_iff] at h
      obtain ⟨m₀, hm₀, rfl⟩ := h
      exact (owns_offline (hs device m₀ hm₀) av _).1
    · rw [(processAvailability_of_not_outage houtage).1] at h
      exact hs device m h

theorem view_step (hs : Owned s) (device : String) (i : Input) :
    view device (step s i).1 = ((view device s).step device i).1 ∧
      (step s i).2.filter (·.isOf device) = ((view device s).step device i).2 := by
  cases i with
  | observation o now =>
    rw [step, DeviceView.step]
    cases hkind : o.isAvailability with
    | true => simp
    | false =>
      have howns : ∀ t ∈ ((s.machine o.deviceKey).apply o now).2,
          t.interval.deviceKey = o.deviceKey :=
        (@DeviceStateMachine.owns_step _ (.observation o now) o.deviceKey
          (owns_machine hs o.deviceKey) rfl).2
      simp only [Bool.false_eq_true, if_false, false_or, processElement, view]
      rw [filter_render howns]
      by_cases heq : o.deviceKey = device
      · subst heq
        simp [DeviceView.advance, machine]
      · have hne : device ≠ o.deviceKey := fun h => heq h.symm
        simp [heq, Dict.get?_set_of_ne _ _ hne]
  | timer device' timestamp =>
    rw [step, onTimer, DeviceView.step]
    by_cases heq : device' = device
    · subst heq
      cases hm : s.machines.get? device' with
      | none => simp [view, hm]
      | some m =>
        have howns : ∀ t ∈ (m.onTimer timestamp).2, t.interval.deviceKey = device' :=
          (@DeviceStateMachine.owns_step m (.timer timestamp) device' (hs device' m hm) trivial).2
        simp only [view, hm, if_true]
        rw [filter_render howns]
        simp [DeviceView.advance]
    · have hne : device ≠ device' := fun h => heq h.symm
      cases hm : s.machines.get? device' with
      | none => cases hm' : s.machines.get? device <;> simp [view, hm', heq]
      | some m =>
        have howns : ∀ t ∈ (m.onTimer timestamp).2, t.interval.deviceKey = device' :=
          (@DeviceStateMachine.owns_step m (.timer timestamp) device' (hs device' m hm) trivial).2
        simp only
        rw [filter_render howns]
        cases hm' : s.machines.get? device <;>
          simp [view, hm', heq, Dict.get?_set_of_ne _ _ hne]
  | binding lb now =>
    rw [step, processBinding, DeviceView.step]
    by_cases hloop : lb.loopId = ""
    · simp [hloop]
    · simp only [hloop, if_false]
      refine ⟨rfl, ?_⟩
      by_cases hempty : lb.bindings = []
      · cases hm : s.machines.get? device <;>
          simp [view, hempty, hm, ContextRecord.isOf, LoopHealthContext.notConfigured]
      · rw [if_neg hempty, @Dict.filter_flatMap_entries _ _ _ _ s.machines _ _ device
          fun e he r hr => isOf_republish (hs e.1 e.2 (Dict.get?_eq_some_iff.mpr he)) hr device]
        cases hm : s.machines.get? device <;> simp [view, hm, hempty]
  | availability av now =>
    rw [step, DeviceView.step]
    by_cases houtage : IsOutage av
    · obtain ⟨hmachines, hbindings, hmin, hrecords⟩ := @processAvailability_of_outage s now av houtage
      have hfilter := @Dict.filter_flatMap_entries _ _ _ _ s.machines
        (fun e => render (offline av (availabilityMs av now) e.1 e.2).2 s.bindings.values now)
        (·.isOf device) device fun e he r hr => isOf_render
          (owns_offline (hs e.1 e.2 (Dict.get?_eq_some_iff.mpr he)) av _).2 hr device
      rw [view, hmachines, hbindings, hmin, hrecords, hfilter, Dict.get?_mapWithKey]
      cases hm : s.machines.get? device with
      | none => simp [view, hm]
      | some m =>
        obtain ⟨hkind, hstate⟩ := houtage
        simp [view, hm, hkind, hstate, DeviceView.advance]
    · obtain ⟨hmachines, hbindings, hmin, hrecords⟩ :=
        @processAvailability_of_not_outage s now av houtage
      rw [view, hmachines, hbindings, hmin, hrecords]
      cases hm : s.machines.get? device with
      | none => simp [view, hm]
      | some m =>
        have hnot : ¬ (av.isAvailability = true ∧ av.availabilityState = some "OFFLINE") := houtage
        simp only [view, hm]
        rw [if_neg hnot]
        simp

/-! ## The availability of one source -/

def Input.isFrom (source : String) : Input → Bool
  | .availability av _ => av.isAvailability ∧ av.sourceKey = source
  | _ => false

def others (source : String) (inputs : List Input) : List Input :=
  inputs.filter fun i => ¬ i.isFrom source

def emitted (device : String) (s : ContextFn) (inputs : List Input) : List ContextRecord :=
  (Machine.outputs step s inputs).filter (·.isOf device)

/-- An outage of the source finds the device on another site, without an open interval, or offline
already. -/
def Spared (source device : String) (s : ContextFn) : Input → Prop
  | .availability av _ => IsOutage av → av.sourceKey = source → sameSite device av = true →
      ∀ m c, s.machines.get? device = some m → m.current = some c → c.collectionState = "OFFLINE"
  | _ => True

variable {source : String} {i : Input} {inputs : List Input}

theorem others_concat_of_isFrom (hi : i.isFrom source = true) :
    others source (inputs ++ [i]) = others source inputs := by
  simp [others, hi]

theorem view_step_of_spared (hi : i.isFrom source = true) (h : Spared source device s i) :
    (view device s).step device i = (view device s, []) := by
  cases i with
  | availability av now =>
    rw [DeviceView.step]
    cases hm : s.machines.get? device with
    | none => simp [view, hm]
    | some m =>
      simp only [view, hm]
      split
      · rename_i houtage
        have hsource : av.sourceKey = source := by
          simp only [Input.isFrom, decide_eq_true_eq] at hi
          exact hi.2
        have hquiet : offline av (availabilityMs av now) device m = (m, []) := by
          rw [offline]
          split
          · rename_i hsite
            rcases DeviceStateMachine.sourceOffline_cases m (availabilityMs av now) with
              hsame | ⟨c, hcurrent, honline, -⟩
            · exact hsame
            · exact absurd (h houtage hsource hsite m c hm hcurrent) honline
          · rfl
        rw [hquiet]
        rfl
      · rfl
  | observation _ _ => cases hi
  | timer _ _ => cases hi
  | binding _ _ => cases hi

theorem view_step_of_not_spared (h : ¬ Spared source device s i) :
    i.isFrom source = true ∧ ((view device s).step device i).2 ≠ [] := by
  cases i with
  | availability av now =>
    simp only [Spared] at h
    push Not at h
    obtain ⟨houtage, hsource, hsite, m, c, hm, hcurrent, honline⟩ := h
    refine ⟨by simp [Input.isFrom, houtage.1, hsource], ?_⟩
    simp [DeviceView.step, view, hm, houtage.1, houtage.2, DeviceView.advance, offline, hsite,
      DeviceStateMachine.sourceOffline, hcurrent, honline, DeviceStateMachine.boundaryTo, render]
  | observation _ _ => exact absurd trivial h
  | timer _ _ => exact absurd trivial h
  | binding _ _ => exact absurd trivial h

theorem owned_run (hs : Owned s) (inputs : List Input) :
    Owned (Machine.stateAfter step s inputs) :=
  Machine.invariant Owned hs (fun _ i h => owned_step h i) inputs

theorem emitted_concat (hs : Owned s) : emitted device s (inputs ++ [i]) =
    emitted device s inputs ++
      ((view device (Machine.stateAfter step s inputs)).step device i).2 := by
  rw [emitted, Machine.outputs_concat, List.filter_append, emitted,
    (view_step (owned_run hs inputs) device i).2]

theorem view_concat (hs : Owned s) : view device (Machine.stateAfter step s (inputs ++ [i])) =
    ((view device (Machine.stateAfter step s inputs)).step device i).1 := by
  rw [Machine.stateAfter_concat, (view_step (owned_run hs inputs) device i).1]

theorem emitted_others (hs : Owned s) (h : Machine.Always step (Spared source device) s inputs) :
    emitted device s inputs = emitted device s (others source inputs) ∧
      view device (Machine.stateAfter step s inputs) =
        view device (Machine.stateAfter step s (others source inputs)) := by
  induction inputs using List.reverseRecOn with
  | nil => exact ⟨rfl, rfl⟩
  | append_singleton pre i ih =>
    obtain ⟨hpre, hlast⟩ := (Machine.always_concat _ _ _ _ _).mp h
    obtain ⟨hemitted, hview⟩ := ih hpre
    rw [emitted_concat hs, view_concat hs]
    cases hi : i.isFrom source with
    | true =>
      rw [others_concat_of_isFrom hi, view_step_of_spared hi hlast, List.append_nil]
      exact ⟨hemitted, hview⟩
    | false =>
      have hothers : others source (pre ++ [i]) = others source pre ++ [i] := by simp [others, hi]
      rw [hothers, emitted_concat hs, view_concat hs, hemitted, hview]
      exact ⟨rfl, rfl⟩

theorem spared_of_agree {inputs' : List Input} (hs : Owned s)
    (hothers : others source inputs = others source inputs')
    (h : ∀ pre pre', pre <+: inputs → pre' <+: inputs' → others source pre = others source pre' →
      emitted device s pre = emitted device s pre') :
    Machine.Always step (Spared source device) s inputs := by
  refine (Machine.always_iff _ _).mpr fun pre i post heq => ?_
  by_contra hnot
  obtain ⟨hi, hloud⟩ := view_step_of_not_spared hnot
  have hpre : pre <+: inputs := ⟨i :: post, heq.symm⟩
  have hstep : pre ++ [i] <+: inputs := ⟨post, by simp [heq]⟩
  -- the other run passes the same point
  have hpoint : others source pre <+: others source inputs' := hothers ▸ hpre.filter _
  obtain ⟨pre', hpre', hsame⟩ := List.prefix_filter_iff.mp hpoint
  have hbefore := h pre pre' hpre hpre' hsame
  have hafter := h (pre ++ [i]) pre' hstep hpre' ((others_concat_of_isFrom hi).trans hsame)
  rw [emitted_concat hs, ← hbefore] at hafter
  exact hloud (List.append_right_eq_self.mp hafter)

/-- Two runs that differ only in availability messages of a source agree on the records of a device
at every point exactly when every outage of the source spares the device. -/
theorem isolated_iff (siteMinFreshnessMs : ℤ) (source device : String) (inputs inputs' : List Input)
    (hothers : others source inputs = others source inputs') :
    (∀ pre pre', pre <+: inputs → pre' <+: inputs' → others source pre = others source pre' →
      emitted device (new siteMinFreshnessMs) pre = emitted device (new siteMinFreshnessMs) pre') ↔
    Machine.Always step (Spared source device) (new siteMinFreshnessMs) inputs ∧
      Machine.Always step (Spared source device) (new siteMinFreshnessMs) inputs' := by
  have hs := owned_new siteMinFreshnessMs
  constructor
  · intro h
    refine ⟨spared_of_agree hs hothers h, spared_of_agree hs hothers.symm ?_⟩
    intro pre pre' hpre hpre' hsame
    exact (h pre' pre hpre' hpre hsame.symm).symm
  · rintro ⟨h, h'⟩ pre pre' ⟨post, rfl⟩ ⟨post', rfl⟩ hsame
    have hpre := ((Machine.always_append _ _ _ _ _).mp h).1
    have hpre' := ((Machine.always_append _ _ _ _ _).mp h').1
    rw [(emitted_others hs hpre).1, (emitted_others hs hpre').1, hsame]

/-- A first snapshot of a device from source `a` and an outage of source `b` at a site. -/
def snapshotOfA : Input :=
  .observation
    { tenantId := "t"
      site := "s"
      sourceId := "a"
      deviceId := "d"
      messageKind := "STATE_SNAPSHOT"
      stateComplete := true
      observedAtMs := 100
      verifiedAtMs := 100
      collectionState := "VERIFIED" } 100

def outageOfB (site : String) : Input :=
  .availability
    { tenantId := "t"
      site := site
      sourceId := "b"
      messageKind := "SOURCE_AVAILABILITY"
      availabilityState := some "OFFLINE"
      sinceMs := 200 } 200

theorem isolated_iff_elsewhere :
    (∀ pre pre', pre <+: [snapshotOfA, outageOfB "other"] → pre' <+: [snapshotOfA] →
      others "t|other|b" pre = others "t|other|b" pre' →
      emitted "t|s|d" (new 60000) pre = emitted "t|s|d" (new 60000) pre') ↔
    Machine.Always step (Spared "t|other|b" "t|s|d") (new 60000) [snapshotOfA, outageOfB "other"] ∧
      Machine.Always step (Spared "t|other|b" "t|s|d") (new 60000) [snapshotOfA] :=
  isolated_iff 60000 "t|other|b" "t|s|d" _ _ (by rfl)

/-- An outage of source `b` closes the interval of a device that only source `a` has reported. -/
theorem outage_closes_other_source :
    others "t|s|b" [snapshotOfA, outageOfB "s"] = others "t|s|b" [snapshotOfA] ∧
      emitted "t|s|d" (new 60000) [snapshotOfA, outageOfB "s"] ≠
        emitted "t|s|d" (new 60000) [snapshotOfA] :=
  ⟨by rfl, by decide +kernel⟩

end ContextFn

end OpenBridge.InstrumentHealth
