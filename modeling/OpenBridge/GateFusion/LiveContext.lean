import OpenBridge.Foundation.Compaction
import OpenBridge.GateFusion.FusionInputs
import OpenBridge.InstrumentHealth.OpenInterval

/-!
# Gate fusion: the instrument state that fusion holds

Fusion keeps the last context of each role; it is that of the open interval of the bound device as
long as no step publishes a context of the past, or removes a binding in silence.
-/

namespace OpenBridge.GateFusion

open OpenBridge.Foundation
open OpenBridge.InstrumentHealth

def consume (fs : Dict String GateFusionProcess) : ContextRecord → Dict String GateFusionProcess
  | .loopContext c =>
      if c.loopId = "" ∨ c.role = "" then fs
      else fs.set c.loopId
        (((fs.get? c.loopId).getD GateFusionProcess.new).processElement2 (.health c))
  | .deviceInterval _ _ _ => fs

def held (fs : Dict String GateFusionProcess) (loop role : String) : Option LoopContext :=
  (fs.get? loop).bind fun g => g.healthByRole.get? role

def ofSignal (loop role : String) (c : LoopContext) : Bool := c.loopId = loop ∧ c.role = role

variable {fs : Dict String GateFusionProcess} {records : List ContextRecord} {loop role : String}

theorem held_consume (hloop : loop ≠ "") (hrole : role ≠ "") (r : ContextRecord) :
    held (consume fs r) loop role =
      (((contexts [r]).filter (ofSignal loop role)).getLast?).or (held fs loop role) := by
  cases r with
  | deviceInterval _ _ _ => rfl
  | loopContext c =>
    have hcontexts : contexts [.loopContext c] = [c] := rfl
    rw [hcontexts, consume]
    by_cases hown : ofSignal loop role c = true
    · simp only [ofSignal, decide_eq_true_eq] at hown
      obtain ⟨rfl, rfl⟩ := hown
      rw [if_neg (by simp [hloop, hrole])]
      simp [held, GateFusionProcess.processElement2, hrole, ofSignal]
    · have hfilter : [c].filter (ofSignal loop role) = [] := by simp [hown]
      rw [hfilter]
      simp only [ofSignal, decide_eq_true_eq] at hown
      split
      · rfl
      · rename_i hvalid
        by_cases hsame : c.loopId = loop
        · subst hsame
          have hother : role ≠ c.role := fun h => hown ⟨rfl, h.symm⟩
          rw [held, Dict.get?_set_self, Option.bind_some, GateFusionProcess.processElement2,
            if_neg fun h => hvalid (Or.inr h), Dict.get?_set_of_ne _ _ hother]
          cases hfs : fs.get? c.loopId with
          | none => simp [held, hfs, GateFusionProcess.new]
          | some g => simp [held, hfs]
        · rw [held, Dict.get?_set_of_ne _ _ fun h => hsame h.symm]
          rfl

theorem contexts_append (records more : List ContextRecord) :
    contexts (records ++ more) = contexts records ++ contexts more := by
  rw [contexts, contexts, contexts, List.filterMap_append]

theorem held_foldl (hloop : loop ≠ "") (hrole : role ≠ "") (records : List ContextRecord) :
    held (records.foldl consume fs) loop role =
      (((contexts records).filter (ofSignal loop role)).getLast?).or (held fs loop role) := by
  induction records using List.reverseRecOn with
  | nil => rfl
  | append_singleton records r ih =>
    rw [List.foldl_append, List.foldl_cons, List.foldl_nil, held_consume hloop hrole, ih,
      contexts_append, List.filter_append, List.getLast?_append]
    cases ((contexts [r]).filter (ofSignal loop role)).getLast? with
    | none => rfl
    | some c => rfl

/-! ## Compaction by the context key -/

theorem loopKey_injective {c d : LoopContext} (hc : ':' ∉ c.role.toList) (hd : ':' ∉ d.role.toList)
    (h : (ContextRecord.loopContext c).contextKey = (ContextRecord.loopContext d).contextKey) :
    c.loopId = d.loopId ∧ c.role = d.role := by
  have hlist := congrArg String.toList h
  simp only [ContextRecord.contextKey, String.toList_append, List.append_assoc] at hlist
  have htail := List.append_cancel_left hlist
  obtain ⟨hloop, hrole⟩ := KeyText.split_last hc hd htail
  exact ⟨String.toList_inj.mp hloop, String.toList_inj.mp hrole⟩

theorem interval_ne_loop (i : HealthInterval) (transition : TransitionKind) (atMs : ℤ)
    (c : LoopContext) : (ContextRecord.deviceInterval i transition atMs).contextKey ≠
      (ContextRecord.loopContext c).contextKey := by
  intro h
  have hlist := congrArg String.toList h
  simp [ContextRecord.contextKey, HealthInterval.contextKey] at hlist

def isSignal (loop role : String) (r : ContextRecord) : Bool := r.context?.any (ofSignal loop role)

theorem filter_contexts (records : List ContextRecord) (loop role : String) :
    (contexts records).filter (ofSignal loop role) =
      contexts (records.filter (isSignal loop role)) := by
  induction records with
  | nil => rfl
  | cons r rest ih =>
    cases r with
    | deviceInterval _ _ _ => exact ih
    | loopContext c =>
      have hcons : contexts (.loopContext c :: rest) = c :: contexts rest := rfl
      rw [hcons, List.filter_cons, List.filter_cons, ih]
      have hsignal : isSignal loop role (.loopContext c) = ofSignal loop role c := rfl
      rw [hsignal]
      split <;> rfl

theorem getLast?_contexts (records : List ContextRecord) (loop role : String) :
    (contexts (records.filter (isSignal loop role))).getLast? =
      (records.filter (isSignal loop role)).getLast?.bind ContextRecord.context? := by
  induction records using List.reverseRecOn with
  | nil => rfl
  | append_singleton records r ih =>
    rw [List.filter_append, contexts_append]
    cases hr : isSignal loop role r with
    | false =>
      have hnone : [r].filter (isSignal loop role) = [] := by simp [hr]
      rw [hnone, List.append_nil]
      exact (congrArg List.getLast? (List.append_nil _)).trans ih
    | true =>
      cases r with
      | deviceInterval _ _ _ => cases hr
      | loopContext c => simp [hr, contexts, ContextRecord.context?]

theorem held_compact (hloop : loop ≠ "") (hrole : role ≠ "")
    (hroles : ∀ c ∈ contexts records, ':' ∉ c.role.toList) :
    held ((Compaction.compact ContextRecord.contextKey records).foldl consume fs) loop role =
      held (records.foldl consume fs) loop role := by
  have hkey : ∀ a ∈ records, ∀ b ∈ records, a.contextKey = b.contextKey →
      isSignal loop role a = isSignal loop role b := by
    intro a ha b hb h
    cases a with
    | deviceInterval i transition atMs =>
      cases b with
      | deviceInterval _ _ _ => rfl
      | loopContext d => exact absurd h (interval_ne_loop i transition atMs d)
    | loopContext c =>
      cases b with
      | deviceInterval i transition atMs => exact absurd h.symm (interval_ne_loop i transition atMs c)
      | loopContext d =>
        obtain ⟨hid, hrole⟩ := loopKey_injective (hroles c (mem_contexts.mpr ha))
          (hroles d (mem_contexts.mpr hb)) h
        simp [isSignal, ContextRecord.context?, ofSignal, hid, hrole]
  rw [held_foldl hloop hrole, held_foldl hloop hrole, filter_contexts, filter_contexts,
    getLast?_contexts, getLast?_contexts, Compaction.getLast?_filter_compact hkey]

/-! ## The operator and its consumer -/

/-- The operator, the fusion of every loop, the time of the last element, and the signals that were
bound after some element. -/
structure ContextPipeline where
  operator : ContextFn
  fusion : Dict String GateFusionProcess
  clock : ℤ
  bound : List (String × String)

def active (op : ContextFn) (now : ℤ) (loop : String) : List Binding :=
  ((op.bindings.get? loop).map fun lb => lb.bindings.filter (·.coversAt now)).getD []

def activeSignals (op : ContextFn) (now : ℤ) : List (String × String) :=
  op.bindings.entries.flatMap fun e =>
    (e.2.bindings.filter (·.coversAt now)).map fun b => (e.1, b.signalRole)

def currentOf (op : ContextFn) (device : String) : Option HealthInterval :=
  (ContextFn.view device op).current

def Unseen (op : ContextFn) (deviceId : String) : Prop :=
  ∀ device c, currentOf op device = some c → c.deviceId ≠ deviceId

namespace ContextPipeline

open ContextFn (Input)

def new (siteMinFreshnessMs : ℤ) : ContextPipeline :=
  ⟨ContextFn.new siteMinFreshnessMs, Dict.empty, 0, []⟩

def step (s : ContextPipeline) (i : Input) : ContextPipeline × List ContextRecord :=
  let out := s.operator.step i
  (⟨out.1, out.2.foldl consume s.fusion, i.time, activeSignals out.1 i.time ++ s.bound⟩, out.2)

/-- What fusion holds is the evaluation of the open interval of the bound device, nothing of another
interval for a bound device that has none, and `NOT_CONFIGURED` for a role that was bound. -/
structure Live (op : ContextFn) (now : ℤ) (bound : List (String × String))
    (held : String → String → Option LoopContext) : Prop where
  evaluated : ∀ loop b device c, b ∈ active op now loop →
    (∀ b' ∈ active op now loop, b'.signalRole = b.signalRole → b'.deviceId = b.deviceId) →
    currentOf op device = some c → c.deviceId = b.deviceId →
    (∀ device' c', currentOf op device' = some c' → c'.deviceId = b.deviceId → device' = device) →
    c.toMs = none ∧ ∃ h, held loop b.signalRole = some h ∧ h.result =
      HealthEligibilityPolicy.evaluate (some c) (LoopHealthContext.signalId loop b.signalRole)
  unseen : ∀ loop role, (∃ b ∈ active op now loop, b.signalRole = role) →
    (∀ b ∈ active op now loop, b.signalRole = role → Unseen op b.deviceId) →
    ∀ h, held loop role = some h → h.interval = none
  removed : ∀ loop role, (loop, role) ∈ bound → (∀ b ∈ active op now loop, b.signalRole ≠ role) →
    ∃ h, held loop role = some h ∧ h.result = HealthEligibilityPolicy.notConfigured

/-- The condition on new bindings of a loop: roles are named, a role that loses its binding is
`NOT_CONFIGURED` already or is the measurement of a loop without bindings, and a role that is bound to
devices without an interval has no context of another one. -/
structure OrderlyBinding (s : ContextPipeline) (lb : LoopBindings) (now : ℤ) : Prop where
  roles : ∀ b ∈ lb.bindings, b.signalRole ≠ "" ∧ ':' ∉ b.signalRole.toList
  removed : ∀ role, (lb.loopId, role) ∈ s.bound →
    (∀ b ∈ lb.bindings.filter (·.coversAt now), b.signalRole ≠ role) →
    (lb.bindings = [] ∧ role = "PV") ∨ ∃ h, held s.fusion lb.loopId role = some h ∧
      h.result = HealthEligibilityPolicy.notConfigured
  unseen : ∀ role, (∃ b ∈ lb.bindings.filter (·.coversAt now), b.signalRole = role) →
    (∀ b ∈ lb.bindings.filter (·.coversAt now), b.signalRole = role → Unseen s.operator b.deviceId) →
    ∀ h, held s.fusion lb.loopId role = some h → h.interval = none

def replaces (i : Input) (loop : String) : Prop :=
  match i with
  | .binding lb _ => lb.loopId = loop
  | _ => False

/-- The condition on an element: no binding starts or ends since the last one, the step of every device
settles, and new bindings are orderly. -/
structure Orderly (s : ContextPipeline) (i : Input) : Prop where
  steady : ∀ loop lb, s.operator.bindings.get? loop = some lb → ¬ replaces i loop →
    ∀ b ∈ lb.bindings, b.coversAt i.time = b.coversAt s.clock
  settles : ∀ device, (ContextFn.view device s.operator).Settles device i
  binding : ∀ lb now, i = .binding lb now → lb.loopId ≠ "" → OrderlyBinding s lb now

structure Grounded (s : ContextPipeline) : Prop where
  owned : ContextFn.Owned s.operator
  sober : ∀ device, (ContextFn.view device s.operator).Sober
  keyed : ∀ loop lb, s.operator.bindings.get? loop = some lb → lb.loopId = loop ∧ loop ≠ "" ∧
    ∀ b ∈ lb.bindings, b.signalRole ≠ "" ∧ ':' ∉ b.signalRole.toList
  signals : ∀ loop role, (loop, role) ∈ s.bound →
    loop ≠ "" ∧ role ≠ "" ∧ ':' ∉ role.toList

variable {s : ContextPipeline} {i : Input} {loop role : String} {now : ℤ} {op : ContextFn}

theorem mem_active {b : Binding} : b ∈ active op now loop ↔
    ∃ lb, op.bindings.get? loop = some lb ∧ b ∈ lb.bindings ∧ b.coversAt now = true := by
  rw [active]
  cases op.bindings.get? loop with
  | none => simp
  | some lb => simp

theorem mem_activeSignals : (loop, role) ∈ activeSignals op now ↔
    ∃ b ∈ active op now loop, b.signalRole = role := by
  simp only [activeSignals, List.mem_flatMap, List.mem_map, List.mem_filter, mem_active]
  constructor
  · rintro ⟨e, he, b, ⟨hb, hcovers⟩, heq⟩
    obtain ⟨rfl, rfl⟩ := Prod.mk.inj heq
    exact ⟨b, ⟨e.2, Dict.get?_eq_some_iff.mpr he, hb, hcovers⟩, rfl⟩
  · rintro ⟨b, ⟨lb, hlb, hb, hcovers⟩, rfl⟩
    exact ⟨(loop, lb), Dict.get?_eq_some_iff.mp hlb, b, ⟨hb, hcovers⟩, rfl⟩

/-! ## The records of a step that is not about bindings -/

theorem bindings_step (hi : i.isBinding = false) : (op.step i).1.bindings = op.bindings := by
  cases i with
  | observation o now =>
    rw [ContextFn.step]
    split <;> rfl
  | timer device timestamp =>
    rw [ContextFn.step, ContextFn.onTimer]
    split <;> rfl
  | binding _ _ => cases hi
  | availability av now =>
    rw [ContextFn.step]
    by_cases houtage : ContextFn.IsOutage av
    · exact (ContextFn.processAvailability_of_outage houtage).2.1
    · exact (ContextFn.processAvailability_of_not_outage houtage).2.1

theorem interval_of_render {ts : List Transition} {bindings : List LoopBindings} {c : LoopContext}
    (hc : c ∈ contexts (ContextFn.render ts bindings now)) : ∃ j, c.interval = some j := by
  rw [ContextFn.contexts_render] at hc
  obtain ⟨t, -, hc⟩ := List.mem_flatMap.mp hc
  exact ⟨t.interval, ContextFn.isOf_loopContexts hc⟩

theorem interval_step (hi : i.isBinding = false) {c : LoopContext}
    (hc : c ∈ contexts (op.step i).2) : ∃ j, c.interval = some j := by
  cases i with
  | observation o now =>
    rw [ContextFn.step] at hc
    split at hc
    · cases hc
    · exact interval_of_render hc
  | timer device timestamp =>
    rw [ContextFn.step, ContextFn.onTimer] at hc
    split at hc
    · cases hc
    · exact interval_of_render hc
  | binding _ _ => cases hi
  | availability av now =>
    rw [ContextFn.step] at hc
    by_cases houtage : ContextFn.IsOutage av
    · rw [(ContextFn.processAvailability_of_outage houtage).2.2.2, mem_contexts] at hc
      obtain ⟨e, -, hc⟩ := List.mem_flatMap.mp hc
      exact interval_of_render (mem_contexts.mpr hc)
    · rw [(ContextFn.processAvailability_of_not_outage houtage).2.2.2] at hc
      cases hc

theorem contexts_filter_isOf (records : List ContextRecord) (device : String) :
    contexts (records.filter (·.isOf device)) =
      (contexts records).filter fun c => c.interval.any fun j => j.deviceKey = device := by
  induction records with
  | nil => rfl
  | cons r rest ih =>
    cases r with
    | deviceInterval _ _ _ =>
      rw [List.filter_cons]
      split
      · exact ih
      · exact ih
    | loopContext c =>
      have hcons : contexts (.loopContext c :: rest) = c :: contexts rest := rfl
      have hisOf : (ContextRecord.loopContext c).isOf device =
          c.interval.any fun j => j.deviceKey = device := rfl
      rw [hcons, List.filter_cons, List.filter_cons, ← ih, hisOf]
      split <;> rfl

theorem contexts_view (hg : Grounded s) (device : String) (i : Input) :
    (contexts (s.operator.step i).2).filter
        (fun c => c.interval.any fun j => j.deviceKey = device) =
      contexts ((ContextFn.view device s.operator).step device i).2 := by
  rw [← contexts_filter_isOf, (ContextFn.view_step hg.owned device i).2]

theorem currentOf_step (hg : Grounded s) (device : String) (i : Input) :
    currentOf (s.operator.step i).1 device =
      ((ContextFn.view device s.operator).step device i).1.current := by
  rw [currentOf, (ContextFn.view_step hg.owned device i).1]

theorem active_step (h : Orderly s i) (hi : i.isBinding = false) (loop : String) :
    active (s.operator.step i).1 i.time loop = active s.operator s.clock loop := by
  rw [active, active, bindings_step hi]
  cases hlb : s.operator.bindings.get? loop with
  | none => rfl
  | some lb =>
    refine List.filter_congr fun b hb => h.steady loop lb hlb ?_ b hb
    cases i with
    | binding _ _ => cases hi
    | observation _ _ => exact id
    | timer _ _ => exact id
    | availability _ _ => exact id

theorem rendered (hg : Grounded s) (h : Orderly s i) (hi : i.isBinding = false) {c : LoopContext}
    (hc : c ∈ contexts (s.operator.step i).2) :
    ∃ device next b, currentOf (s.operator.step i).1 device = some next ∧
      b ∈ active (s.operator.step i).1 i.time c.loopId ∧ b.signalRole = c.role ∧
      b.deviceId = next.deviceId ∧ (c.interval.any fun j => j.deviceKey = device) = true := by
  obtain ⟨j, hj⟩ := interval_step hi hc
  have hdevice : (c.interval.any fun k => k.deviceKey = j.deviceKey) = true := by simp [hj]
  have hview : c ∈ contexts ((ContextFn.view j.deviceKey s.operator).step j.deviceKey i).2 := by
    rw [← contexts_view hg]
    exact List.mem_filter.mpr ⟨hc, hdevice⟩
  have hchange := ContextFn.DeviceView.change_step (hg.sober j.deviceKey) hi (h.settles j.deviceKey)
  generalize contexts ((ContextFn.view j.deviceKey s.operator).step j.deviceKey i).2 = cs
    at hview hchange
  cases hchange with
  | steady hsame => cases hview
  | opens pre next hcurrent hid hpre =>
    have hof : ContextFn.OfBinding s.operator.bindings.values next.deviceId i.time c := by
      rcases List.mem_append.mp hview with hc | hc
      · exact hpre c hc
      · obtain ⟨lb, hlb, b, hb, hid, hcovers, rfl⟩ := ContextFn.mem_loopContexts.mp hc
        exact ⟨lb, hlb, b, hb, hid, hcovers, rfl, rfl⟩
    obtain ⟨lb, hlb, b, hb, hid, hcovers, hloop, hrole⟩ := hof
    obtain ⟨e, he, rfl⟩ := List.mem_map.mp hlb
    have hget := Dict.get?_eq_some_iff.mpr he
    refine ⟨j.deviceKey, next, b, (currentOf_step hg _ i).trans hcurrent, ?_, hrole.symm, hid,
      hdevice⟩
    rw [mem_active, bindings_step hi, hloop, (hg.keyed _ _ hget).1]
    exact ⟨e.2, hget, hb, hcovers⟩

theorem held_step (s : ContextPipeline) (i : Input) (hloop : loop ≠ "") (hrole : role ≠ "") :
    held (step s i).1.fusion loop role =
      (((contexts (s.operator.step i).2).filter (ofSignal loop role)).getLast?).or
        (held s.fusion loop role) :=
  held_foldl hloop hrole _

theorem held_step_of_silent (hloop : loop ≠ "") (hrole : role ≠ "")
    (hsilent : ∀ c ∈ contexts (s.operator.step i).2, ofSignal loop role c = false) :
    held (step s i).1.fusion loop role = held s.fusion loop role := by
  rw [held_step s i hloop hrole, List.filter_eq_nil_iff.mpr fun c hc => by simp [hsilent c hc]]
  rfl

theorem unseen_of_step (hg : Grounded s) (h : Orderly s i) {deviceId : String}
    (hunseen : Unseen (s.operator.step i).1 deviceId) : Unseen s.operator deviceId := by
  intro device c hc hid
  obtain ⟨c', hc', hsame⟩ :=
    ContextFn.DeviceView.current_step_of_some (hg.sober device) (h.settles device) hc
  exact hunseen device c' ((currentOf_step hg device i).trans hc') (hsame.trans hid)

theorem named_of_active (hg : Grounded s) {b : Binding} (hb : b ∈ active s.operator now loop) :
    loop ≠ "" ∧ b.signalRole ≠ "" := by
  obtain ⟨lb, hlb, hmem, -⟩ := mem_active.mp hb
  obtain ⟨-, hloop, hroles⟩ := hg.keyed loop lb hlb
  exact ⟨hloop, (hroles b hmem).1⟩

theorem evaluated_step (hg : Grounded s) (h : Orderly s i) (hi : i.isBinding = false)
    (hlive : Live s.operator s.clock s.bound (held s.fusion)) {b : Binding} {device : String}
    {c : HealthInterval} (hb : b ∈ active (s.operator.step i).1 i.time loop)
    (hdevice : ∀ b' ∈ active (s.operator.step i).1 i.time loop, b'.signalRole = b.signalRole →
      b'.deviceId = b.deviceId)
    (hc : currentOf (s.operator.step i).1 device = some c) (hid : c.deviceId = b.deviceId)
    (honly : ∀ device' c', currentOf (s.operator.step i).1 device' = some c' →
      c'.deviceId = b.deviceId → device' = device) :
    ∃ k, held (step s i).1.fusion loop b.signalRole = some k ∧ k.result =
      HealthEligibilityPolicy.evaluate (some c) (LoopHealthContext.signalId loop b.signalRole) := by
  rw [active_step h hi] at hb hdevice
  obtain ⟨hloop, hrole⟩ := named_of_active hg hb
  -- every context of the signal is of the device
  have hown : (contexts (s.operator.step i).2).filter (ofSignal loop b.signalRole) =
      (contexts ((ContextFn.view device s.operator).step device i).2).filter
        (ofSignal loop b.signalRole) := by
    rw [← contexts_view hg, List.filter_filter]
    refine List.filter_congr fun k hk => ?_
    by_cases hsignal : ofSignal loop b.signalRole k = true
    · obtain ⟨device', next, b', hnext, hb', hrole', hid', hof⟩ := rendered hg h hi hk
      simp only [ofSignal, decide_eq_true_eq] at hsignal
      rw [active_step h hi, hsignal.1] at hb'
      have hsame := hdevice b' hb' (hrole'.trans hsignal.2)
      obtain rfl := honly device' next hnext (hid'.symm.trans hsame)
      simp [hof]
    · simp [hsignal]
  rw [held_step s i hloop hrole, hown]
  rw [currentOf_step hg] at hc
  have hchange := ContextFn.DeviceView.change_step (hg.sober device) hi (h.settles device)
  generalize contexts ((ContextFn.view device s.operator).step device i).2 = cs at hchange
  cases hchange with
  | steady hsame =>
    obtain ⟨hids, heval⟩ := hsame
    rw [hc, Option.map_some, Option.map_eq_some_iff] at hids
    obtain ⟨c₀, hc₀, hid₀⟩ := hids
    have honly₀ : ∀ device' c', currentOf s.operator device' = some c' →
        c'.deviceId = b.deviceId → device' = device := by
      intro device' c' hc' hid'
      obtain ⟨c'', hc'', hkept⟩ :=
        ContextFn.DeviceView.current_step_of_some (hg.sober device') (h.settles device') hc'
      exact honly device' c'' ((currentOf_step hg device' i).trans hc'') (hkept.trans hid')
    obtain ⟨-, k, hk, hresult⟩ :=
      hlive.evaluated loop b device c₀ hb hdevice hc₀ (hid₀.trans hid) honly₀
    refine ⟨k, hk, hresult.trans ?_⟩
    have hsignal := heval (LoopHealthContext.signalId loop b.signalRole)
    rw [hc, hc₀] at hsignal
    exact Option.some.inj hsignal
  | opens pre next hnext _ hpre =>
    obtain rfl := Option.some.inj (hnext.symm.trans hc)
    obtain ⟨lb, hlb, hmem, hcovers⟩ := mem_active.mp hb
    have hnow : b.coversAt i.time = true := by
      have hsteady := active_step h hi loop
      rw [← hsteady, mem_active] at hb
      obtain ⟨-, -, -, hcovers⟩ := hb
      exact hcovers
    -- the interval that the step opens is rendered for the signal, and nothing after it
    have hlast : (ContextFn.loopContexts s.operator.bindings.values next i.time "OPEN" i.time).filter
        (ofSignal loop b.signalRole) ≠ [] := by
      have hvalue : lb ∈ s.operator.bindings.values :=
        List.mem_map.mpr ⟨(loop, lb), Dict.get?_eq_some_iff.mp hlb, rfl⟩
      refine List.ne_nil_of_mem (List.mem_filter.mpr
        ⟨ContextFn.mem_loopContexts.mpr ⟨lb, hvalue, b, hmem, hid.symm, hnow, rfl⟩, ?_⟩)
      simp [ofSignal, LoopHealthContext.loopContext, (hg.keyed loop lb hlb).1]
    have hview : (ContextFn.view device s.operator).bindings = s.operator.bindings := rfl
    rw [hview, List.filter_append, List.getLast?_append_of_ne_nil _ hlast,
      List.getLast?_eq_some_getLast hlast]
    refine ⟨_, rfl, ?_⟩
    obtain ⟨hk, hsignal⟩ := List.mem_filter.mp (List.getLast_mem hlast)
    obtain ⟨lb', -, b', -, -, -, heq⟩ := ContextFn.mem_loopContexts.mp hk
    simp only [ofSignal, decide_eq_true_eq] at hsignal
    rw [heq] at hsignal ⊢
    obtain ⟨hl, hr⟩ := hsignal
    change lb'.loopId = loop at hl
    change b'.signalRole = b.signalRole at hr
    rw [← hl, ← hr]
    rfl

theorem live_step (hg : Grounded s) (h : Orderly s i) (hi : i.isBinding = false)
    (hopen : ∀ device c, currentOf (s.operator.step i).1 device = some c → c.toMs = none)
    (hlive : Live s.operator s.clock s.bound (held s.fusion)) :
    Live (s.operator.step i).1 i.time (activeSignals (s.operator.step i).1 i.time ++ s.bound)
      (held (step s i).1.fusion) := by
  refine ⟨fun loop b device c hb hdevice hc hid honly => ?_, fun loop role hsome hunseen k hk => ?_,
    fun loop role hbound hnone => ?_⟩
  · exact ⟨hopen device c hc, evaluated_step hg h hi hlive hb hdevice hc hid honly⟩
  · have hactive := active_step h hi loop
    obtain ⟨b, hb, rfl⟩ := hsome
    obtain ⟨hloop, hrole⟩ := named_of_active hg (hactive ▸ hb)
    have hsilent : held (step s i).1.fusion loop b.signalRole =
        held s.fusion loop b.signalRole := by
      refine held_step_of_silent hloop hrole fun k hk => ?_
      by_contra hsignal
      obtain ⟨device, next, b', hnext, hb', hrole', hid, -⟩ := rendered hg h hi hk
      simp only [ofSignal, decide_eq_true_eq, Bool.not_eq_false] at hsignal
      rw [hsignal.1] at hb'
      exact hunseen b' hb' (hrole'.trans hsignal.2) device next hnext hid.symm
    rw [hsilent] at hk
    rw [hactive] at hb hunseen
    exact hlive.unseen loop b.signalRole ⟨b, hb, rfl⟩
      (fun b' hb' hr => unseen_of_step hg h (hunseen b' hb' hr)) k hk
  · have hactive := active_step h hi loop
    have hbefore : (loop, role) ∈ s.bound := by
      rcases List.mem_append.mp hbound with hnow | hbefore
      · obtain ⟨b, hb, hrole⟩ := mem_activeSignals.mp hnow
        exact absurd hrole (hnone b hb)
      · exact hbefore
    obtain ⟨hloop, hrole, -⟩ := hg.signals loop role hbefore
    rw [held_step_of_silent hloop hrole fun k hk => ?_]
    · exact hlive.removed loop role hbefore (hactive ▸ hnone)
    · by_contra hsignal
      obtain ⟨device, next, b', hnext, hb', hrole', hid, -⟩ := rendered hg h hi hk
      simp only [ofSignal, decide_eq_true_eq, Bool.not_eq_false] at hsignal
      rw [hsignal.1] at hb'
      exact hnone b' hb' (hrole'.trans hsignal.2)

/-! ## The records of new bindings -/

section Bindings

variable {lb : LoopBindings}

theorem currentOf_binding (op : ContextFn) (lb : LoopBindings) (now : ℤ) (device : String) :
    currentOf (op.step (.binding lb now)).1 device = currentOf op device := by
  rw [ContextFn.step, ContextFn.processBinding]
  split <;> rfl

theorem active_binding (op : ContextFn) (now : ℤ) (hlb : lb.loopId ≠ "") (loop : String) :
    active (op.step (.binding lb now)).1 now loop =
      if loop = lb.loopId then lb.bindings.filter (·.coversAt now) else active op now loop := by
  rw [ContextFn.step, ContextFn.processBinding, if_neg hlb, active]
  simp only [Dict.get?_set]
  split <;> rfl

theorem active_binding_other (h : Orderly s (.binding lb now))
    (hloop : loop ≠ lb.loopId) : active s.operator now loop = active s.operator s.clock loop := by
  rw [active, active]
  cases hget : s.operator.bindings.get? loop with
  | none => rfl
  | some lb' =>
    exact List.filter_congr fun b hb => h.steady loop lb' hget (fun heq => hloop heq.symm) b hb

theorem contexts_binding_nil (op : ContextFn) (hlb : lb.loopId ≠ "") (hnil : lb.bindings = []) :
    contexts (op.step (.binding lb now)).2 =
      [LoopHealthContext.notConfigured lb.loopId "PV" now] := by
  rw [ContextFn.step, ContextFn.processBinding, if_neg hlb, if_pos hnil]
  rfl

theorem mem_contexts_binding (hg : Grounded s) (hlb : lb.loopId ≠ "") (hnil : lb.bindings ≠ [])
    {c : LoopContext} : c ∈ contexts (s.operator.step (.binding lb now)).2 ↔
      ∃ device j, currentOf s.operator device = some j ∧ ∃ b ∈ lb.bindings,
        b.deviceId = j.deviceId ∧ b.coversAt now = true ∧
        c = LoopHealthContext.loopContext lb.loopId b.signalRole b.bindingId j
          (HealthEligibilityPolicy.evaluate (some j)
            (LoopHealthContext.signalId lb.loopId b.signalRole)) "BINDING" now := by
  rw [mem_contexts, ContextFn.step, ContextFn.processBinding, if_neg hlb]
  simp only [if_neg hnil, List.mem_flatMap]
  have hrepublish : ∀ (m : DeviceStateMachine) (j : HealthInterval), m.current = some j →
      j.toMs = none → (ContextRecord.loopContext c ∈ ContextFn.republish lb now m ↔
        c ∈ ContextFn.loopContexts [lb] j now "BINDING" now) := by
    intro m j hj hopen
    rw [ContextFn.republish, hj]
    simp only [hopen, List.mem_map, ContextRecord.loopContext.injEq, exists_eq_right]
  constructor
  · rintro ⟨e, he, hc⟩
    have hget := Dict.get?_eq_some_iff.mpr he
    cases hj : e.2.current with
    | none => simp [ContextFn.republish, hj] at hc
    | some j =>
      have hsound := hg.sober e.1 e.2 hget j hj
      obtain ⟨lb', hlb', b, hb, hid, hcovers, rfl⟩ :=
        ContextFn.mem_loopContexts.mp ((hrepublish e.2 j hj hsound.isOpen).mp hc)
      obtain rfl := List.mem_singleton.mp hlb'
      refine ⟨e.1, j, ?_, b, hb, hid, hcovers, rfl⟩
      rw [currentOf, ContextFn.DeviceView.current, ContextFn.view, hget, Option.bind_some, hj]
  · rintro ⟨device, j, hj, b, hb, hid, hcovers, rfl⟩
    obtain ⟨m, hm, hcurrent⟩ := Option.bind_eq_some_iff.mp hj
    have hsound := hg.sober device m hm j hcurrent
    refine ⟨(device, m), Dict.get?_eq_some_iff.mp hm, ?_⟩
    rw [hrepublish m j hcurrent hsound.isOpen, ContextFn.mem_loopContexts]
    exact ⟨lb, List.mem_singleton_self lb, b, hb, hid, hcovers, rfl⟩

theorem loopId_of_binding (hg : Grounded s) (hlb : lb.loopId ≠ "") {c : LoopContext}
    (hc : c ∈ contexts (s.operator.step (.binding lb now)).2) : c.loopId = lb.loopId := by
  by_cases hnil : lb.bindings = []
  · rw [contexts_binding_nil _ hlb hnil] at hc
    obtain rfl := List.mem_singleton.mp hc
    rfl
  · obtain ⟨-, -, -, -, -, -, -, rfl⟩ := (mem_contexts_binding hg hlb hnil).mp hc
    rfl

theorem evaluated_binding (hg : Grounded s) (hlb : lb.loopId ≠ "")
    (hroles : ∀ b ∈ lb.bindings, b.signalRole ≠ "" ∧ ':' ∉ b.signalRole.toList) {b : Binding}
    {device : String} {c : HealthInterval} (hb : b ∈ lb.bindings) (hcovers : b.coversAt now = true)
    (hdevice : ∀ b' ∈ lb.bindings.filter (·.coversAt now), b'.signalRole = b.signalRole →
      b'.deviceId = b.deviceId)
    (hc : currentOf s.operator device = some c) (hid : c.deviceId = b.deviceId)
    (honly : ∀ device' c', currentOf s.operator device' = some c' → c'.deviceId = b.deviceId →
      device' = device) :
    ∃ k, held (step s (.binding lb now)).1.fusion lb.loopId b.signalRole = some k ∧ k.result =
      HealthEligibilityPolicy.evaluate (some c)
        (LoopHealthContext.signalId lb.loopId b.signalRole) := by
  have hnil : lb.bindings ≠ [] := List.ne_nil_of_mem hb
  have hsome : (contexts (s.operator.step (.binding lb now)).2).filter
      (ofSignal lb.loopId b.signalRole) ≠ [] := by
    refine List.ne_nil_of_mem (List.mem_filter.mpr ⟨(mem_contexts_binding hg hlb hnil).mpr
      ⟨device, c, hc, b, hb, hid.symm, hcovers, rfl⟩, ?_⟩)
    simp [ofSignal, LoopHealthContext.loopContext]
  rw [held_step _ _ hlb (hroles b hb).1, List.getLast?_eq_some_getLast hsome]
  refine ⟨_, rfl, ?_⟩
  obtain ⟨hk, hsignal⟩ := List.mem_filter.mp (List.getLast_mem hsome)
  obtain ⟨device', c', hc', b', hb', hid', hcovers', heq⟩ :=
    (mem_contexts_binding hg hlb hnil).mp hk
  simp only [ofSignal, decide_eq_true_eq] at hsignal
  rw [heq] at hsignal ⊢
  have hrole : b'.signalRole = b.signalRole := hsignal.2
  have hsame := hdevice b' (List.mem_filter.mpr ⟨hb', hcovers'⟩) hrole
  obtain rfl := honly device' c' hc' (hid'.symm.trans hsame)
  obtain rfl := Option.some.inj (hc'.symm.trans hc)
  show HealthEligibilityPolicy.evaluate (some c')
    (LoopHealthContext.signalId lb.loopId b'.signalRole) = _
  rw [hrole]

theorem live_binding (hg : Grounded s) (h : Orderly s (.binding lb now)) (hlb : lb.loopId ≠ "")
    (hlive : Live s.operator s.clock s.bound (held s.fusion)) :
    Live (s.operator.step (.binding lb now)).1 now
      (activeSignals (s.operator.step (.binding lb now)).1 now ++ s.bound)
      (held (step s (.binding lb now)).1.fusion) := by
  have horderly := h.binding lb now rfl hlb
  have hother : ∀ loop, loop ≠ lb.loopId → active (s.operator.step (.binding lb now)).1 now loop =
      active s.operator s.clock loop := by
    intro loop hloop
    rw [active_binding _ _ hlb, if_neg hloop, active_binding_other h hloop]
  have hown : active (s.operator.step (.binding lb now)).1 now lb.loopId =
      lb.bindings.filter (·.coversAt now) := by
    rw [active_binding _ _ hlb, if_pos rfl]
  have hsilent : ∀ loop role, loop ≠ lb.loopId → loop ≠ "" → role ≠ "" →
      held (step s (.binding lb now)).1.fusion loop role = held s.fusion loop role := by
    intro loop role hloop hname hrole
    refine held_step_of_silent hname hrole fun c hc => ?_
    have hid := loopId_of_binding hg hlb hc
    simp [ofSignal, hid, Ne.symm hloop]
  refine ⟨fun loop b device c hb hdevice hc hid honly => ?_, fun loop role hsome hunseen k hk => ?_,
    fun loop role hbound hnone => ?_⟩
  · rw [currentOf_binding] at hc
    have hopen : c.toMs = none := by
      obtain ⟨m, hm, hcurrent⟩ := Option.bind_eq_some_iff.mp hc
      exact (hg.sober device m hm c hcurrent).isOpen
    have honly' : ∀ device' c', currentOf s.operator device' = some c' →
        c'.deviceId = b.deviceId → device' = device := by
      intro device' c' hc' hid'
      exact honly device' c' ((currentOf_binding _ _ _ _).trans hc') hid'
    refine ⟨hopen, ?_⟩
    by_cases hloop : loop = lb.loopId
    · subst hloop
      rw [hown] at hb hdevice
      obtain ⟨hmem, hcovers⟩ := List.mem_filter.mp hb
      exact evaluated_binding hg hlb horderly.roles hmem hcovers hdevice hc hid honly'
    · rw [hother loop hloop] at hb hdevice
      obtain ⟨hname, hrole⟩ := named_of_active hg hb
      rw [hsilent loop _ hloop hname hrole]
      exact (hlive.evaluated loop b device c hb hdevice hc hid honly').2
  · have hbefore : ∀ b ∈ active (s.operator.step (.binding lb now)).1 now loop,
        b.signalRole = role → Unseen s.operator b.deviceId := by
      intro b hb hrole device c hc
      exact hunseen b hb hrole device c ((currentOf_binding _ _ _ _).trans hc)
    by_cases hloop : loop = lb.loopId
    · subst hloop
      rw [hown] at hsome hbefore
      obtain ⟨b, hb, rfl⟩ := hsome
      have hmem := (List.mem_filter.mp hb).1
      rw [held_step_of_silent hlb (horderly.roles b hmem).1 fun c hc => ?_] at hk
      · exact horderly.unseen _ ⟨b, hb, rfl⟩ hbefore k hk
      · obtain ⟨device, j, hj, b', hb', hid', hcovers', rfl⟩ :=
          (mem_contexts_binding hg hlb (List.ne_nil_of_mem hmem)).mp hc
        by_contra hsignal
        simp only [ofSignal, decide_eq_true_eq, Bool.not_eq_false] at hsignal
        exact hbefore b' (List.mem_filter.mpr ⟨hb', hcovers'⟩) hsignal.2 device j hj hid'.symm
    · rw [hother loop hloop] at hsome hbefore
      have hnamed := hsome
      obtain ⟨b, hb, rfl⟩ := hnamed
      obtain ⟨hname, hrole⟩ := named_of_active hg hb
      rw [hsilent loop _ hloop hname hrole] at hk
      exact hlive.unseen loop _ hsome hbefore k hk
  · have hbefore : (loop, role) ∈ s.bound := by
      rcases List.mem_append.mp hbound with hnow | hbefore
      · obtain ⟨b, hb, hrole⟩ := mem_activeSignals.mp hnow
        exact absurd hrole (hnone b hb)
      · exact hbefore
    obtain ⟨hname, hrole, -⟩ := hg.signals loop role hbefore
    by_cases hloop : loop = lb.loopId
    · subst hloop
      rw [hown] at hnone
      by_cases hnil : lb.bindings = []
      · rw [held_step _ _ hname hrole, contexts_binding_nil _ hlb hnil]
        by_cases hpv : role = "PV"
        · subst hpv
          have hsignal : ofSignal lb.loopId "PV"
              (LoopHealthContext.notConfigured lb.loopId "PV" now) = true := by
            simp [ofSignal, LoopHealthContext.notConfigured]
          rw [List.filter_cons_of_pos hsignal]
          exact ⟨_, rfl, rfl⟩
        · have hsignal : ¬ ofSignal lb.loopId role
              (LoopHealthContext.notConfigured lb.loopId "PV" now) = true := by
            simp [ofSignal, LoopHealthContext.notConfigured, Ne.symm hpv]
          rw [List.filter_cons_of_neg hsignal]
          exact (horderly.removed role hbefore hnone).resolve_left fun h => hpv h.2
      · rw [held_step_of_silent hname hrole fun c hc => ?_]
        · exact (horderly.removed role hbefore hnone).resolve_left fun h => hnil h.1
        · obtain ⟨device, j, hj, b', hb', hid', hcovers', rfl⟩ :=
            (mem_contexts_binding hg hlb hnil).mp hc
          by_contra hsignal
          simp only [ofSignal, decide_eq_true_eq, Bool.not_eq_false] at hsignal
          exact hnone b' (List.mem_filter.mpr ⟨hb', hcovers'⟩) hsignal.2
    · rw [hother loop hloop] at hnone
      rw [hsilent loop role hloop hname hrole]
      exact hlive.removed loop role hbefore hnone

end Bindings

/-! ## Whole runs -/

theorem step_nameless (op : ContextFn) {lb : LoopBindings} (hlb : lb.loopId = "") (now : ℤ) :
    op.step (.binding lb now) = (op, []) := by
  rw [ContextFn.step, ContextFn.processBinding, if_pos hlb]

theorem grounded_new (siteMinFreshnessMs : ℤ) : Grounded (new siteMinFreshnessMs) := by
  refine ⟨ContextFn.owned_new _, fun device m hm => ?_, fun loop lb h => ?_, fun loop role h => ?_⟩
  · cases hm
  · cases h
  · cases h

theorem keyed_step (hg : Grounded s) (h : Orderly s i) {loop : String} {lb : LoopBindings}
    (hlb : (s.operator.step i).1.bindings.get? loop = some lb) : lb.loopId = loop ∧ loop ≠ "" ∧
      ∀ b ∈ lb.bindings, b.signalRole ≠ "" ∧ ':' ∉ b.signalRole.toList := by
  cases hi : i.isBinding with
  | false =>
    rw [bindings_step hi] at hlb
    exact hg.keyed loop lb hlb
  | true =>
    cases i with
    | binding lb' now =>
      by_cases hname : lb'.loopId = ""
      · rw [step_nameless _ hname] at hlb
        exact hg.keyed loop lb hlb
      · rw [ContextFn.step, ContextFn.processBinding, if_neg hname, Dict.get?_set] at hlb
        split at hlb
        · rename_i hloop
          obtain rfl := Option.some.inj hlb
          exact ⟨hloop.symm, hloop ▸ hname, (h.binding _ now rfl hname).roles⟩
        · exact hg.keyed loop lb hlb
    | observation _ _ => cases hi
    | timer _ _ => cases hi
    | availability _ _ => cases hi

theorem grounded_step (hg : Grounded s) (h : Orderly s i) : Grounded (step s i).1 := by
  refine ⟨ContextFn.owned_step hg.owned i, fun device => ?_, fun loop lb hlb => keyed_step hg h hlb,
    fun loop role hbound => ?_⟩
  · show (ContextFn.view device (s.operator.step i).1).Sober
    rw [(ContextFn.view_step hg.owned device i).1]
    exact ContextFn.DeviceView.sober_step (hg.sober device) i
  · rcases List.mem_append.mp hbound with hnow | hbefore
    · obtain ⟨b, hb, rfl⟩ := mem_activeSignals.mp hnow
      obtain ⟨lb, hlb, hmem, -⟩ := mem_active.mp hb
      obtain ⟨-, hloop, hroles⟩ := keyed_step hg h hlb
      exact ⟨hloop, hroles b hmem⟩
    · exact hg.signals loop role hbefore

theorem roles_step (hg : Grounded s) (h : Orderly s i) :
    ∀ c ∈ contexts (s.operator.step i).2, ':' ∉ c.role.toList := by
  intro c hc
  cases hi : i.isBinding with
  | false =>
    obtain ⟨-, -, b, -, hb, hrole, -, -⟩ := rendered hg h hi hc
    obtain ⟨lb, hlb, hmem, -⟩ := mem_active.mp hb
    exact hrole ▸ ((keyed_step hg h hlb).2.2 b hmem).2
  | true =>
    cases i with
    | binding lb now =>
      by_cases hname : lb.loopId = ""
      · rw [step_nameless _ hname] at hc
        cases hc
      by_cases hnil : lb.bindings = []
      · rw [contexts_binding_nil _ hname hnil] at hc
        obtain rfl := List.mem_singleton.mp hc
        show ':' ∉ "PV".toList
        decide
      · obtain ⟨-, -, -, b, hb, -, -, rfl⟩ := (mem_contexts_binding hg hname hnil).mp hc
        exact ((h.binding lb now rfl hname).roles b hb).2
    | observation _ _ => cases hi
    | timer _ _ => cases hi
    | availability _ _ => cases hi

theorem live_of_step (hg : Grounded s) (h : Orderly s i)
    (hlive : Live s.operator s.clock s.bound (held s.fusion)) :
    Live (step s i).1.operator (step s i).1.clock (step s i).1.bound (held (step s i).1.fusion) := by
  have hopen : ∀ device c, currentOf (s.operator.step i).1 device = some c → c.toMs = none := by
    intro device c hc
    obtain ⟨m, hm, hcurrent⟩ := Option.bind_eq_some_iff.mp hc
    exact ((grounded_step hg h).sober device m hm c hcurrent).isOpen
  cases hi : i.isBinding with
  | false => exact live_step hg h hi hopen hlive
  | true =>
    cases i with
    | binding lb now =>
      by_cases hname : lb.loopId = ""
      · have hstep : step s (.binding lb now) =
            (⟨s.operator, s.fusion, now, activeSignals s.operator now ++ s.bound⟩, []) := by
          simp only [step, step_nameless _ hname]
          rfl
        have hactive : ∀ loop, active s.operator now loop = active s.operator s.clock loop := by
          intro loop
          by_cases hloop : loop = lb.loopId
          · rw [active, active]
            cases hget : s.operator.bindings.get? loop with
            | none => rfl
            | some lb' => exact absurd (hloop.trans hname) (hg.keyed loop lb' hget).2.1
          · exact active_binding_other h hloop
        rw [hstep]
        refine ⟨?_, ?_, fun loop role hbound hnone => ?_⟩
        · simpa only [hactive] using hlive.evaluated
        · simpa only [hactive] using hlive.unseen
        · rcases List.mem_append.mp hbound with hnow | hbefore
          · obtain ⟨b, hb, hrole⟩ := mem_activeSignals.mp hnow
            exact absurd hrole (hnone b hb)
          · exact hlive.removed loop role hbefore (hactive loop ▸ hnone)
      · exact live_binding hg h hname hlive
    | observation _ _ => cases hi
    | timer _ _ => cases hi
    | availability _ _ => cases hi

theorem live_new (siteMinFreshnessMs : ℤ) : Live (ContextFn.new siteMinFreshnessMs) 0 []
    (held Dict.empty) := by
  refine ⟨fun loop b device c hb => ?_, fun loop role hsome => ?_, fun loop role h => ?_⟩
  · cases hb
  · obtain ⟨b, hb, -⟩ := hsome
    cases hb
  · cases h

theorem fusion_run (s : ContextPipeline) (inputs : List Input) :
    (Machine.stateAfter step s inputs).fusion =
      (Machine.outputs step s inputs).foldl consume s.fusion := by
  induction inputs using List.reverseRecOn with
  | nil => rfl
  | append_singleton pre i ih =>
    rw [Machine.stateAfter_concat, Machine.outputs_concat, List.foldl_append, ← ih]
    rfl

theorem live_congr (hg : Grounded s) {holds holds' : String → String → Option LoopContext}
    (h : ∀ loop role, loop ≠ "" → role ≠ "" → holds loop role = holds' loop role)
    (hlive : Live s.operator s.clock s.bound holds) :
    Live s.operator s.clock s.bound holds' := by
  refine ⟨fun loop b device c hb hdevice hc hid honly => ?_, fun loop role hsome hunseen => ?_,
    fun loop role hbound hnone => ?_⟩
  · obtain ⟨hloop, hrole⟩ := named_of_active hg hb
    rw [← h loop _ hloop hrole]
    exact hlive.evaluated loop b device c hb hdevice hc hid honly
  · have hnamed := hsome
    obtain ⟨b, hb, rfl⟩ := hnamed
    obtain ⟨hloop, hrole⟩ := named_of_active hg hb
    rw [← h loop _ hloop hrole]
    exact hlive.unseen loop _ hsome hunseen
  · obtain ⟨hloop, hrole, -⟩ := hg.signals loop role hbound
    rw [← h loop role hloop hrole]
    exact hlive.removed loop role hbound hnone

/-- In every state of a run of orderly elements, what fusion holds is live, whether it consumed every
record in order or the log compacted by its keys. -/
theorem live_of_orderly (siteMinFreshnessMs : ℤ) (inputs : List Input)
    (h : Machine.Always step Orderly (new siteMinFreshnessMs) inputs) :
    ∀ pre, pre <+: inputs →
      let s := Machine.stateAfter step (new siteMinFreshnessMs) pre
      let log := Machine.outputs step (new siteMinFreshnessMs) pre
      Live s.operator s.clock s.bound (held s.fusion) ∧
        Live s.operator s.clock s.bound
          (held ((Compaction.compact ContextRecord.contextKey log).foldl consume Dict.empty)) := by
  rintro pre ⟨post, rfl⟩
  have hpre := ((Machine.always_append _ _ _ _ _).mp h).1
  have hrun : Grounded (Machine.stateAfter step (new siteMinFreshnessMs) pre) ∧
      Live (Machine.stateAfter step (new siteMinFreshnessMs) pre).operator
        (Machine.stateAfter step (new siteMinFreshnessMs) pre).clock
        (Machine.stateAfter step (new siteMinFreshnessMs) pre).bound
        (held (Machine.stateAfter step (new siteMinFreshnessMs) pre).fusion) ∧
      ∀ c ∈ contexts (Machine.outputs step (new siteMinFreshnessMs) pre), ':' ∉ c.role.toList := by
    clear h
    induction pre using List.reverseRecOn with
    | nil => exact ⟨grounded_new _, live_new _, by simp [contexts]⟩
    | append_singleton pre i ih =>
      obtain ⟨hpre, hlast⟩ := (Machine.always_concat _ _ _ _ _).mp hpre
      obtain ⟨hg, hlive, hroles⟩ := ih hpre
      rw [Machine.stateAfter_concat, Machine.outputs_concat, contexts_append]
      refine ⟨grounded_step hg hlast, live_of_step hg hlast hlive, fun c hc => ?_⟩
      rcases List.mem_append.mp hc with hc | hc
      · exact hroles c hc
      · exact roles_step hg hlast c hc
  obtain ⟨hg, hlive, hroles⟩ := hrun
  refine ⟨hlive, live_congr hg (fun loop role hloop hrole => ?_) hlive⟩
  rw [held_compact hloop hrole hroles, fusion_run]
  rfl

def boundPv : Input :=
  .binding { loopId := "L", bindings := [⟨"b", "PV", "d", 0, none⟩] } 50

def healthySnapshot : Input :=
  .observation
    { tenantId := "t"
      site := "s"
      deviceId := "d"
      messageKind := "STATE_SNAPSHOT"
      stateComplete := true
      observedAtMs := 100
      verifiedAtMs := 100
      collectionState := "VERIFIED"
      measurementImpact := "NONE" } 100

def lateFault : Input :=
  .observation
    { tenantId := "t"
      site := "s"
      deviceId := "d"
      messageKind := "STATE_EVENT"
      sequence := 1
      stateComplete := true
      observedAtMs := 60
      verifiedAtMs := 100
      activeFlags := ["F"]
      collectionState := "VERIFIED"
      measurementImpact := "INVALID"
      changeKind := some "LATE_CORRECTION" } 120

theorem live_of_orderly_snapshot :
    let s := Machine.stateAfter step (new 60000) [boundPv, healthySnapshot]
    let log := Machine.outputs step (new 60000) [boundPv, healthySnapshot]
    Live s.operator s.clock s.bound (held s.fusion) ∧
      Live s.operator s.clock s.bound
        (held ((Compaction.compact ContextRecord.contextKey log).foldl consume Dict.empty)) := by
  refine live_of_orderly 60000 [boundPv, healthySnapshot]
    ⟨⟨?_, ?_, ?_⟩, ⟨?_, ?_, ?_⟩, trivial⟩ _ (List.prefix_refl _)
  · intro loop lb hlb
    cases hlb
  · intro device
    exact trivial
  · rintro lb now heq -
    obtain ⟨rfl, rfl⟩ := Input.binding.inj heq
    refine ⟨by decide, fun role hbound => ?_, fun role _ _ h hh => ?_⟩
    · cases hbound
    · cases hh
  · intro loop lb hlb _ b hb
    have hentry := Dict.get?_eq_some_iff.mp hlb
    have hall : ∀ e ∈ (step (new 60000) boundPv).1.operator.bindings.entries, ∀ b ∈ e.2.bindings,
        b.coversAt 100 = b.coversAt 50 := by decide
    exact hall _ hentry b hb
  · intro device _ _ m₁ c _ hordered hcurrent
    cases hcurrent
  · rintro lb now heq
    cases heq

/-- A fault that is reported late is the last context of the signal: fusion holds it while the open
interval of the device is healthy. -/
theorem late_fault_held :
    let s := Machine.stateAfter step (new 60000) [boundPv, healthySnapshot, lateFault]
    (held s.fusion "L" "PV").map (·.result.eligibility) = some .ineligible ∧
      (currentOf s.operator "t|s|d").map
        (fun c => (HealthEligibilityPolicy.evaluate (some c) "L.PV").eligibility) = some .eligible ∧
      ¬ Live s.operator s.clock s.bound (held s.fusion) := by
  intro s
  have hheld : (held s.fusion "L" "PV").map (·.result.eligibility) = some .ineligible := by
    decide +kernel
  have hcurrent : (currentOf s.operator "t|s|d").map
      (fun c => (HealthEligibilityPolicy.evaluate (some c) "L.PV").eligibility) =
        some .eligible := by
    decide +kernel
  refine ⟨hheld, hcurrent, fun hlive => ?_⟩
  obtain ⟨c, hc, heligible⟩ := Option.map_eq_some_iff.mp hcurrent
  have hdevice : (currentOf s.operator "t|s|d").map (·.deviceId) = some "d" := by decide
  rw [hc] at hdevice
  have hkeys : s.operator.machines.keys = ["t|s|d"] := by decide
  have honly : ∀ device' c', currentOf s.operator device' = some c' → c'.deviceId = "d" →
      device' = "t|s|d" := by
    intro device' c' hc' _
    obtain ⟨m, hm, -⟩ := Option.bind_eq_some_iff.mp hc'
    have hmem : device' ∈ s.operator.machines.keys :=
      List.mem_map.mpr ⟨(device', m), Dict.get?_eq_some_iff.mp hm, rfl⟩
    rw [hkeys] at hmem
    exact List.mem_singleton.mp hmem
  have hactive : active s.operator s.clock "L" = [⟨"b", "PV", "d", 0, none⟩] := by decide
  obtain ⟨-, k, hk, hresult⟩ := hlive.evaluated "L" ⟨"b", "PV", "d", 0, none⟩ "t|s|d" c
    (by rw [hactive]; exact List.mem_singleton_self _)
    (fun b' hb' _ => by rw [hactive] at hb'; rw [List.mem_singleton.mp hb'])
    hc (Option.some.inj hdevice) honly
  rw [hk, Option.map_some, hresult] at hheld
  have hsignal : LoopHealthContext.signalId "L" "PV" = "L.PV" := by decide
  rw [hsignal, heligible] at hheld
  cases hheld

end ContextPipeline

end OpenBridge.GateFusion
