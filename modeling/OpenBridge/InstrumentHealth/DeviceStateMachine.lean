import OpenBridge.Foundation.KeyText
import OpenBridge.InstrumentHealth.HealthEligibilityPolicy

/-!
# Instrument health: the state machine of one device

`DeviceStateMachine`: observations, the freshness timer and a source that goes offline cut the
status of a device into intervals.
-/

namespace OpenBridge.InstrumentHealth

open OpenBridge.Foundation

inductive TransitionKind where
  | «open» | close | revision
  deriving DecidableEq

structure Transition where
  kind : TransitionKind
  interval : HealthInterval
  deriving DecidableEq

structure DeviceStateMachine where
  siteMinFreshnessMs : ℤ
  current : Option HealthInterval
  epoch : ℤ
  lastSeq : ℤ
  scanIntervalS : Double
  revisions : ℤ
  deriving DecidableEq

namespace DeviceStateMachine

def new (siteMinFreshnessMs : ℤ) : DeviceStateMachine :=
  ⟨max 1000 siteMinFreshnessMs, none, minLong, -1, .finite 30, 1⟩

def freshnessWindowMs (m : DeviceStateMachine) : ℤ :=
  max (((Double.finite 3).mul m.scanIntervalS).mul (.finite 1000)).toLong m.siteMinFreshnessMs

def nextScanIntervalS (m : DeviceStateMachine) (o : HealthObservation) : Double :=
  match o.scanIntervalS with
  | some d => if (Double.finite 0).lt d then d else m.scanIntervalS
  | none => m.scanIntervalS

/-- The epoch and sequence discipline: the machine that takes the observation, unless it is of an
older epoch, not newer in its epoch, or of a new epoch without its complete snapshot. -/
def ordered (m : DeviceStateMachine) (o : HealthObservation) : Option DeviceStateMachine :=
  let taken (epoch : ℤ) : DeviceStateMachine :=
    { m with epoch := epoch, lastSeq := o.sequence, scanIntervalS := m.nextScanIntervalS o }
  if o.producerEpoch < m.epoch then none
  else if m.epoch < o.producerEpoch then
    if o.isSnapshot ∧ o.stateComplete then some (taken o.producerEpoch) else none
  else if o.sequence ≤ m.lastSeq then none
  else some (taken m.epoch)

def isFresh (m : DeviceStateMachine) (o : HealthObservation) (nowMs : ℤ) : Bool :=
  0 < o.verifiedAtMs ∧ wrap64 (nowMs - o.verifiedAtMs) ≤ m.freshnessWindowMs

def collection (m : DeviceStateMachine) (o : HealthObservation) (nowMs : ℤ) : String :=
  if o.verifiedAtMs ≤ 0 then "UNKNOWN"
  else if o.collectionState = "VERIFIED" ∧ ¬ m.isFresh o nowMs then "STALE"
  else o.collectionState

def supportedFromMs (o : HealthObservation) (nowMs : ℤ) : ℤ :=
  if 0 < o.observedAtMs then o.observedAtMs else if 0 < o.verifiedAtMs then o.verifiedAtMs else nowMs

def stateId (flags diagnosticIds : List String) (complete : Bool) (collection : String) : String :=
  if flags = [] ∧ complete ∧ collection = "VERIFIED" then noActiveDiagnostic
  else if flags = [] then "EMPTY_" ++ collection
  else String.intercalate "+" flags ++ "/" ++ String.intercalate "," diagnosticIds

/-- `build`: the interval that the observation opens. -/
def build (m : DeviceStateMachine) (o : HealthObservation) (nowMs : ℤ) : HealthInterval :=
  let flags := o.activeFlags.eraseDups
  let diagnosticIds := o.diagnostics.map Diagnostic.diagnosticId
  let collection := m.collection o nowMs
  { tenantId := o.tenantId
    site := o.site
    deviceId := o.deviceId
    fromMs := supportedFromMs o nowMs
    toMs := none
    boundaryKind := .open
    activeFlags := flags
    nativeStatus := o.nativeStatus
    collectionState := collection
    measurementImpact := o.measurementImpact
    healthStateId := stateId flags diagnosticIds o.stateComplete collection
    affectedVariableIds := (o.diagnostics.flatMap Diagnostic.affectedVariableIds).eraseDups
    diagnosticIds := diagnosticIds
    fromObservationId := o.observationId
    stateComplete := o.stateComplete
    verifiedAtMs := o.verifiedAtMs
    producerEpoch := o.producerEpoch
    revision := 1 }

/-- An incomplete state clears nothing: what was known is kept, the impact is unknown. -/
def retain (current next : HealthInterval) : HealthInterval :=
  { next with
    activeFlags := current.activeFlags
    affectedVariableIds := current.affectedVariableIds
    diagnosticIds := current.diagnosticIds
    measurementImpact := "UNKNOWN"
    healthStateId := if current.healthStateId = noActiveDiagnostic then "INCOMPLETE"
      else current.healthStateId }

def nextInterval (m : DeviceStateMachine) (current : HealthInterval) (o : HealthObservation)
    (nowMs : ℤ) : HealthInterval :=
  if o.stateComplete then m.build o nowMs else retain current (m.build o nowMs)

def sameState (a b : HealthInterval) : Bool :=
  a.activeFlags = b.activeFlags ∧ a.collectionState = b.collectionState ∧
    a.measurementImpact = b.measurementImpact ∧ a.healthStateId = b.healthStateId ∧
      a.diagnosticIds = b.diagnosticIds ∧ a.affectedVariableIds = b.affectedVariableIds

def refresh (current next : HealthInterval) : HealthInterval :=
  { current with
    verifiedAtMs := max current.verifiedAtMs next.verifiedAtMs
    nativeStatus := next.nativeStatus
    producerEpoch := next.producerEpoch
    stateComplete := next.stateComplete }

def isLateCorrection (current : HealthInterval) (o : HealthObservation) : Bool :=
  o.changeKind = some "LATE_CORRECTION" ∧ 0 < o.observedAtMs ∧ o.observedAtMs < current.fromMs

def correction (m : DeviceStateMachine) (current : HealthInterval) (o : HealthObservation)
    (nowMs : ℤ) : HealthInterval :=
  { m.build o nowMs with
    fromMs := o.observedAtMs
    toMs := some current.fromMs
    boundaryKind := .newerState
    revision := wrap32 (m.revisions + 1) }

def ended (i : HealthInterval) (toMs : ℤ) (boundaryKind : BoundaryKind) : HealthInterval :=
  { i with toMs := some toMs, boundaryKind := boundaryKind }

def advance (m : DeviceStateMachine) (o : HealthObservation) (nowMs : ℤ) :
    DeviceStateMachine × List Transition :=
  match m.current with
  | none => ({ m with current := some (m.build o nowMs) }, [⟨.open, m.build o nowMs⟩])
  | some current =>
      if isLateCorrection current o then
        ({ m with revisions := wrap32 (m.revisions + 1) },
          [⟨.revision, m.correction current o nowMs⟩])
      else
        let next := m.nextInterval current o nowMs
        if sameState current next then ({ m with current := some (refresh current next) }, [])
        else
          ({ m with current := some next },
            [⟨.close, ended current (max next.fromMs current.fromMs) .newerState⟩, ⟨.open, next⟩])

/-- `apply`: one observation. -/
def apply (m : DeviceStateMachine) (o : HealthObservation) (nowMs : ℤ) :
    DeviceStateMachine × List Transition :=
  if o.isAvailability then (m, [])
  else
    match m.ordered o with
    | none => (m, [])
    | some m => m.advance o nowMs

def lastKnown (current : HealthInterval) (newCollection : String) (atMs : ℤ) : HealthInterval :=
  { current with
    fromMs := atMs
    toMs := none
    boundaryKind := .open
    collectionState := newCollection
    measurementImpact := "UNKNOWN"
    healthStateId := if current.healthStateId = noActiveDiagnostic then
      "LAST_KNOWN_" ++ newCollection else current.healthStateId }

def boundaryTo (m : DeviceStateMachine) (current : HealthInterval) (boundaryKind : BoundaryKind)
    (newCollection : String) (atMs : ℤ) : DeviceStateMachine × List Transition :=
  ({ m with current := some (lastKnown current newCollection atMs) },
    [⟨.close, ended current atMs boundaryKind⟩, ⟨.open, lastKnown current newCollection atMs⟩])

def expiryMs (m : DeviceStateMachine) (current : HealthInterval) : ℤ :=
  wrap64 (current.verifiedAtMs + m.freshnessWindowMs)

def isExpired (m : DeviceStateMachine) (current : HealthInterval) (nowMs : ℤ) : Bool :=
  current.collectionState = "VERIFIED" ∧
    m.freshnessWindowMs < wrap64 (nowMs - current.verifiedAtMs)

/-- `onTimer`: the freshness policy. -/
def onTimer (m : DeviceStateMachine) (nowMs : ℤ) : DeviceStateMachine × List Transition :=
  match m.current with
  | none => (m, [])
  | some current =>
      if m.isExpired current nowMs then
        m.boundaryTo current .freshnessExpired "STALE" (max (m.expiryMs current) current.fromMs)
      else (m, [])

/-- `sourceOffline`: the last observed status is kept, its collection state is not. -/
def sourceOffline (m : DeviceStateMachine) (atMs : ℤ) : DeviceStateMachine × List Transition :=
  match m.current with
  | none => (m, [])
  | some current =>
      if current.collectionState = "OFFLINE" then (m, [])
      else m.boundaryTo current .sourceOffline "OFFLINE" (max atMs current.fromMs)

inductive Input where
  | observation (o : HealthObservation) (nowMs : ℤ)
  | timer (nowMs : ℤ)
  | offline (atMs : ℤ)

def step (m : DeviceStateMachine) : Input → DeviceStateMachine × List Transition
  | .observation o nowMs => m.apply o nowMs
  | .timer nowMs => m.onTimer nowMs
  | .offline atMs => m.sourceOffline atMs

/-! ## What a step can do -/

variable {m m₁ : DeviceStateMachine} {o : HealthObservation} {nowMs atMs : ℤ}

theorem ordered_eq_some (h : m.ordered o = some m₁) :
    m₁ = { m with
      epoch := o.producerEpoch
      lastSeq := o.sequence
      scanIntervalS := m.nextScanIntervalS o } ∧
    ((m.epoch < o.producerEpoch ∧ o.isSnapshot = true ∧ o.stateComplete = true) ∨
      (o.producerEpoch = m.epoch ∧ m.lastSeq < o.sequence)) := by
  simp only [ordered] at h
  split at h
  · cases h
  · split at h
    · rename_i hnewer
      split at h
      · rename_i hcomplete
        exact ⟨(Option.some.inj h).symm, Or.inl ⟨hnewer, hcomplete⟩⟩
      · cases h
    · split at h
      · cases h
      · have hepoch : o.producerEpoch = m.epoch := by omega
        rw [hepoch]
        exact ⟨(Option.some.inj h).symm, Or.inr ⟨rfl, by omega⟩⟩

theorem current_of_ordered (h : m.ordered o = some m₁) : m₁.current = m.current := by
  rw [(ordered_eq_some h).1]

theorem revisions_of_ordered (h : m.ordered o = some m₁) : m₁.revisions = m.revisions := by
  rw [(ordered_eq_some h).1]

theorem apply_cases (m : DeviceStateMachine) (o : HealthObservation) (nowMs : ℤ) :
    m.apply o nowMs = (m, []) ∨
    ∃ m₁, o.isAvailability = false ∧ m.ordered o = some m₁ ∧
      ((m.current = none ∧ m.apply o nowMs =
          ({ m₁ with current := some (m₁.build o nowMs) }, [⟨.open, m₁.build o nowMs⟩])) ∨
      ∃ c, m.current = some c ∧
        ((isLateCorrection c o = true ∧ m.apply o nowMs =
            ({ m₁ with revisions := wrap32 (m₁.revisions + 1) },
              [⟨.revision, m₁.correction c o nowMs⟩])) ∨
        (isLateCorrection c o = false ∧ sameState c (m₁.nextInterval c o nowMs) = true ∧
          m.apply o nowMs =
            ({ m₁ with current := some (refresh c (m₁.nextInterval c o nowMs)) }, [])) ∨
        (isLateCorrection c o = false ∧ sameState c (m₁.nextInterval c o nowMs) = false ∧
          m.apply o nowMs = ({ m₁ with current := some (m₁.nextInterval c o nowMs) },
            [⟨.close, ended c (max (m₁.nextInterval c o nowMs).fromMs c.fromMs) .newerState⟩,
              ⟨.open, m₁.nextInterval c o nowMs⟩])))) := by
  rw [apply]
  cases hkind : o.isAvailability with
  | true => exact Or.inl rfl
  | false =>
    cases hordered : m.ordered o with
    | none => exact Or.inl rfl
    | some m₁ =>
      refine Or.inr ⟨m₁, rfl, rfl, ?_⟩
      simp only [Bool.false_eq_true, if_false]
      rw [advance, current_of_ordered hordered]
      cases hcurrent : m.current with
      | none => exact Or.inl ⟨rfl, rfl⟩
      | some c =>
        refine Or.inr ⟨c, rfl, ?_⟩
        cases hlate : isLateCorrection c o with
        | true => exact Or.inl ⟨rfl, by simp [hlate]⟩
        | false =>
          cases hsame : sameState c (m₁.nextInterval c o nowMs) with
          | true => exact Or.inr (Or.inl ⟨rfl, rfl, by simp [hlate, hsame]⟩)
          | false => exact Or.inr (Or.inr ⟨rfl, rfl, by simp [hlate, hsame]⟩)

theorem onTimer_cases (m : DeviceStateMachine) (nowMs : ℤ) :
    m.onTimer nowMs = (m, []) ∨ ∃ c, m.current = some c ∧ m.isExpired c nowMs = true ∧
      m.onTimer nowMs =
        m.boundaryTo c .freshnessExpired "STALE" (max (m.expiryMs c) c.fromMs) := by
  rw [onTimer]
  cases hcurrent : m.current with
  | none => exact Or.inl rfl
  | some c =>
    by_cases hexpired : m.isExpired c nowMs = true
    · exact Or.inr ⟨c, rfl, hexpired, by simp [hexpired]⟩
    · exact Or.inl (by simp [hexpired])

theorem sourceOffline_cases (m : DeviceStateMachine) (atMs : ℤ) :
    m.sourceOffline atMs = (m, []) ∨ ∃ c, m.current = some c ∧ c.collectionState ≠ "OFFLINE" ∧
      m.sourceOffline atMs = m.boundaryTo c .sourceOffline "OFFLINE" (max atMs c.fromMs) := by
  rw [sourceOffline]
  cases hcurrent : m.current with
  | none => exact Or.inl rfl
  | some c =>
    by_cases hoffline : c.collectionState = "OFFLINE"
    · exact Or.inl (by simp [hoffline])
    · exact Or.inr ⟨c, rfl, hoffline, by simp [hoffline]⟩

end DeviceStateMachine

/-!
# Instrument health: the published records

`LoopHealthContext`: one record for each device interval, and one for each loop signal with its
eligibility under the device bound to it.
-/

namespace HealthInterval

def deviceKey (i : HealthInterval) : String := i.tenantId ++ "|" ++ i.site ++ "|" ++ i.deviceId

/-- The compaction key of a `DEVICE_INTERVAL` record. -/
def contextKey (i : HealthInterval) : String :=
  "device:" ++ i.deviceKey ++ ":" ++ toString i.fromMs ++ ":" ++ toString i.revision

variable {i j : HealthInterval}

theorem contextKey_congr (hdevice : i.deviceKey = j.deviceKey) (hfrom : i.fromMs = j.fromMs)
    (hrevision : i.revision = j.revision) : i.contextKey = j.contextKey := by
  rw [contextKey, contextKey, hdevice, hfrom, hrevision]

theorem eq_of_contextKey (h : i.contextKey = j.contextKey) :
    i.fromMs = j.fromMs ∧ i.revision = j.revision := by
  obtain ⟨hstart, hrevision⟩ := KeyText.append_number h
  exact ⟨(KeyText.append_number hstart).2, hrevision⟩

end HealthInterval

def TransitionKind.text : TransitionKind → String
  | .open => "OPEN"
  | .close => "CLOSE"
  | .revision => "REVISION"

/-- The eligibility of one signal of a loop, with the interval it rests on. -/
structure LoopContext where
  loopId : String
  role : String
  bindingId : String
  deviceId : String
  transition : String
  result : EligibilityResult
  interval : Option HealthInterval
  emittedAtMs : ℤ
  deriving DecidableEq

inductive ContextRecord where
  | deviceInterval (interval : HealthInterval) (transition : TransitionKind) (emittedAtMs : ℤ)
  | loopContext (context : LoopContext)
  deriving DecidableEq

namespace LoopHealthContext

def signalId (loopId role : String) : String := loopId ++ "." ++ role

/-- `loopContext`: the context of a signal over an interval. -/
def loopContext (loopId role bindingId : String) (i : HealthInterval) (r : EligibilityResult)
    (transition : String) (emittedAtMs : ℤ) : LoopContext :=
  { loopId := loopId
    role := role
    bindingId := bindingId
    deviceId := i.deviceId
    transition := transition
    result := r
    interval := some i
    emittedAtMs := emittedAtMs }

/-- `notConfigured`: the absence of a binding, never manufactured health. -/
def notConfigured (loopId role : String) (emittedAtMs : ℤ) : LoopContext :=
  { loopId := loopId
    role := role
    bindingId := ""
    deviceId := ""
    transition := "BINDING"
    result := HealthEligibilityPolicy.notConfigured
    interval := none
    emittedAtMs := emittedAtMs }

end LoopHealthContext

def ContextRecord.contextKey : ContextRecord → String
  | .deviceInterval interval _ _ => interval.contextKey
  | .loopContext context => "loop:" ++ context.loopId ++ ":" ++ context.role

end OpenBridge.InstrumentHealth
