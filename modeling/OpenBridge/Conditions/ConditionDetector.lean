import OpenBridge.Foundation.Dict
import OpenBridge.Foundation.F64

/-!
# Conditions: the records of one loop

`ConditionEvent`: a limit dwell or a freeze as it evolves.  The records of one loop are modelled, so
the loop is left out.
-/

namespace OpenBridge.Conditions

open OpenBridge.Foundation

inductive EvidenceValue where
  | number (value : F64)
  | text (value : String)
  deriving DecidableEq

/-- One condition observation; `state` is `OPEN`, `UPDATE` or `CLOSED`. -/
structure ConditionEvent where
  gate : String
  kind : String
  state : String
  startMs : ℤ
  lastMs : ℤ
  endMs : ℤ
  durationS : F64
  closeReason : String
  evidence : Dict String EvidenceValue
  emittedAtMs : ℤ
  deriving DecidableEq

def ConditionEvent.copyAs (e : ConditionEvent) (newState : String) : ConditionEvent :=
  { e with state := newState }

/-!
# Conditions: the condition rows of a loop

`ConditionEventStore`: the rows are keyed by the identity of a condition, and a closed row is touched
by a closed record only.
-/

structure ConditionKey where
  gate : String
  kind : String
  startMs : ℤ
  deriving DecidableEq

/-- One row of `analytics.condition_event`, beside its key. -/
structure ConditionRow where
  state : String
  lastMs : ℤ
  endMs : Option ℤ
  durationS : F64
  closeReason : String
  evidence : Dict String EvidenceValue
  emittedAtMs : ℤ
  deriving DecidableEq

def ConditionEvent.key (e : ConditionEvent) : ConditionKey := ⟨e.gate, e.kind, e.startMs⟩

abbrev ConditionEventStore := Dict ConditionKey ConditionRow

namespace ConditionEventStore

/-- `Parse`: the row of a record. -/
def parse (e : ConditionEvent) : ConditionRow :=
  { state := e.state
    lastMs := e.lastMs
    endMs := if 0 < e.endMs then some e.endMs else none
    durationS := e.durationS
    closeReason := e.closeReason
    evidence := e.evidence
    emittedAtMs := e.emittedAtMs }

/-- `ShouldApply`: only a closed record touches a closed row. -/
def shouldApply (existingState : Option String) (incomingState : String) : Bool :=
  existingState ≠ some "CLOSED" ∨ incomingState = "CLOSED"

/-- `GREATEST` of two doubles, of which NaN is the greatest. -/
def greatest (a b : F64) : F64 := if a = none ∨ b = none then none else if F64.lt a b then b else a

def merge (existing excluded : ConditionRow) : ConditionRow :=
  { state := excluded.state
    lastMs := max existing.lastMs excluded.lastMs
    endMs := excluded.endMs.or existing.endMs
    durationS := greatest existing.durationS excluded.durationS
    closeReason := if excluded.state = "CLOSED" then excluded.closeReason else existing.closeReason
    evidence := excluded.evidence
    emittedAtMs := max existing.emittedAtMs excluded.emittedAtMs }

/-- `UpsertSql`. -/
def upsert (store : ConditionEventStore) (e : ConditionEvent) : ConditionEventStore :=
  match store.get? e.key with
  | none => store.set e.key (parse e)
  | some row =>
      if shouldApply (some row.state) e.state then store.set e.key (merge row (parse e)) else store

variable {store : ConditionEventStore} {e : ConditionEvent} {k : ConditionKey} {row : ConditionRow}

theorem state_upsert (store : ConditionEventStore) (e : ConditionEvent) (k : ConditionKey) :
    ((upsert store e).get? k).map (·.state) =
      if k = e.key then
        if shouldApply ((store.get? e.key).map (·.state)) e.state then some e.state
        else (store.get? e.key).map (·.state)
      else (store.get? k).map (·.state) := by
  rw [upsert]
  cases hrow : store.get? e.key with
  | none =>
    by_cases hk : k = e.key
    · subst hk
      simp [shouldApply, parse]
    · simp [Dict.get?_set_of_ne _ _ hk, hk]
  | some row =>
    by_cases happly : shouldApply (some row.state) e.state = true
    · by_cases hk : k = e.key
      · subst hk
        simp [happly, merge, parse]
      · simp [happly, Dict.get?_set_of_ne _ _ hk, hk]
    · by_cases hk : k = e.key
      · subst hk
        simp [happly, hrow]
      · simp [happly, hk]

end ConditionEventStore

/-!
# Conditions: the fast condition state machine of a loop

`ConditionDetector`: a run of samples at one value is a freeze, a run at an end of the output range
is a limit, and a gap in the source closes everything open.
-/

structure ConditionSample where
  isValid : Bool
  eventTsMs : ℤ
  pv : F64
  op : F64

structure ConditionProfile where
  freezeToleranceEu : F64 := F64.ofInt 0
  freezeDwellS : F64 := F64.ofInt 60
  limitTolerancePp : F64 := F64.ofInt 5
  limitDwellWarnS : F64 := F64.ofInt 0
  satLimitDwellSamplesWarn : ℤ := 30
  opEngMin : F64 := F64.ofInt 0
  opEngMax : F64 := F64.ofInt 100
  opRangeDeclared : Bool := false

/-- `normalizeOp`: the output in percent of its range. -/
def ConditionProfile.normalizeOp (p : ConditionProfile) (op : F64) : F64 :=
  let span := F64.sub p.opEngMax p.opEngMin
  if F64.le span (F64.ofRat (1 / 10 ^ 12)) ∨
      (p.opEngMin = F64.ofInt 0 ∧ p.opEngMax = F64.ofInt 100) then op
  else F64.mul (F64.div (F64.sub op p.opEngMin) span) (F64.ofInt 100)

/-- The detector.  `Long.MIN_VALUE` stands for a time that is not set. -/
structure ConditionDetector where
  updateIntervalMs : ℤ
  lastTsMs : ℤ
  lastDeltaMs : ℤ
  lastPv : F64
  freezeRunStartMs : ℤ
  limitSide : Option String
  limitRunStartMs : ℤ
  opened : Dict String ConditionEvent
  lastUpdateMs : Dict String ℤ

namespace ConditionDetector

def new : ConditionDetector :=
  ⟨30000, minLong, 5000, none, minLong, none, minLong, Dict.empty, Dict.empty⟩

def seconds (fromMs toMs : ℤ) : F64 := F64.div (F64.ofInt (wrap64 (toMs - fromMs))) (F64.ofInt 1000)

def putAll (evidence : Dict String EvidenceValue) (added : List (String × EvidenceValue)) :
    Dict String EvidenceValue :=
  added.foldl (fun d e => d.set e.1 e.2) evidence

/-- `advance`: the condition opens, or persists. -/
def advance (d : ConditionDetector) (gate kind : String) (startMs ts : ℤ)
    (evidence : List (String × EvidenceValue)) : ConditionDetector × List ConditionEvent :=
  match d.opened.get? kind with
  | none =>
      let e : ConditionEvent :=
        { gate := gate
          kind := kind
          state := "OPEN"
          startMs := startMs
          lastMs := ts
          endMs := 0
          durationS := seconds startMs ts
          closeReason := ""
          evidence := putAll Dict.empty evidence
          emittedAtMs := ts }
      ({ d with opened := d.opened.set kind e, lastUpdateMs := d.lastUpdateMs.set kind ts },
        [e.copyAs "OPEN"])
  | some e =>
      let e := { e with
        lastMs := ts
        durationS := seconds e.startMs ts
        evidence := putAll e.evidence evidence }
      if (d.lastUpdateMs.get? kind).all fun last => d.updateIntervalMs ≤ wrap64 (ts - last) then
        let e := { e with emittedAtMs := ts }
        ({ d with opened := d.opened.set kind e, lastUpdateMs := d.lastUpdateMs.set kind ts },
          [e.copyAs "UPDATE"])
      else ({ d with opened := d.opened.set kind e }, [])

def close (d : ConditionDetector) (kind : String) (endMs : ℤ) (reason : String) :
    ConditionDetector × List ConditionEvent :=
  let closed := { d with opened := d.opened.erase kind, lastUpdateMs := d.lastUpdateMs.erase kind }
  match d.opened.get? kind with
  | none => (closed, [])
  | some e =>
      (closed, [{ e with
        endMs := endMs
        durationS := seconds e.startMs endMs
        closeReason := reason
        emittedAtMs := endMs
        state := "CLOSED" }])

def closeAll (d : ConditionDetector) (kinds : List String) (endMs : ℤ) (reason : String) :
    ConditionDetector × List ConditionEvent :=
  kinds.foldl (fun r kind =>
    ((r.1.close kind endMs reason).1, r.2 ++ (r.1.close kind endMs reason).2)) (d, [])

/-- The interval to the last sample: a gap closes everything open at the last observation plus one
grid, a shorter one is the next grid. -/
def observeGap (d : ConditionDetector) (ts : ℤ) : ConditionDetector × List ConditionEvent :=
  if d.lastTsMs = minLong then (d, [])
  else
    let delta := wrap64 (ts - d.lastTsMs)
    if max (wrap64 (3 * d.lastDeltaMs)) 60000 < delta then
      let closed := d.closeAll d.opened.keys (wrap64 (d.lastTsMs + d.lastDeltaMs)) "SOURCE_GAP"
      ({ closed.1 with
          freezeRunStartMs := minLong
          limitSide := none
          limitRunStartMs := minLong
          lastPv := none },
        closed.2)
    else if 0 < delta then ({ d with lastDeltaMs := delta }, [])
    else (d, [])

def freeze (d : ConditionDetector) (s : ConditionSample) (p : ConditionProfile) :
    ConditionDetector × List ConditionEvent :=
  let tol := if F64.lt (F64.ofInt 0) p.freezeToleranceEu then p.freezeToleranceEu
    else F64.ofRat (1 / 10 ^ 9)
  if d.lastPv ≠ none ∧ F64.le (F64.abs (F64.sub s.pv d.lastPv)) tol then
    let runStart := if d.freezeRunStartMs = minLong then d.lastTsMs else d.freezeRunStartMs
    let d := { d with freezeRunStartMs := runStart }
    if F64.le p.freezeDwellS (seconds runStart s.eventTsMs) then
      d.advance "G11" "FREEZE" runStart s.eventTsMs
        [("pv_value", .number s.pv), ("freeze_dwell_s", .number p.freezeDwellS),
          ("tolerance_eu", .number tol)]
    else (d, [])
  else
    let closed := if d.opened.contains "FREEZE" then d.close "FREEZE" s.eventTsMs "PV_MOVED"
      else (d, [])
    ({ closed.1 with freezeRunStartMs := minLong }, closed.2)

def sideOf (p : ConditionProfile) (norm : F64) : Option String :=
  if F64.le norm p.limitTolerancePp then some "LIMIT_LOW"
  else if F64.le (F64.sub (F64.ofInt 100) p.limitTolerancePp) norm then some "LIMIT_HIGH"
  else none

def changeSide (d : ConditionDetector) (side : Option String) (ts : ℤ) :
    ConditionDetector × List ConditionEvent :=
  let closed := match d.limitSide with
    | some limit => if d.opened.contains limit then d.close limit ts "LEFT_LIMIT" else (d, [])
    | none => (d, [])
  ({ closed.1 with
      limitSide := side
      limitRunStartMs := if side.isSome then ts else minLong },
    closed.2)

def limit (d : ConditionDetector) (s : ConditionSample) (p : ConditionProfile) :
    ConditionDetector × List ConditionEvent :=
  let gridS := F64.div (F64.ofInt d.lastDeltaMs) (F64.ofInt 1000)
  let norm := p.normalizeOp s.op
  let side := sideOf p norm
  let changed := if side = none ∨ side ≠ d.limitSide then d.changeSide side s.eventTsMs else (d, [])
  match side with
  | none => changed
  | some kind =>
      let dwellWarnS := if F64.lt (F64.ofInt 0) p.limitDwellWarnS then p.limitDwellWarnS
        else F64.mul (F64.ofInt p.satLimitDwellSamplesWarn) gridS
      if F64.le dwellWarnS (seconds changed.1.limitRunStartMs s.eventTsMs) then
        let advanced := changed.1.advance "G10" kind changed.1.limitRunStartMs s.eventTsMs
          [("limit_source", .text (if p.opRangeDeclared then "DECLARED_RANGE" else "FALLBACK_0_100")),
            ("limit_low_pp", .number p.limitTolerancePp),
            ("limit_high_pp", .number (F64.sub (F64.ofInt 100) p.limitTolerancePp)),
            ("op_normalized_last", .number norm), ("dwell_warn_s", .number dwellWarnS)]
        (advanced.1, changed.2 ++ advanced.2)
      else changed

def onSample (p : ConditionProfile) (d : ConditionDetector) (s : ConditionSample) :
    ConditionDetector × List ConditionEvent :=
  if ¬ s.isValid then (d, [])
  else
    let gap := d.observeGap s.eventTsMs
    let frozen := gap.1.freeze s p
    let limited := frozen.1.limit s p
    ({ limited.1 with lastTsMs := s.eventTsMs, lastPv := s.pv }, gap.2 ++ frozen.2 ++ limited.2)

end ConditionDetector

end OpenBridge.Conditions
