import OpenBridge.Foundation.Machine
import OpenBridge.InstrumentHealth.DeviceStateMachine

/-!
# Instrument health: no implied clearance

Only a complete observation that is verified within the freshness window is meant to clear a signal.
An incomplete one keeps the flags, but the policy reads a maintenance flag, or a flag on another
variable, as eligible whatever the impact: over a state that was not eligible such an observation
clears the signal.
-/

namespace OpenBridge.InstrumentHealth

open OpenBridge.Foundation
open HealthEligibilityPolicy

namespace DeviceStateMachine

def Eligible (m : DeviceStateMachine) (signalId : String) : Prop :=
  (evaluate m.current signalId).eligibility = .eligible

def Clearing (m : DeviceStateMachine) : Input → Prop
  | .observation o nowMs => ∃ m₁, o.isAvailability = false ∧ m.ordered o = some m₁ ∧
      (∀ c, m.current = some c → isLateCorrection c o = false) ∧
        o.stateComplete = true ∧ m₁.isFresh o nowMs = true
  | _ => False

def NoClearance (m : DeviceStateMachine) (i : Input) : Prop :=
  ¬ Clearing m i → ∀ signalId, ¬ Eligible m signalId → ¬ Eligible (step m i).1 signalId

/-- What an incomplete observation finds: flags that leave the signal eligible once the interval is
verified and its impact unknown, over a state that was not eligible. -/
def Withheld (c : HealthInterval) (signalId : String) : Prop :=
  (flagged c.activeFlags = true ∧ affects c.affectedVariableIds signalId = false ∧
    c.collectionState ≠ "VERIFIED") ∨
  (contextOnly c.activeFlags = true ∧ (c.collectionState ≠ "VERIFIED" ∨
    (c.measurementImpact = "INVALID" ∧ affects c.affectedVariableIds signalId = true) ∨
      c.measurementImpact = "DEGRADED"))

/-- A first observation that is incomplete and whose flags leave the signal eligible. -/
def OpensEligible (flags affectedVariableIds : List String) (impact signalId : String) : Prop :=
  (flagged flags = true ∧ affects affectedVariableIds signalId = false) ∨
  (contextOnly flags = true ∧
    ¬ (impact = "INVALID" ∧ affects affectedVariableIds signalId = true) ∧ impact ≠ "DEGRADED")

def Releases (signalId : String) (m : DeviceStateMachine) : Input → Prop
  | .observation o nowMs => ∃ m₁, o.isAvailability = false ∧ m.ordered o = some m₁ ∧
      o.stateComplete = false ∧ m₁.collection o nowMs = "VERIFIED" ∧
        match m.current with
        | none => OpensEligible o.activeFlags.eraseDups
            (o.diagnostics.flatMap Diagnostic.affectedVariableIds).eraseDups
            o.measurementImpact signalId
        | some c => isLateCorrection c o = false ∧ Withheld c signalId
  | _ => False

/-! ## One step -/

section Step

variable {m m₁ : DeviceStateMachine} {c next : HealthInterval} {o : HealthObservation} {nowMs : ℤ}
  {signalId : String}

theorem opensEligible_unknown {flags affectedVariableIds : List String} :
    OpensEligible flags affectedVariableIds "UNKNOWN" signalId ↔
      (flagged flags = true ∧ affects affectedVariableIds signalId = false) ∨
        contextOnly flags = true := by
  simp [OpensEligible]

theorem eligible_of_incomplete (h : next.stateComplete = false) :
    (evaluate (some next) signalId).eligibility = .eligible ↔ next.collectionState = "VERIFIED" ∧
      OpensEligible next.activeFlags next.affectedVariableIds next.measurementImpact signalId := by
  by_cases hverified : next.collectionState = "VERIFIED"
  · rw [evaluate_of_verified hverified, OpensEligible]
    cases hflagged : flagged next.activeFlags with
    | true =>
      have hcontext : contextOnly next.activeFlags = false := by simp [contextOnly, hflagged]
      rw [evaluateVerified_of_flagged hflagged]
      simp [hverified, hcontext]
    | false =>
      cases hcontext : contextOnly next.activeFlags with
      | true =>
        rw [evaluateVerified_of_contextOnly hcontext]
        simp [hverified]
      | false =>
        constructor
        · intro heligible
          have hcomplete := stateComplete_of_eligible hflagged hcontext heligible
          rw [h] at hcomplete
          cases hcomplete
        · rintro ⟨-, ⟨h, -⟩ | ⟨h, -⟩⟩ <;> cases h
  · rw [evaluate_of_not_verified hverified]
    simp [hverified]

theorem withheld_iff : Withheld c signalId ↔
    OpensEligible c.activeFlags c.affectedVariableIds "UNKNOWN" signalId ∧
      ¬ (evaluate (some c) signalId).eligibility = .eligible := by
  rw [opensEligible_unknown, Withheld]
  by_cases hverified : c.collectionState = "VERIFIED"
  · rw [evaluate_of_verified hverified]
    cases hflagged : flagged c.activeFlags with
    | true =>
      have hcontext : contextOnly c.activeFlags = false := by simp [contextOnly, hflagged]
      rw [evaluateVerified_of_flagged hflagged]
      simp [hverified, hcontext]
    | false =>
      cases hcontext : contextOnly c.activeFlags with
      | true =>
        rw [evaluateVerified_of_contextOnly hcontext]
        simp only [hverified]
        tauto
      | false => simp
  · rw [evaluate_of_not_verified hverified]
    simp [hverified]

theorem evaluate_refresh (h : sameState c next = true) :
    evaluate (some (refresh c next)) signalId = evaluate (some next) signalId := by
  simp only [sameState, decide_eq_true_eq] at h
  obtain ⟨hflags, hcollection, himpact, -, -, haffected⟩ := h
  simp only [evaluate, evaluateVerified, refresh, hflags, hcollection, himpact, haffected]

theorem collection_ne_verified (h : m.isFresh o nowMs = false) :
    m.collection o nowMs ≠ "VERIFIED" := by
  rw [collection]
  split_ifs with hnever hstale
  · decide
  · decide
  · intro hverified
    exact hstale ⟨hverified, by simp [h]⟩

theorem eligible_apply (hkind : o.isAvailability = false) (hordered : m.ordered o = some m₁)
    (hlate : ∀ c, m.current = some c → isLateCorrection c o = false) :
    Eligible (m.apply o nowMs).1 signalId ↔
      (evaluate (some (match m.current with
        | none => m₁.build o nowMs
        | some c => m₁.nextInterval c o nowMs)) signalId).eligibility = .eligible := by
  rw [Eligible, apply, hkind, hordered]
  simp only [Bool.false_eq_true, if_false]
  rw [advance, current_of_ordered hordered]
  cases hcurrent : m.current with
  | none => rfl
  | some c =>
    simp only [hlate c hcurrent, Bool.false_eq_true, if_false]
    split
    · rename_i hsame
      rw [evaluate_refresh hsame]
    · rfl

theorem not_released {i : Input} (h : (step m i).1.current = m.current) :
    ¬ (¬ Clearing m i ∧ ¬ Eligible m signalId ∧ Eligible (step m i).1 signalId) := by
  rintro ⟨-, hbefore, hafter⟩
  rw [Eligible, h] at hafter
  exact hbefore hafter

theorem not_eligible_boundaryTo {kind : BoundaryKind} {collection : String} {atMs : ℤ}
    (h : collection ≠ "VERIFIED") :
    ¬ Eligible (m.boundaryTo c kind collection atMs).1 signalId := by
  rw [Eligible, boundaryTo, evaluate_of_not_verified h]
  decide

theorem releases_admitted (hkind : o.isAvailability = false) (hordered : m.ordered o = some m₁)
    (hlate : ∀ c, m.current = some c → isLateCorrection c o = false) :
    Releases signalId m (.observation o nowMs) ↔ ¬ Clearing m (.observation o nowMs) ∧
      ¬ Eligible m signalId ∧ Eligible (m.apply o nowMs).1 signalId := by
  have hreleases : Releases signalId m (.observation o nowMs) ↔
      o.stateComplete = false ∧ m₁.collection o nowMs = "VERIFIED" ∧
        match m.current with
        | none => OpensEligible o.activeFlags.eraseDups
            (o.diagnostics.flatMap Diagnostic.affectedVariableIds).eraseDups
            o.measurementImpact signalId
        | some c => isLateCorrection c o = false ∧ Withheld c signalId := by
    rw [Releases]
    simp [hkind, hordered]
  have hclearing : Clearing m (.observation o nowMs) ↔
      o.stateComplete = true ∧ m₁.isFresh o nowMs = true := by
    rw [Clearing]
    simp only [hkind, hordered, Option.some.injEq, true_and, exists_eq_left']
    exact and_iff_right hlate
  rw [hreleases, hclearing, eligible_apply hkind hordered hlate]
  cases hcomplete : o.stateComplete with
  | true =>
    -- not clearing: the verification is not fresh, and the interval is not verified
    constructor
    · rintro ⟨h, -⟩
      cases h
    · rintro ⟨hstale, -, heligible⟩
      have hfresh : m₁.isFresh o nowMs = false := by simpa using hstale
      have hnot : (match m.current with
          | none => m₁.build o nowMs
          | some c => m₁.nextInterval c o nowMs).collectionState ≠ "VERIFIED" := by
        cases m.current with
        | none => exact collection_ne_verified hfresh
        | some c =>
          simp only [nextInterval, hcomplete, if_true]
          exact collection_ne_verified hfresh
      rw [evaluate_of_not_verified hnot] at heligible
      cases heligible
  | false =>
    cases hcurrent : m.current with
    | none =>
      have hbefore : ¬ Eligible m signalId := by
        rw [Eligible, hcurrent]
        exact nofun
      simp only [eligible_of_incomplete (show (m₁.build o nowMs).stateComplete = false from
        hcomplete), hbefore]
      simp [build]
    | some c =>
      have hnext : m₁.nextInterval c o nowMs = retain c (m₁.build o nowMs) := by
        rw [nextInterval, hcomplete]
        rfl
      simp only [Eligible, hcurrent]
      rw [hnext,
        eligible_of_incomplete (show (retain c (m₁.build o nowMs)).stateComplete = false from
          hcomplete), withheld_iff, hlate c hcurrent]
      simp only [retain, build]
      tauto

theorem releases_iff (m : DeviceStateMachine) (i : Input) (signalId : String) :
    Releases signalId m i ↔
      ¬ Clearing m i ∧ ¬ Eligible m signalId ∧ Eligible (step m i).1 signalId := by
  cases i with
  | observation o nowMs =>
    cases hkind : o.isAvailability with
    | true =>
      refine iff_of_false (by simp [Releases, hkind]) (not_released ?_)
      simp [step, apply, hkind]
    | false =>
      cases hordered : m.ordered o with
      | none =>
        refine iff_of_false (by simp [Releases, hordered]) (not_released ?_)
        simp [step, apply, hordered]
      | some m₁ =>
        by_cases hlate : ∀ c, m.current = some c → isLateCorrection c o = false
        · exact releases_admitted hkind hordered hlate
        · push Not at hlate
          obtain ⟨c, hcurrent, hlate⟩ := hlate
          refine iff_of_false ?_ (not_released ?_)
          · rw [Releases]
            simp [hcurrent, hlate]
          · simp only [step, apply, hkind, hordered, advance, current_of_ordered hordered, hcurrent]
            simp [hlate]
  | timer nowMs =>
    rcases onTimer_cases m nowMs with h | ⟨c, -, -, h⟩
    · exact iff_of_false id (not_released (by rw [step, h]))
    · refine iff_of_false id fun hreleased => ?_
      have hafter := hreleased.2.2
      rw [step, h] at hafter
      exact not_eligible_boundaryTo (by decide) hafter
  | offline atMs =>
    rcases sourceOffline_cases m atMs with h | ⟨c, -, -, h⟩
    · exact iff_of_false id (not_released (by rw [step, h]))
    · refine iff_of_false id fun hreleased => ?_
      have hafter := hreleased.2.2
      rw [step, h] at hafter
      exact not_eligible_boundaryTo (by decide) hafter

end Step

/-! ## Runs -/

/-- No step of a run implies a clearance exactly when none is an incomplete observation that
releases a signal. -/
theorem noClearance_iff (siteMinFreshnessMs : ℤ) (inputs : List Input) :
    Machine.Always step NoClearance (new siteMinFreshnessMs) inputs ↔
      Machine.Always step (fun m i => ∀ signalId, ¬ Releases signalId m i)
        (new siteMinFreshnessMs) inputs := by
  refine Machine.always_congr step fun m i => ?_
  rw [NoClearance]
  constructor
  · intro h signalId hreleases
    obtain ⟨hclearing, hbefore, hafter⟩ := (releases_iff m i signalId).mp hreleases
    exact h hclearing signalId hbefore hafter
  · intro h hclearing signalId hbefore hafter
    exact h signalId ((releases_iff m i signalId).mpr ⟨hclearing, hbefore, hafter⟩)

def maintained : List Input :=
  [.observation
      { messageKind := "STATE_SNAPSHOT"
        sequence := 1
        stateComplete := true
        observedAtMs := 1000
        verifiedAtMs := 1000
        collectionState := "VERIFIED"
        activeFlags := ["M"]
        measurementImpact := "DEGRADED" } 1000,
    .observation
      { messageKind := "STATE_EVENT"
        sequence := 2
        observedAtMs := 2000
        verifiedAtMs := 2000
        collectionState := "VERIFIED"
        activeFlags := ["M"]
        measurementImpact := "DEGRADED" } 2000]

/-- The incomplete event makes every signal of the degraded device eligible. -/
theorem incomplete_event_clears :
    ¬ Machine.Always step NoClearance (new 60000) maintained := by
  rintro ⟨-, h, -⟩
  refine h ?_ "PV" ?_ (by unfold Eligible; decide +kernel)
  · rintro ⟨m₁, -, -, -, hcomplete, -⟩
    cases hcomplete
  · unfold Eligible
    decide +kernel

end DeviceStateMachine

end OpenBridge.InstrumentHealth
