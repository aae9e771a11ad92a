import OpenBridge.GateFusion.CplmGateFusionEngine

/-!
# Gate fusion: the process of a loop

`GateFusionProcess.processElement1`: a long record is fused, and its family joins the history of its
window kind.
-/

namespace OpenBridge.GateFusion

open OpenBridge.Foundation

def elevatedFamilyForHistory (r : GateResult) : String :=
  if equalsIgnoreCase "NONE" r.selectedFamily then "NONE"
  else if equalsIgnoreCase "SUSPECTED" r.gate15Status ∨ equalsIgnoreCase "CONFIRMED" r.gate15Status
    then r.selectedFamily
  else "NONE"

def insufficientShort (longD : LongDiagnostics) : ShortFeatures :=
  { windowKind := longD.windowKind.getD ""
    windowEndMs := longD.windowEndMs
    sufficientData := false
    gate0Status := "PENDING"
    gate1Status := "PENDING"
    gate2rStatus := "PASS"
    operatingRegionValid := true
    effortRatio := F64.ofInt 0
    reversalCount := 0
    gate4Status := "PENDING" }

namespace GateFusionProcess

def fused (g : GateFusionProcess) (longD : LongDiagnostics) (p : FusionProfile) : GateResult :=
  let hasStep : Bool := "NO_STEP_TEST" ∉ longD.observabilityFlags ∧
    "HAS_STEP_TEST" ∈ longD.observabilityFlags
  let hasPeer : Bool := "HAS_PEER_LINKS" ∈ longD.observabilityFlags
  CplmGateFusionEngine.fuse (longD.alignedShort.getD (insufficientShort longD)) longD hasStep hasPeer p
    (OpenConditions.of g.openConditions) ⟨g.healthByRole⟩

def history (g : GateFusionProcess) (kind : String) : List String :=
  (g.familyHistoryByKind.get? kind).getD []

def keep (p : FusionProfile) : ℕ := (max 3 p.persistenceWindows).toNat

def extend (prior : List String) (family : String) (p : FusionProfile) : List String :=
  (prior ++ [family]).drop ((prior ++ [family]).length - keep p)

/-- `processElement1`, with the profile that was resolved for the record. -/
def processElement1 (fuseKinds : List String) (g : GateFusionProcess) (longD : LongDiagnostics)
    (p : FusionProfile) : GateFusionProcess × List GateResult :=
  match longD.windowKind with
  | none => (g, [])
  | some kind =>
      if kind ∉ fuseKinds then (g, [])
      else
        let result := g.fused longD p
        ({ g with
            familyHistoryByKind := g.familyHistoryByKind.set kind
              (extend (g.history kind) (elevatedFamilyForHistory result) p) },
          [CplmGateFusionEngine.applyPersistence result (g.history kind) p])

end GateFusionProcess

/-!
# Gate fusion: verdict safety

Every exit of `fuse` sets the diagnosis, its severity and its confidence together, and the cap of
temporal persistence keeps them together.
-/

open CplmGateFusionEngine

def exclusions (shortF : ShortFeatures) (longD : LongDiagnostics) (hl : HealthLanes) :
    List (Bool × String) :=
  [(¬ shortF.sufficientData, "INSUFFICIENT_DATA"),
    (equalsIgnoreCase "FAIL" shortF.gate0Status, "EXCLUDED_DATA_QUALITY"),
    (equalsIgnoreCase "EXCLUDED" shortF.gate1Status, "EXCLUDED_MODE"),
    (¬ shortF.operatingRegionValid ∨ equalsIgnoreCase "FAIL" shortF.gate2rStatus,
      "EXCLUDED_OPERATING_REGION"),
    (hl.pvIneligible, "EXCLUDED_INSTRUMENT_HEALTH"),
    (longD.freezeMaterial, "EXCLUDED_SENSOR")]

def exclusion (shortF : ShortFeatures) (longD : LongDiagnostics) (hl : HealthLanes) :
    Option String :=
  ((exclusions shortF longD hl).find? (·.1)).map (·.2)

def unbanded : List String :=
  ["INSUFFICIENT_DATA", "EXCLUDED_DATA_QUALITY", "EXCLUDED_MODE", "EXCLUDED_OPERATING_REGION",
    "EXCLUDED_INSTRUMENT_HEALTH", "EXCLUDED_SENSOR", "INSUFFICIENT_EVIDENCE", "NO_CALL"]

def familyLabels : List String := ["FINAL_ELEMENT_NONLINEARITY", "OSCILLATION", "EXCESSIVE_EFFORT"]

/-- The diagnosis, the severity and the confidence are of one band. -/
def Banded (r : GateResult) : Prop :=
  (r.diagnosis ∈ unbanded ∧ r.severity = "LOW" ∧
    F64.lt r.confidence (F64.ofRat (35 / 100)) = true) ∨
  ∃ label, label ∈ familyLabels ∧
    ((r.diagnosis = "DETECTED_" ++ label ∧ r.severity = "LOW" ∧
      F64.le (F64.ofRat (35 / 100)) r.confidence = true ∧
        F64.lt r.confidence (F64.ofRat (55 / 100)) = true) ∨
    (r.diagnosis = "CLASSIFIED_" ++ label ∧ r.severity = "MEDIUM" ∧
      F64.le (F64.ofRat (55 / 100)) r.confidence = true ∧
        F64.lt r.confidence (F64.ofRat (75 / 100)) = true) ∨
    (r.diagnosis = "SUSPECTED_" ++ label ∧ r.severity = "HIGH" ∧
      F64.le (F64.ofRat (75 / 100)) r.confidence = true ∧
        F64.lt r.confidence (F64.ofRat (90 / 100)) = true) ∨
    (r.diagnosis = "CONFIRMED_" ++ label ∧ r.severity = "HIGH" ∧
      F64.le (F64.ofRat (90 / 100)) r.confidence = true))

/-- A diagnosis above the band `DETECTED`. -/
def Called (diagnosis : String) : Prop :=
  startsWith diagnosis "SUSPECTED_" = true ∨ startsWith diagnosis "CLASSIFIED_" = true ∨
    startsWith diagnosis "CONFIRMED_" = true

instance (diagnosis : String) : Decidable (Called diagnosis) :=
  inferInstanceAs (Decidable (_ ∨ _))

def familyNames : List String := ["stiction", "oscillation", "effort", "geometry"]

structure Sound (longD : LongDiagnostics) (p : FusionProfile) (r : GateResult) : Prop where
  banded : Banded r
  called : Called r.diagnosis → r.gate15Status = "SUSPECTED" ∨ r.gate15Status = "CONFIRMED"
  family : r.gate15Status = "SUSPECTED" ∨ r.gate15Status = "CONFIRMED" →
    r.selectedFamily ∈ familyNames ∧ F64.le (F64.ofRat (35 / 100)) r.confidence = true
  confirmed : r.diagnosis = "CONFIRMED_FINAL_ELEMENT_NONLINEARITY" → longD.hasVp = true ∧
    0 < longD.vpEligibleSamples ∧ Confirmation.dwellReached longD p = true

variable {longD : LongDiagnostics} {p : FusionProfile} {r : GateResult}

theorem sound_of_unbanded (hdiagnosis : r.diagnosis ∈ unbanded) (hseverity : r.severity = "LOW")
    (hconfidence : F64.lt r.confidence (F64.ofRat (35 / 100)) = true)
    (hgate : r.gate15Status = "INSUFFICIENT_EVIDENCE") : Sound longD p r := by
  have hnot : ∀ d ∈ unbanded, ¬ Called d ∧ d ≠ "CONFIRMED_FINAL_ELEMENT_NONLINEARITY" := by
    decide
  refine ⟨Or.inl ⟨hdiagnosis, hseverity, hconfidence⟩, fun h => ?_, fun h => ?_, fun h => ?_⟩
  · exact absurd h (hnot _ hdiagnosis).1
  · rw [hgate] at h
    exact absurd h (by decide)
  · exact absurd h (hnot _ hdiagnosis).2

theorem zero_lt_lowest : F64.lt (F64.ofInt 0) (F64.ofRat (35 / 100)) = true := by decide +kernel

theorem sound_insufficientData (r : GateResult) :
    Sound longD p (BlockingExclusions.insufficientData r) :=
  sound_of_unbanded (by simp [BlockingExclusions.insufficientData, unbanded]) rfl zero_lt_lowest rfl

theorem sound_block (r : GateResult) {diagnosis : String} (reason : String)
    (h : diagnosis ∈ ["EXCLUDED_DATA_QUALITY", "EXCLUDED_MODE", "EXCLUDED_OPERATING_REGION",
      "EXCLUDED_INSTRUMENT_HEALTH", "EXCLUDED_SENSOR"]) :
    Sound longD p (BlockingExclusions.block r diagnosis reason) := by
  refine sound_of_unbanded ?_ rfl zero_lt_lowest rfl
  simp only [List.mem_cons, List.not_mem_nil, or_false] at h ⊢
  simp only [BlockingExclusions.block, unbanded, List.mem_cons]
  tauto

theorem sound_noFamily (r : GateResult) (conf : Confirmation) (hasVp : Bool) (advice : String) :
    Sound longD p (noFamily r conf hasVp advice) :=
  sound_of_unbanded (by simp [noFamily, unbanded]) rfl zero_lt_lowest rfl

theorem select_spec {fs : List (String × F64 × Bool)} {best : String × F64 × F64}
    (hfs : ∀ f ∈ fs, f.1 ∈ familyNames)
    (hbest : best.2.1 ≠ none ∧ (best.1 ∈ familyNames ∨ (best.1 = "NONE" ∧ best.2.1 = F64.ofInt 0))) :
    (select fs best).2.1 ≠ none ∧ ((select fs best).1 ∈ familyNames ∨
      ((select fs best).1 = "NONE" ∧ (select fs best).2.1 = F64.ofInt 0)) := by
  induction fs generalizing best with
  | nil => exact hbest
  | cons f rest ih =>
    obtain ⟨name, score, qualified⟩ := f
    rw [select]
    refine ih (fun f hf => hfs f (List.mem_cons_of_mem _ hf)) ?_
    split
    · rename_i hbetter
      -- a NaN score is above nothing
      exact ⟨(F64.ne_nan_of_lt hbetter.2).2, Or.inl (hfs _ List.mem_cons_self)⟩
    · exact hbest

theorem selected_spec (ev : FusionEvidence) : (selected ev).2 ≠ none ∧
    ((selected ev).1 ∈ familyNames ∨
      ((selected ev).1 = "NONE" ∧ (selected ev).2 = F64.ofInt 0)) := by
  refine select_spec (fun f hf => ?_) ⟨by simp [F64.ofInt], Or.inr ⟨rfl, rfl⟩⟩
  simp only [families, List.mem_cons, List.not_mem_nil, or_false] at hf
  rcases hf with rfl | rfl | rfl | rfl <;> simp [familyNames]

/-! ## The bands -/

theorem not_called_detected (label : String) : ¬ Called ("DETECTED_" ++ label) := by
  simp [Called, startsWith, String.toList_append]

theorem sound_of_band {band label : String} (hlabel : label ∈ familyLabels)
    (hdiagnosis : r.diagnosis = band ++ label) (hbanded : Banded r)
    (hgate : r.gate15Status = "SUSPECTED" ∨ r.gate15Status = "CONFIRMED")
    (hfamily : r.selectedFamily ∈ familyNames)
    (hlow : F64.le (F64.ofRat (35 / 100)) r.confidence = true)
    (hconfirmed : band = "CONFIRMED_" → label = "FINAL_ELEMENT_NONLINEARITY" →
      longD.hasVp = true ∧ 0 < longD.vpEligibleSamples ∧ Confirmation.dwellReached longD p = true)
    (hband : band ∈ ["DETECTED_", "CLASSIFIED_", "SUSPECTED_", "CONFIRMED_"]) :
    Sound longD p r := by
  refine ⟨hbanded, fun _ => hgate, fun _ => ⟨hfamily, hlow⟩, fun h => ?_⟩
  have hsplit : ∀ band ∈ ["DETECTED_", "CLASSIFIED_", "SUSPECTED_", "CONFIRMED_"],
      ∀ label ∈ familyLabels, band ++ label = "CONFIRMED_FINAL_ELEMENT_NONLINEARITY" →
        band = "CONFIRMED_" ∧ label = "FINAL_ELEMENT_NONLINEARITY" := by decide
  obtain ⟨hb, hl⟩ := hsplit band hband label hlabel (hdiagnosis ▸ h)
  exact hconfirmed hb hl

theorem sound_apply {r : GateResult} {confidence : F64} {label : String} {confirmed : Bool}
    (hconfidence : r.confidence = confidence) (hnumber : confidence ≠ none)
    (hfamily : F64.lt confidence (F64.ofRat (35 / 100)) = true ∨
      (label ∈ familyLabels ∧ r.selectedFamily ∈ familyNames))
    (hcap : label = "FINAL_ELEMENT_NONLINEARITY" → confirmed = false →
      F64.lt confidence (F64.ofRat (90 / 100)) = true)
    (hconfirmed : confirmed = true → longD.hasVp = true ∧ 0 < longD.vpEligibleSamples ∧
      Confirmation.dwellReached longD p = true) :
    Sound longD p (DiagnosisBands.apply r confidence label confirmed) := by
  subst hconfidence
  have hle : ∀ q : ℚ, F64.lt r.confidence (F64.ofRat q) = false →
      F64.le (F64.ofRat q) r.confidence = true := fun q h =>
    F64.le_of_not_lt hnumber (by simp [F64.ofRat]) h
  rw [DiagnosisBands.apply]
  by_cases h35 : F64.lt r.confidence (F64.ofRat (35 / 100)) = true
  · rw [if_pos h35]
    exact sound_of_unbanded (by simp [unbanded]) rfl h35 rfl
  rw [if_neg h35]
  obtain ⟨hlabel, hname⟩ := hfamily.resolve_left h35
  have hlow := hle _ (by simpa using h35)
  by_cases h55 : F64.lt r.confidence (F64.ofRat (55 / 100)) = true
  · rw [if_pos h55]
    exact sound_of_band hlabel rfl (Or.inr ⟨label, hlabel, Or.inl ⟨rfl, rfl, hlow, h55⟩⟩)
      (Or.inl rfl) hname hlow (fun h => absurd h (by decide)) (by simp)
  rw [if_neg h55]
  by_cases h75 : F64.lt r.confidence (F64.ofRat (75 / 100)) = true
  · rw [if_pos h75]
    exact sound_of_band hlabel rfl
      (Or.inr ⟨label, hlabel, Or.inr (Or.inl ⟨rfl, rfl, hle _ (by simpa using h55), h75⟩)⟩)
      (Or.inl rfl) hname hlow (fun h => absurd h (by decide)) (by simp)
  rw [if_neg h75]
  by_cases h90 : F64.lt r.confidence (F64.ofRat (90 / 100)) = true
  · rw [if_pos h90]
    exact sound_of_band hlabel rfl (Or.inr ⟨label, hlabel,
        Or.inr (Or.inr (Or.inl ⟨rfl, rfl, hle _ (by simpa using h75), h90⟩))⟩)
      (Or.inl rfl) hname hlow (fun h => absurd h (by decide)) (by simp)
  rw [if_neg h90]
  have hallowed : label ≠ "FINAL_ELEMENT_NONLINEARITY" ∨ confirmed = true := by
    by_contra hnot
    push Not at hnot
    exact h90 (hcap hnot.1 (by simpa using hnot.2))
  rw [if_pos hallowed]
  exact sound_of_band hlabel rfl (Or.inr ⟨label, hlabel,
      Or.inr (Or.inr (Or.inr ⟨rfl, rfl, hle _ (by simpa using h90)⟩))⟩)
    (Or.inr rfl) hname hlow (fun _ h => hconfirmed (hallowed.resolve_left (not_not.mpr h)))
    (by simp)

/-! ## Fusion -/

theorem capForFinalElement_ne_nan (conf : Confirmation) : conf.capForFinalElement ≠ none := by
  rw [Confirmation.capForFinalElement]
  split <;> simp [F64.ofInt, F64.ofRat]

theorem cap_lt {conf : Confirmation} (h : conf.state ≠ .confirmed) :
    F64.lt conf.capForFinalElement (F64.ofRat (90 / 100)) = true := by
  rw [Confirmation.capForFinalElement]
  cases hstate : conf.state with
  | confirmed => exact absurd hstate h
  | notConfirmed => decide +kernel
  | contradicted => decide +kernel
  | notApplicable => decide +kernel

theorem sound_classify {r : GateResult} {ev : FusionEvidence} {hasVp : Bool} {family : String}
    {score : F64} (hscore : score ≠ none)
    (hfamily : family ∈ familyNames ∨ (family = "NONE" ∧ score = F64.ofInt 0)) :
    Sound longD p (classify r ev (Confirmation.evaluate longD p) hasVp family score) := by
  have hlabel : ∀ family ∈ familyNames, DiagnosisBands.familyLabel family ∈ familyLabels ∧
      (DiagnosisBands.familyLabel family = "FINAL_ELEMENT_NONLINEARITY" →
        finalElementClaim family = true) := by decide
  have hsound : ∀ (r : GateResult), r.selectedFamily = family →
      r.confidence = F64.min score (if finalElementClaim family then
        (Confirmation.evaluate longD p).capForFinalElement else F64.ofInt 1) →
      Sound longD p (DiagnosisBands.apply r (F64.min score (if finalElementClaim family then
        (Confirmation.evaluate longD p).capForFinalElement else F64.ofInt 1))
        (DiagnosisBands.familyLabel family) (finalElementClaim family ∧
          (Confirmation.evaluate longD p).state = .confirmed)) := by
    intro r hselected hconfidence
    refine sound_apply hconfidence ?_ ?_ ?_ ?_
    · refine F64.min_ne_nan hscore ?_
      split
      · exact capForFinalElement_ne_nan _
      · simp [F64.ofInt]
    · rcases hfamily with hname | ⟨rfl, rfl⟩
      · exact Or.inr ⟨(hlabel _ hname).1, hselected ▸ hname⟩
      · exact Or.inl (show F64.lt (F64.min (F64.ofInt 0) (F64.ofInt 1)) (F64.ofRat (35 / 100)) = true
          from by decide +kernel)
    · intro hfinal hnot
      rcases hfamily with hname | ⟨rfl, rfl⟩
      · have hclaim := (hlabel _ hname).2 hfinal
        rw [hclaim, if_pos rfl]
        refine F64.min_lt_of_right hscore (cap_lt fun hstate => ?_)
        simp [hclaim, hstate] at hnot
      · exact absurd hfinal (by decide)
    · intro hstate
      simp only [decide_eq_true_eq] at hstate
      exact Confirmation.dwell_of_confirmed hstate.2
  rw [classify]
  obtain ⟨hbanded, hcalled, hname, hconfirmed⟩ := hsound
    { r with
      selectedFamily := family
      familyScore := score
      confidence := F64.min score (if finalElementClaim family then
        (Confirmation.evaluate longD p).capForFinalElement else F64.ofInt 1)
      gate14Status := if finalElementClaim family then
        stateText (Confirmation.evaluate longD p).state else "NOT_APPLICABLE"
      confirmation := some (if finalElementClaim family then Confirmation.evaluate longD p
        else (Confirmation.evaluate longD p).notApplicable)
      observabilityFlags := if finalElementClaim family ∧
          (Confirmation.evaluate longD p).state = .contradicted then
        r.observabilityFlags ++ ["VP_TRACKING_CONTRADICTS"] else r.observabilityFlags
      leadingHypothesis := DiagnosisBands.leadingHypothesisFor family ev.disturbanceContext } rfl rfl
  exact ⟨hbanded, hcalled, hname, hconfirmed⟩

theorem sound_decideFamily (r : GateResult) (longD : LongDiagnostics) (p : FusionProfile) :
    Sound longD p (decideFamily r longD p) := by
  obtain ⟨hscore, hfamily⟩ := selected_spec (FusionEvidence.evaluate r.carried longD p)
  simp only [decideFamily]
  split
  · exact sound_noFamily _ _ _ _
  · split
    · exact sound_noFamily _ _ _ _
    · exact sound_classify hscore hfamily

section Fuse

variable {shortF : ShortFeatures} {hasStep hasPeer : Bool} {oc : OpenConditions} {hl : HealthLanes}

theorem sound_fuse : Sound longD p (fuse shortF longD hasStep hasPeer p oc hl) := by
  simp only [fuse]
  split
  · exact sound_insufficientData _
  · split
    · exact sound_block _ _ (by simp)
    · split
      · exact sound_block _ _ (by simp)
      · split
        · exact sound_block _ _ (by simp)
        · split
          · exact sound_block _ _ (by simp)
          · split
            · exact sound_block _ _ (by simp)
            · exact sound_decideFamily _ _ _

theorem fuse_of_excluded {label : String} (h : exclusion shortF longD hl = some label) :
    (fuse shortF longD hasStep hasPeer p oc hl).diagnosis = label ∧
      (fuse shortF longD hasStep hasPeer p oc hl).confidence = F64.ofInt 0 ∧
        (fuse shortF longD hasStep hasPeer p oc hl).selectedFamily = "NONE" := by
  simp only [exclusion, exclusions, List.find?_cons] at h
  simp only [fuse]
  by_cases hshort : shortF.sufficientData = true
  · simp only [hshort, not_true_eq_false, decide_false, if_false] at h ⊢
    cases hg0 : equalsIgnoreCase "FAIL" shortF.gate0Status with
    | true =>
      simp only [hg0, Option.map_some, Option.some.injEq] at h
      exact ⟨h, rfl, rfl⟩
    | false =>
      simp only [hg0, Bool.false_eq_true, if_false] at h ⊢
      cases hg1 : equalsIgnoreCase "EXCLUDED" shortF.gate1Status with
      | true =>
        simp only [hg1, Option.map_some, Option.some.injEq] at h
        exact ⟨h, rfl, rfl⟩
      | false =>
        simp only [hg1, Bool.false_eq_true, if_false] at h ⊢
        by_cases hregion : ¬ shortF.operatingRegionValid = true ∨
            equalsIgnoreCase "FAIL" shortF.gate2rStatus = true
        · simp only [hregion, decide_true, Option.map_some, Option.some.injEq] at h
          rw [if_pos hregion]
          exact ⟨h, rfl, rfl⟩
        · rw [if_neg hregion]
          simp only [hregion, decide_false] at h
          cases hpv : hl.pvIneligible with
          | true =>
            simp only [hpv, Option.map_some, Option.some.injEq] at h
            exact ⟨h, rfl, rfl⟩
          | false =>
            simp only [hpv, Bool.false_eq_true, if_false] at h ⊢
            cases hfreeze : longD.freezeMaterial with
            | true =>
              simp only [hfreeze, Option.map_some, Option.some.injEq] at h
              exact ⟨h, rfl, rfl⟩
            | false => simp [hfreeze] at h
  · simp only [hshort, Bool.false_eq_true, not_false_eq_true, decide_true, if_true,
      Option.map_some, Option.some.injEq] at h ⊢
    exact ⟨h, rfl, rfl⟩

end Fuse

/-! ## Persistence -/

theorem capped_confidence {confidence : F64}
    (h : F64.le (F64.ofRat (35 / 100)) confidence = true) :
    F64.le (F64.ofRat (35 / 100)) (if F64.lt (F64.ofRat (54 / 100)) confidence = true
        then F64.ofRat (54 / 100) else confidence) = true ∧
      F64.lt (if F64.lt (F64.ofRat (54 / 100)) confidence = true
        then F64.ofRat (54 / 100) else confidence) (F64.ofRat (55 / 100)) = true := by
  split
  · decide +kernel
  · rename_i hle
    have hnumber : confidence ≠ none := by
      intro hnan
      rw [hnan] at h
      exact absurd h (by decide)
    exact ⟨h, F64.lt_of_not_lt hnumber (by simpa using hle) (by decide +kernel)⟩

theorem applyPersistence_cases (r : GateResult) (prior : List String) (p : FusionProfile) :
    (applyPersistence r prior p).selectedFamily = r.selectedFamily ∧
    (((applyPersistence r prior p).diagnosis = r.diagnosis ∧
        (applyPersistence r prior p).severity = r.severity ∧
        (applyPersistence r prior p).confidence = r.confidence ∧
        (applyPersistence r prior p).gate15Status = r.gate15Status ∧
        (r.selectedFamily = "NONE" ∨ need p ≤ agreeCount r.selectedFamily prior p ∨
          ¬ (r.gate15Status = "SUSPECTED" ∨ r.gate15Status = "CONFIRMED"))) ∨
      (r.gate15Status = "SUSPECTED" ∨ r.gate15Status = "CONFIRMED") ∧
        applyPersistence r prior p = { applyPersistence r prior p with
          diagnosis := "DETECTED_" ++ DiagnosisBands.familyLabel r.selectedFamily
          severity := "LOW"
          confidence := if F64.lt (F64.ofRat (54 / 100)) r.confidence then F64.ofRat (54 / 100)
            else r.confidence }) := by
  simp only [applyPersistence]
  by_cases hnone : r.selectedFamily = "NONE"
  · rw [if_pos hnone]
    exact ⟨rfl, Or.inl ⟨rfl, rfl, rfl, rfl, Or.inl hnone⟩⟩
  · rw [if_neg hnone]
    split
    · rename_i hcap
      exact ⟨rfl, Or.inr ⟨hcap.2, rfl⟩⟩
    · rename_i hcap
      refine ⟨rfl, Or.inl ⟨rfl, rfl, rfl, rfl, ?_⟩⟩
      by_cases hneed : need p ≤ agreeCount r.selectedFamily prior p
      · exact Or.inr (Or.inl hneed)
      · exact Or.inr (Or.inr fun hgate => hcap ⟨by simpa using hneed, hgate⟩)

theorem familyLabel_mem {family : String} (h : family ∈ familyNames) :
    DiagnosisBands.familyLabel family ∈ familyLabels := by
  have hall : ∀ family ∈ familyNames, DiagnosisBands.familyLabel family ∈ familyLabels := by
    decide
  exact hall family h

theorem banded_applyPersistence (h : Sound longD p r) (prior : List String) :
    Banded (applyPersistence r prior p) := by
  obtain ⟨-, ⟨hdiagnosis, hseverity, hconfidence, -, -⟩ | ⟨hgate, hcapped⟩⟩ :=
    applyPersistence_cases r prior p
  · have hband := h.banded
    rw [Banded] at hband ⊢
    rwa [hdiagnosis, hseverity, hconfidence]
  · obtain ⟨hname, hlow⟩ := h.family hgate
    obtain ⟨hfrom, hbelow⟩ := capped_confidence hlow
    rw [hcapped]
    exact Or.inr ⟨_, familyLabel_mem hname, Or.inl ⟨rfl, rfl, hfrom, hbelow⟩⟩

theorem called_applyPersistence {prior : List String}
    (h : Called (applyPersistence r prior p).diagnosis) :
    (applyPersistence r prior p).diagnosis = r.diagnosis ∧
      (r.selectedFamily = "NONE" ∨ need p ≤ agreeCount r.selectedFamily prior p ∨
        ¬ (r.gate15Status = "SUSPECTED" ∨ r.gate15Status = "CONFIRMED")) := by
  obtain ⟨-, ⟨hdiagnosis, -, -, -, hagree⟩ | ⟨-, hcapped⟩⟩ := applyPersistence_cases r prior p
  · exact ⟨hdiagnosis, hagree⟩
  · rw [hcapped] at h
    exact absurd h (not_called_detected _)

theorem elevated_of_gate {r : GateResult} (hname : r.selectedFamily ∈ familyNames)
    (hgate : r.gate15Status = "SUSPECTED" ∨ r.gate15Status = "CONFIRMED") :
    elevatedFamilyForHistory r = r.selectedFamily := by
  have hall : ∀ family ∈ familyNames, ¬ equalsIgnoreCase "NONE" family = true := by decide
  rw [elevatedFamilyForHistory, if_neg (hall _ hname), if_pos]
  rcases hgate with hgate | hgate <;> rw [hgate]
  · exact Or.inl (by decide)
  · exact Or.inr (by decide)

theorem agreeCount_eq (current : String) (prior : List String) (p : FusionProfile) :
    agreeCount current prior p =
      ((current :: prior.reverse).take (lookBack p).toNat).count current := by
  have hone : 1 ≤ (lookBack p).toNat := by
    have : 1 ≤ need p := le_max_left _ _
    have : need p ≤ lookBack p := le_max_left _ _
    omega
  obtain ⟨n, hn⟩ := Nat.exists_eq_succ_of_ne_zero (by omega : (lookBack p).toNat ≠ 0)
  have hbefore : (lookBack p - 1).toNat = n := by omega
  have hlast : prior.drop (prior.length - n) = (prior.reverse.take n).reverse := by
    rw [List.take_reverse, List.reverse_reverse]
  rw [agreeCount, hn, hbefore, List.take_succ_cons, List.count_cons_self, hlast,
    List.count_reverse]
  omega

theorem windows_agree {prior : List String} (h : Sound longD p r)
    (hcalled : Called (applyPersistence r prior p).diagnosis) :
    p.persistenceMinAgree ≤ ((elevatedFamilyForHistory r :: prior.reverse).take
      (max p.persistenceMinAgree p.persistenceWindows).toNat).count
        (applyPersistence r prior p).selectedFamily := by
  obtain ⟨hdiagnosis, hagree⟩ := called_applyPersistence hcalled
  have hgate := h.called (hdiagnosis ▸ hcalled)
  obtain ⟨hname, -⟩ := h.family hgate
  have hneed : need p ≤ agreeCount r.selectedFamily prior p := by
    rcases hagree with hnone | hneed | hgate'
    · rw [hnone] at hname
      exact absurd hname (by decide)
    · exact hneed
    · exact absurd hgate hgate'
  rw [(applyPersistence_cases r prior p).1, elevated_of_gate hname hgate]
  rw [agreeCount_eq, need] at hneed
  by_cases hpositive : 1 ≤ max p.persistenceMinAgree p.persistenceWindows
  · have hback : lookBack p = max p.persistenceMinAgree p.persistenceWindows := by
      rw [lookBack, need]
      omega
    rw [hback] at hneed
    omega
  · omega

/-- Verdict safety of `fuse` followed by `applyPersistence`. -/
theorem verdict_safe (shortF : ShortFeatures) (longD : LongDiagnostics) (hasStep hasPeer : Bool)
    (p : FusionProfile) (oc : OpenConditions) (hl : HealthLanes) (prior : List String) :
    let fused := fuse shortF longD hasStep hasPeer p oc hl
    let verdict := applyPersistence fused prior p
    (∀ label, exclusion shortF longD hl = some label →
      verdict.diagnosis = label ∧ verdict.confidence = F64.ofInt 0 ∧
        verdict.selectedFamily = "NONE") ∧
    (verdict.diagnosis = "CONFIRMED_FINAL_ELEMENT_NONLINEARITY" →
      longD.hasVp = true ∧ 0 < longD.vpEligibleSamples ∧
        Confirmation.dwellReached longD p = true) ∧
    (Called verdict.diagnosis → p.persistenceMinAgree ≤
      ((elevatedFamilyForHistory fused :: prior.reverse).take
        (max p.persistenceMinAgree p.persistenceWindows).toNat).count verdict.selectedFamily) ∧
    Banded verdict := by
  intro fused verdict
  have hsound : Sound longD p fused := sound_fuse
  refine ⟨fun label hlabel => ?_, fun hconfirmed => ?_, windows_agree hsound,
    banded_applyPersistence hsound prior⟩
  · obtain ⟨hdiagnosis, hconfidence, hfamily⟩ := fuse_of_excluded hlabel
    have hverdict : verdict = { fused with
        persistenceWindowsRequired := lookBack p
        persistenceAgreeCount := 0
        persistenceSatisfied := true } := if_pos hfamily
    rw [hverdict]
    exact ⟨hdiagnosis, hconfidence, hfamily⟩
  · have hcalled : Called verdict.diagnosis := by
      rw [hconfirmed]
      decide
    exact hsound.confirmed ((called_applyPersistence hcalled).1 ▸ hconfirmed)

end OpenBridge.GateFusion
