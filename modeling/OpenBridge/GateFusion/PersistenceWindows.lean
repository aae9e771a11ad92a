import OpenBridge.Foundation.Machine
import OpenBridge.Foundation.Recency
import OpenBridge.GateFusion.VerdictSafety

/-!
# Gate fusion: the windows that persistence counts

The family history has no window identity: a record that is delivered again counts again.  Here the
deliveries of a window kind are remembered beside the process, and the agreement is compared with
the distinct windows among them.
-/

namespace OpenBridge.GateFusion

open OpenBridge.Foundation
open CplmGateFusionEngine

inductive FusionInput where
  | side (s : FusionSideInput)
  | long (longD : LongDiagnostics) (p : FusionProfile)

/-- A delivered long record, the family that was elevated in it, and its verdict. -/
structure Seen where
  record : LongDiagnostics
  profile : FusionProfile
  family : String
  verdict : GateResult

def Seen.windowEnd (s : Seen) : ℤ := s.record.windowEndMs

/-- The process of a loop and the delivered records of one window kind, the newest first. -/
structure TrackedFusion where
  process : GateFusionProcess
  past : List Seen

namespace TrackedFusion

def new : TrackedFusion := ⟨GateFusionProcess.new, []⟩

variable (fuseKinds : List String) (kind : String)

def deliver (t : TrackedFusion) (longD : LongDiagnostics) (p : FusionProfile) : Seen :=
  let fused := t.process.fused longD p
  ⟨longD, p, elevatedFamilyForHistory fused, applyPersistence fused (t.process.history kind) p⟩

def Fuses (longD : LongDiagnostics) : Prop := longD.windowKind = some kind ∧ kind ∈ fuseKinds

instance (longD : LongDiagnostics) : Decidable (Fuses fuseKinds kind longD) :=
  inferInstanceAs (Decidable (_ ∧ _))

def step (t : TrackedFusion) : FusionInput → TrackedFusion × List GateResult
  | .side s => ({ t with process := t.process.processElement2 s }, [])
  | .long longD p =>
      let out := t.process.processElement1 fuseKinds longD p
      (⟨out.1, if Fuses fuseKinds kind longD then t.deliver kind longD p :: t.past else t.past⟩,
        out.2)

/-! ## The count of distinct windows -/

/-- The last `n` distinct windows, each with the record that was delivered last for it. -/
def lastWindows (n : ℕ) (seen : List Seen) : List Seen := Recency.recent Seen.windowEnd n [] seen

/-- The verdict of a record counts windows: its agreement is the number of the last distinct ones in
which its family was elevated, and the same record again lifts no cap. -/
structure CountsWindows (past : List Seen) (s : Seen) : Prop where
  counted : s.verdict.persistenceAgreeCount = if s.verdict.selectedFamily = "NONE" then 0
    else ((lastWindows (lookBack s.profile).toNat (s :: past)).countP
      fun w => w.family = s.verdict.selectedFamily : ℕ)
  again : ∀ before, past.head? = some before → before.record = s.record →
    before.profile = s.profile → before.verdict.persistenceSatisfied = false →
      ¬ Called s.verdict.diagnosis
  consecutive : s.family ≠ "NONE" →
    (lastWindows s.profile.persistenceMinAgree.toNat (s :: past)).length =
      s.profile.persistenceMinAgree.toNat →
    (∀ w ∈ lastWindows s.profile.persistenceMinAgree.toNat (s :: past), w.family = s.family) →
      s.verdict.persistenceSatisfied = true

def Counts (t : TrackedFusion) : FusionInput → Prop
  | .side _ => True
  | .long longD p => Fuses fuseKinds kind longD → CountsWindows t.past (t.deliver kind longD p)

/-- A record that selects a family elevates it, its window is none of those delivered just before,
those do not repeat either, and the history still holds them all. -/
def Orderly (t : TrackedFusion) : FusionInput → Prop
  | .side _ => True
  | .long longD p => Fuses fuseKinds kind longD → (t.process.fused longD p).selectedFamily ≠ "NONE" →
      elevatedFamilyForHistory (t.process.fused longD p) ≠ "NONE" ∧
      (longD.windowEndMs :: (t.past.take ((lookBack p).toNat - 1)).map Seen.windowEnd).Nodup ∧
      min ((lookBack p).toNat - 1) t.past.length ≤ (t.process.history kind).length

/-! ## The history holds the families of the last deliveries -/

/-- The history is the families of the last deliveries; a lone agreeing window was enough wherever one
is. -/
structure Tracks (t : TrackedFusion) : Prop where
  history : (t.process.history kind).reverse <+: t.past.map Seen.family
  satisfied : ∀ s ∈ t.past, need s.profile = 1 → s.verdict.persistenceSatisfied = true

variable {fuseKinds kind} {t : TrackedFusion}

theorem tracks_new : Tracks kind new := by
  refine ⟨?_, fun s hs => absurd hs (by simp [new])⟩
  exact List.nil_prefix

theorem history_of_familyHistory {g h : GateFusionProcess}
    (heq : g.familyHistoryByKind.get? kind = h.familyHistoryByKind.get? kind) :
    g.history kind = h.history kind := by
  rw [GateFusionProcess.history, GateFusionProcess.history, heq]

theorem history_processElement2 (g : GateFusionProcess) (s : FusionSideInput) :
    (g.processElement2 s).history kind = g.history kind := by
  cases s with
  | condition c =>
    refine history_of_familyHistory ?_
    rw [GateFusionProcess.processElement2]
    split <;> rfl
  | health h =>
    refine history_of_familyHistory ?_
    rw [GateFusionProcess.processElement2]
    split <;> rfl

theorem history_processElement1 (g : GateFusionProcess) (longD : LongDiagnostics)
    (p : FusionProfile) : (g.processElement1 fuseKinds longD p).1.history kind =
      if Fuses fuseKinds kind longD then
        GateFusionProcess.extend (g.history kind) (elevatedFamilyForHistory (g.fused longD p)) p
      else g.history kind := by
  simp only [GateFusionProcess.processElement1]
  split
  · rename_i hnone
    rw [if_neg fun hfuse => by simp [hfuse.1] at hnone]
  · rename_i other hother
    by_cases hsame : other = kind
    · subst hsame
      by_cases hfuse : other ∈ fuseKinds
      · rw [if_pos (show Fuses fuseKinds other longD from ⟨hother, hfuse⟩)]
        simp [hfuse, GateFusionProcess.history]
      · rw [if_neg fun h : Fuses fuseKinds other longD => hfuse h.2]
        simp [hfuse]
    · rw [if_neg fun h : Fuses fuseKinds kind longD =>
        hsame (Option.some.inj (hother.symm.trans h.1))]
      split
      · rfl
      · exact history_of_familyHistory (Dict.get?_set_of_ne _ _ fun h => hsame h.symm)

theorem extend_prefix {prior families : List String} (h : prior.reverse <+: families)
    (family : String) (p : FusionProfile) :
    (GateFusionProcess.extend prior family p).reverse <+: family :: families := by
  rw [GateFusionProcess.extend, List.reverse_drop, List.reverse_append, List.reverse_singleton,
    List.singleton_append]
  exact (List.take_prefix _ _).trans (List.cons_prefix_cons.mpr ⟨rfl, h⟩)

theorem satisfied_of_need_one {r : GateResult} {prior : List String} {p : FusionProfile}
    (h : need p = 1) : (applyPersistence r prior p).persistenceSatisfied = true := by
  have hagree : need p ≤ agreeCount r.selectedFamily prior p := by
    rw [agreeCount]
    omega
  simp only [applyPersistence]
  by_cases hnone : r.selectedFamily = "NONE"
  · rw [if_pos hnone]
  · rw [if_neg hnone, if_neg (by simp [hagree])]
    simpa using hagree

theorem tracks_step (h : Tracks kind t) (i : FusionInput) :
    Tracks kind (step fuseKinds kind t i).1 := by
  cases i with
  | side s =>
    refine ⟨?_, h.satisfied⟩
    show ((t.process.processElement2 s).history kind).reverse <+: _
    rw [history_processElement2]
    exact h.history
  | long longD p =>
    by_cases hfuse : Fuses fuseKinds kind longD
    · have hpast : (step fuseKinds kind t (.long longD p)).1.past =
          t.deliver kind longD p :: t.past := if_pos hfuse
      refine ⟨?_, fun s hs hneed => ?_⟩
      · show ((t.process.processElement1 fuseKinds longD p).1.history kind).reverse <+: _
        rw [history_processElement1, if_pos hfuse, hpast]
        exact extend_prefix h.history _ p
      · rw [hpast] at hs
        rcases List.mem_cons.mp hs with rfl | hs
        · exact satisfied_of_need_one hneed
        · exact h.satisfied s hs hneed
    · have hpast : (step fuseKinds kind t (.long longD p)).1.past = t.past := if_neg hfuse
      refine ⟨?_, hpast.symm ▸ h.satisfied⟩
      show ((t.process.processElement1 fuseKinds longD p).1.history kind).reverse <+: _
      rw [history_processElement1, if_neg hfuse, hpast]
      exact h.history

/-! ## The count of an orderly delivery -/

theorem take_of_prefix {a b : List String} {n : ℕ} (h : a <+: b) (hlen : min n b.length ≤ a.length) :
    a.take n = b.take n := by
  obtain ⟨c, rfl⟩ := h
  rw [List.take_append]
  rw [List.length_append] at hlen
  have hnone : c.take (n - a.length) = [] := by
    rw [List.take_eq_nil_iff]
    by_cases hn : n ≤ a.length
    · left
      omega
    · right
      rw [← List.length_eq_zero_iff]
      omega
  rw [hnone, List.append_nil]

theorem elevated_eq {r : GateResult} (h : elevatedFamilyForHistory r ≠ "NONE") :
    elevatedFamilyForHistory r = r.selectedFamily := by
  rw [elevatedFamilyForHistory] at h ⊢
  split at h
  · exact absurd rfl h
  · rename_i hname
    split at h
    · rename_i hgate
      rw [if_neg hname, if_pos hgate]
    · exact absurd rfl h

theorem agreeCount_applyPersistence (r : GateResult) (prior : List String) (p : FusionProfile) :
    (applyPersistence r prior p).persistenceAgreeCount = (if r.selectedFamily = "NONE" then 0
      else agreeCount r.selectedFamily prior p) ∧
    (r.selectedFamily ≠ "NONE" → ((applyPersistence r prior p).persistenceSatisfied = true ↔
      need p ≤ agreeCount r.selectedFamily prior p)) := by
  simp only [applyPersistence]
  by_cases hnone : r.selectedFamily = "NONE"
  · rw [if_pos hnone, if_pos hnone]
    exact ⟨rfl, fun h => absurd hnone h⟩
  · rw [if_neg hnone, if_neg hnone]
    split <;> exact ⟨rfl, fun _ => by simp⟩

theorem one_le_lookBack (p : FusionProfile) : 1 ≤ (lookBack p).toNat := by
  have hneed : 1 ≤ need p := le_max_left _ _
  have hback : need p ≤ lookBack p := le_max_left _ _
  omega

theorem counts_of_noFamily {longD : LongDiagnostics} {p : FusionProfile}
    (hnone : (t.process.fused longD p).selectedFamily = "NONE") :
    CountsWindows t.past (t.deliver kind longD p) := by
  have hfamily : (t.deliver kind longD p).verdict.selectedFamily = "NONE" :=
    (applyPersistence_cases _ _ _).1.trans hnone
  refine ⟨?_, fun _ _ _ _ _ hcalled => ?_, fun helevated => absurd ?_ helevated⟩
  · rw [if_pos hfamily]
    exact ((agreeCount_applyPersistence _ _ _).1).trans (if_pos hnone)
  · have hsound : Sound longD p (t.process.fused longD p) := sound_fuse
    obtain ⟨hdiagnosis, -⟩ := called_applyPersistence hcalled
    obtain ⟨hname, -⟩ := hsound.family (hsound.called (hdiagnosis ▸ hcalled))
    rw [hnone] at hname
    exact absurd hname (by decide)
  · show elevatedFamilyForHistory _ = "NONE"
    rw [elevatedFamilyForHistory, hnone]
    rfl

section Orderly

variable {longD : LongDiagnostics} {p : FusionProfile}

theorem lastWindows_eq_take {n : ℕ} (hn : n ≤ (lookBack p).toNat)
    (hnodup : (longD.windowEndMs ::
      (t.past.take ((lookBack p).toNat - 1)).map Seen.windowEnd).Nodup) :
    lastWindows n (t.deliver kind longD p :: t.past) =
      ((t.deliver kind longD p :: t.past).take n).reverse := by
  have hone := one_le_lookBack p
  refine Recency.recent_eq_take ?_ (by simp)
  refine List.Nodup.sublist ?_ hnodup
  cases n with
  | zero => simp
  | succ n =>
    rw [List.take_succ_cons, List.map_cons]
    refine List.Sublist.cons_cons _ (List.Sublist.map _ ?_)
    exact (List.take_prefix_take_left (by omega)).sublist

theorem agreeCount_of_kept (h : Tracks kind t) {family : String}
    (hfamily : (t.deliver kind longD p).family = family)
    (hkept : min ((lookBack p).toNat - 1) t.past.length ≤ (t.process.history kind).length) :
    agreeCount family (t.process.history kind) p =
      (((t.deliver kind longD p :: t.past).take (lookBack p).toNat).countP
        fun w => w.family = family : ℕ) := by
  have hone := one_le_lookBack p
  obtain ⟨n, hn⟩ := Nat.exists_eq_succ_of_ne_zero (by omega : (lookBack p).toNat ≠ 0)
  have hlast : (t.process.history kind).reverse.take n = (t.past.take n).map Seen.family := by
    rw [List.map_take]
    refine take_of_prefix h.history ?_
    rw [List.length_map, List.length_reverse]
    rw [hn] at hkept
    exact hkept
  have hcount : ((t.past.take n).map Seen.family).count family =
      (t.past.take n).countP fun w => w.family = family := by
    rw [List.count, List.countP_map]
    refine List.countP_congr fun w _ => ?_
    simp
  rw [agreeCount_eq, hn, List.take_succ_cons, List.take_succ_cons, hlast, List.count_cons_self,
    hcount, List.countP_cons_of_pos (by simpa using hfamily)]

theorem counts_of_orderly (h : Tracks kind t) (hfuse : Fuses fuseKinds kind longD)
    (horderly : Orderly fuseKinds kind t (.long longD p)) :
    CountsWindows t.past (t.deliver kind longD p) := by
  by_cases hnone : (t.process.fused longD p).selectedFamily = "NONE"
  · exact counts_of_noFamily hnone
  obtain ⟨helevated, hnodup, hkept⟩ := horderly hfuse hnone
  obtain ⟨hagree, hsatisfied⟩ := agreeCount_applyPersistence (t.process.fused longD p)
    (t.process.history kind) p
  rw [if_neg hnone] at hagree
  have hselected : (t.deliver kind longD p).verdict.selectedFamily =
      (t.process.fused longD p).selectedFamily := (applyPersistence_cases _ _ _).1
  have hfamily : (t.deliver kind longD p).family =
      (t.process.fused longD p).selectedFamily := elevated_eq helevated
  have hcount := agreeCount_of_kept h hfamily hkept
  refine ⟨?_, fun before hbefore hrecord hprofile hcapped => ?_, fun _ hlength hall => ?_⟩
  · rw [if_neg (hselected ▸ hnone), hselected]
    refine hagree.trans (hcount.trans ?_)
    show _ = ((lastWindows (lookBack p).toNat _).countP _ : ℤ)
    rw [lastWindows_eq_take le_rfl hnodup, List.countP_reverse]
  · -- the record just before is of another window unless one window is enough
    obtain ⟨rest, hpast⟩ := List.head?_eq_some_iff.mp hbefore
    by_cases hneed : need p = 1
    · have hmem : before ∈ t.past := hpast ▸ List.mem_cons_self
      have henough := h.satisfied before hmem (by rw [hprofile]; exact hneed)
      exact absurd henough (by simp [hcapped])
    · have hback : need p ≤ lookBack p := le_max_left _ _
      have hpositive : 1 ≤ need p := le_max_left _ _
      obtain ⟨n, hn⟩ := Nat.exists_eq_add_of_le (show 2 ≤ (lookBack p).toNat by omega)
      rw [hn, hpast, show 2 + n - 1 = n + 1 by omega, List.take_succ_cons, List.map_cons,
        List.nodup_cons] at hnodup
      refine absurd (List.mem_cons.mpr (Or.inl ?_)) hnodup.1
      exact (congrArg LongDiagnostics.windowEndMs hrecord).symm
  · refine (hsatisfied hnone).mpr ?_
    rw [hcount]
    have hmin : p.persistenceMinAgree.toNat ≤ (lookBack p).toNat := by
      have hback : need p ≤ lookBack p := le_max_left _ _
      have hneed : p.persistenceMinAgree ≤ need p := le_max_right _ _
      omega
    change (lastWindows p.persistenceMinAgree.toNat _).length = p.persistenceMinAgree.toNat
      at hlength
    change ∀ w ∈ lastWindows p.persistenceMinAgree.toNat _, _ at hall
    rw [lastWindows_eq_take hmin hnodup] at hlength hall
    have hsome : p.persistenceMinAgree.toNat ≤
        ((t.deliver kind longD p :: t.past).take (lookBack p).toNat).countP
          fun w => w.family = (t.process.fused longD p).selectedFamily := by
      calc p.persistenceMinAgree.toNat
          = ((t.deliver kind longD p :: t.past).take p.persistenceMinAgree.toNat).countP
              fun w => w.family = (t.process.fused longD p).selectedFamily := by
            rw [List.countP_eq_length.mpr, ← List.length_reverse, hlength]
            intro w hw
            simpa [hfamily] using hall w (List.mem_reverse.mpr hw)
        _ ≤ _ := (List.take_prefix_take_left hmin).sublist.countP_le
    have hself : 1 ≤ ((t.deliver kind longD p :: t.past).take (lookBack p).toNat).countP
        fun w => w.family = (t.process.fused longD p).selectedFamily := by
      rw [List.one_le_countP_iff]
      refine ⟨t.deliver kind longD p, ?_, by simpa using hfamily⟩
      obtain ⟨n, hn⟩ := Nat.exists_eq_add_of_le (one_le_lookBack p)
      rw [hn, Nat.add_comm, List.take_succ_cons]
      exact List.mem_cons_self
    rw [need]
    omega

end Orderly

/-- Along a run whose records come in order of distinct windows that the history still holds, every
verdict counts windows. -/
theorem counts_windows (fuseKinds : List String) (kind : String) (inputs : List FusionInput)
    (h : Machine.Always (step fuseKinds kind) (Orderly fuseKinds kind) new inputs) :
    Machine.Always (step fuseKinds kind) (Counts fuseKinds kind) new inputs := by
  refine Machine.always_of_always _ (Tracks kind) (fun t i ht _ => tracks_step ht i) ?_ tracks_new h
  intro t i ht horderly
  cases i with
  | side s => exact trivial
  | long longD p => exact fun hfuse => counts_of_orderly ht hfuse horderly

def twoOfThree : FusionProfile :=
  { dynamicClass := .fastSelfReg
    minValidCycles := 2
    opTravelFloorPct := F64.ofInt 1
    effortRatioFloor := F64.ofInt 1
    phaseAreaPerCycleLo := F64.ofRat (1 / 20)
    phaseAreaPerCycleHi := F64.ofInt 1
    priorStiction := F64.ofInt 1
    priorOscillation := F64.ofInt 1
    priorEffort := F64.ofInt 1
    priorGeometry := F64.ofInt 1
    geometryFamilyEnabled := true
    geometryRole := .supporting
    requireOscillationForStiction := true
    minNonGeometryEvidences := 2
    geometryAloneForbidden := true
    nonfollowingDwellS := F64.ofInt 60
    persistenceWindows := 3
    persistenceMinAgree := 2 }

/-- A window of a loop that oscillates, with its end. -/
def oscillating (windowEndMs : ℤ) : LongDiagnostics :=
  { windowKind := some "12h"
    windowEndMs := windowEndMs
    hasVp := false
    effortRatio := F64.ofInt 0
    acfRegularity := F64.ofRat (4 / 5)
    gate5Status := "WARN"
    fftPeakRatio := F64.ofRat (1 / 2)
    harmonicAmplitudeRatio := F64.ofInt 0
    gate6Status := "PASS"
    triangularity := F64.ofInt 0
    completedCycles := 6
    gate7Status := "PASS"
    horchOddness := F64.ofInt 0
    gate8Status := "PASS"
    phaseAreaNormPerCycle := F64.ofInt 0
    cornerScore := F64.ofInt 0
    cornerScoreRaw := F64.ofInt 0
    cornerScoreQualified := F64.ofInt 0
    periodStatus := some "VALID"
    opRangePct := F64.ofInt 0
    gate10Status := "PASS"
    satCyclingPattern := false
    gate11Status := "PASS"
    gate11Reason := ""
    freezeMaterial := false
    vpEligibleSamples := 0
    vpTrackingErrorP95Pp := F64.ofInt 0
    vpNonFollowingDwellS := F64.ofInt 0
    vpTrackingHealthy := false
    observabilityFlags := []
    interaction := none
    methodEligibility := []
    alignedShort := some
      { windowKind := "12h"
        windowEndMs := windowEndMs
        sufficientData := true
        gate0Status := "PASS"
        gate1Status := "PASS"
        gate2rStatus := "PASS"
        operatingRegionValid := true
        effortRatio := F64.ofInt 0
        reversalCount := 0
        gate4Status := "PASS" } }

/-- Two windows in order. -/
theorem counts_windows_two : Machine.Always (step ["12h"] "12h") (Counts ["12h"] "12h") new
    [.long (oscillating 43200000) twoOfThree, .long (oscillating 46800000) twoOfThree] :=
  counts_windows ["12h"] "12h" _
    ⟨fun _ _ => ⟨by decide +kernel, by decide +kernel, by decide +kernel⟩,
      fun _ _ => ⟨by decide +kernel, by decide +kernel, by decide +kernel⟩, trivial⟩

/-- The record of one window, delivered twice, is capped and then called. -/
theorem same_window_twice_called :
    (Machine.outputs (step ["12h"] "12h") new
      [.long (oscillating 43200000) twoOfThree, .long (oscillating 43200000) twoOfThree]).map
        (fun v => (v.diagnosis, v.persistenceAgreeCount)) =
      [("DETECTED_OSCILLATION", 1), ("SUSPECTED_OSCILLATION", 2)] ∧
    ¬ Machine.Always (step ["12h"] "12h") (Counts ["12h"] "12h") new
      [.long (oscillating 43200000) twoOfThree, .long (oscillating 43200000) twoOfThree] := by
  refine ⟨by decide +kernel, ?_⟩
  rintro ⟨-, hcounts, -⟩
  have hagain := (hcounts ⟨rfl, by decide⟩).again _ rfl rfl rfl
  exact hagain (by decide +kernel) (by decide +kernel)

end TrackedFusion

end OpenBridge.GateFusion
