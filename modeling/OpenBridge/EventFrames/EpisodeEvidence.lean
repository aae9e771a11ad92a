import OpenBridge.EventFrames.Episodes
import OpenBridge.Evidence.EvidenceThrottle
import OpenBridge.GateFusion.VerdictSafety

/-!
# Event frames: which verdicts have live evidence

The fusion job decides from a signature and a memory whether a verdict pushes its artifacts; the
event frames decide from the open frame what the same verdict opens.  A verdict that the throttle
skips repeats the signature of the one before it, so it opens no episode, and takes one over only by
a family whose evidence was pushed within the interval.
-/

namespace OpenBridge.EventFrames

open OpenBridge.Foundation
open OpenBridge.Evidence
open OpenBridge.Samples (javaTrim)
open EventFrameLifecycle

/-- The two sides for one loop and window kind: the memory of the throttle, and the frames. -/
structure EvidencedFrames where
  memory : EvidenceThrottle.Memory := none
  frames : FrameTable := {}

structure VerdictOutcome where
  kind : TransitionKind
  emitted : List FusionArtifact
  deriving DecidableEq

namespace EvidencedFrames

variable (policy : EvidencePolicy) (chunks : FusionArtifact → ℕ) (n : ℤ)

def step (s : EvidencedFrames) (r : FusedVerdict) : EvidencedFrames × List VerdictOutcome :=
  let evidence := emitEvidence policy chunks s.memory r
  let applied := s.frames.applyVerdict n r.verdict
  (⟨evidence.1, applied.1⟩, applied.2.map fun kind => ⟨kind, evidence.2⟩)

def after (rs : List FusedVerdict) : EvidencedFrames :=
  Machine.stateAfter (step policy chunks n) {} rs

@[simp] theorem after_concat (rs : List FusedVerdict) (r : FusedVerdict) :
    after policy chunks n (rs ++ [r]) = (step policy chunks n (after policy chunks n rs) r).1 :=
  Machine.stateAfter_concat _ _ _ _

/-- A verdict repeats an earlier one whose artifacts were emitted less than the interval before, with
only repeats of its signature since. -/
def Repeats (pre : List FusedVerdict) (r : FusedVerdict) : Prop :=
  ∃ earlier u between, pre = earlier ++ u :: between ∧
    (emitEvidence policy chunks (after policy chunks n earlier).memory u).2 =
      FusionArtifacts.artifacts u ∧
    (∀ w ∈ u :: between, EvidenceThrottle.signature w = EvidenceThrottle.signature r) ∧
    r.windowEndMs - u.windowEndMs < policy.minIntervalMs

end EvidencedFrames

def Legible (diagnosis : Option String) : Prop :=
  ∀ d, diagnosis = some d →
    '|' ∉ d.toList ∧ d ∉ ["null", "PASS", "PENDING"] ∧ (javaTrim d = "" ↔ trim d = "")

section Sides

variable {diagnosis : Option String} {r w : FusedVerdict}

theorem Legible.isFaultDiagnosis_eq (h : Legible diagnosis) :
    EvidencePolicy.isFaultDiagnosis diagnosis = decide (classify diagnosis = .fault) := by
  cases diagnosis with
  | none => rfl
  | some d =>
    obtain ⟨-, hplain, hblank⟩ := h d rfl
    simp only [List.mem_cons, List.not_mem_nil, or_false, not_or] at hplain
    unfold EvidencePolicy.isFaultDiagnosis classify
    dsimp only
    simp only [hblank]
    split
    · rfl
    split
    · rfl
    split
    · rfl
    · exact (decide_eq_true hplain.2).trans (decide_eq_true rfl).symm

theorem diagnosis_eq_of_signature (hr : Legible r.diagnosis) (hw : Legible w.diagnosis)
    (h : EvidenceThrottle.signature w = EvidenceThrottle.signature r) :
    w.diagnosis = r.diagnosis := by
  have hbar : ∀ {q : FusedVerdict}, Legible q.diagnosis →
      '|' ∉ (EvidenceThrottle.text q.diagnosis).toList := by
    intro q hq
    cases hd : q.diagnosis with
    | none => exact (by decide : '|' ∉ "null".toList)
    | some d => exact (hq d hd).1
  have hlist := congrArg String.toList h
  unfold EvidenceThrottle.signature at hlist
  simp only [String.toList_append, List.append_assoc] at hlist
  have htext := String.toList_inj.mp (KeyText.split_first (hbar hw) (hbar hr) hlist).1
  unfold EvidenceThrottle.text at htext
  cases hwd : w.diagnosis with
  | none =>
    cases hrd : r.diagnosis with
    | none => rfl
    | some d =>
      rw [hwd, hrd] at htext
      have hnull : "null" = d := htext
      exact absurd (by rw [← hnull]; exact List.mem_cons_self) (hr d hrd).2.1
  | some d =>
    cases hrd : r.diagnosis with
    | none =>
      rw [hwd, hrd] at htext
      have hnull : d = "null" := htext
      exact absurd (by rw [hnull]; exact List.mem_cons_self) (hw d hwd).2.1
    | some d' =>
      rw [hwd, hrd] at htext
      exact congrArg some htext

theorem emit_of_fault {policy : EvidencePolicy} (hmode : policy.mode = .episodes)
    (hr : Legible r.diagnosis) (hfault : r.verdict.isFault = true) : policy.emit r = true := by
  have hdiagnosis : EvidencePolicy.isFaultDiagnosis r.diagnosis = true := by
    rw [hr.isFaultDiagnosis_eq]
    exact hfault
  unfold EvidencePolicy.emit
  rw [hmode]
  dsimp only
  rw [hdiagnosis, Bool.or_true, Bool.true_or]

end Sides

section Frames

variable {t : FrameTable} {cs : List FrameRow} {o : Option FrameRow} {v : GateVerdict} (n : ℤ)

theorem Holds.fault_leaves_open (h : Holds t cs o) (hv : v.isFault = true) :
    ∃ cs' r, Holds (FrameTable.applyVerdict n t v).1 cs' (some r) ∧
      (r.frame.family = v.family → bandRank v.severity ≤ bandRank r.frame.severity) := by
  obtain ⟨cs', o', hstep, hholds⟩ := exists_step n h v
  generalize (FrameTable.applyVerdict n t v).1 = t' at hstep hholds ⊢
  generalize t'.nextId = next at hstep
  cases hstep with
  | ignored hfault => exact absurd hv (by rw [hfault]; decide)
  | opened => exact ⟨_, _, hholds, fun _ => le_rfl⟩
  | noted availability hnone =>
    unfold GateVerdict.inconclusive at hnone
    rw [hv] at hnone
    cases hnone
  | recovered hclear =>
    unfold GateVerdict.isFault at hv
    unfold GateVerdict.recovers at hclear
    have hfault : classify v.diagnosis = .fault := of_decide_eq_true hv
    have hrecovers := (of_decide_eq_true hclear).1
    rw [hfault] at hrecovers
    cases hrecovers
  | changed => exact ⟨_, _, hholds, fun _ => le_rfl⟩
  | pending _ hne => exact ⟨_, _, hholds, fun heq => absurd heq hne⟩
  | @extended r =>
    refine ⟨_, _, hholds, fun _ => ?_⟩
    have hseverity : (r.frame.extended v).severity = (v.severity <|> r.frame.severity) := rfl
    dsimp only
    rw [hseverity]
    cases v.severity with
    | none => exact Nat.zero_le _
    | some s => exact le_rfl

theorem Holds.kind_spec (h : Holds t cs o) {kind : TransitionKind}
    (hkind : kind ∈ (FrameTable.applyVerdict n t v).2) :
    (kind ∈ [TransitionKind.open, .escalate, .closeAndOpen] → v.isFault = true) ∧
      (kind = .open → o = none) ∧
      (kind = .escalate → ∃ r, o = some r ∧ r.frame.family = v.family ∧
        bandRank r.frame.severity < bandRank v.severity) := by
  unfold FrameTable.applyVerdict at hkind
  rw [h.readOpen] at hkind
  obtain rfl := List.mem_singleton.mp hkind
  unfold apply
  cases hclass : classify v.diagnosis with
  | unobservable =>
    cases o with
    | none => exact ⟨nofun, nofun, nofun⟩
    | some r => exact ⟨nofun, nofun, nofun⟩
  | clear =>
    cases o with
    | none => exact ⟨nofun, nofun, nofun⟩
    | some r =>
      dsimp only [Option.map_some]
      split
      · exact ⟨nofun, nofun, nofun⟩
      · exact ⟨nofun, nofun, nofun⟩
  | fault =>
    refine ⟨fun _ => decide_eq_true hclass, ?_, ?_⟩
    · intro hopen
      cases o with
      | none => rfl
      | some r =>
        dsimp only [applyFault, Option.map_some] at hopen
        split at hopen
        · split at hopen <;> cases hopen
        · dsimp only at hopen
          split at hopen <;> cases hopen
    · intro hescalate
      cases o with
      | none => cases hescalate
      | some r =>
        dsimp only [applyFault, Option.map_some] at hescalate
        split at hescalate
        · split at hescalate <;> cases hescalate
        · rename_i hfamily
          dsimp only at hescalate
          split at hescalate
          · rename_i hrank
            exact ⟨r, rfl, not_not.mp hfamily, hrank⟩
          · cases hescalate

end Frames

namespace EvidencedFrames

variable (policy : EvidencePolicy) (chunks : FusionArtifact → ℕ) (n : ℤ)

/-- What the memory is after some verdicts: nothing, or the last emission, of which every verdict
since repeats the signature. -/
def Remembers (pre : List FusedVerdict) (s : EvidencedFrames) : Prop :=
  ∀ sig ms, s.memory = some (sig, ms) → ∃ earlier u between, pre = earlier ++ u :: between ∧
    (emitEvidence policy chunks (after policy chunks n earlier).memory u).2 =
      FusionArtifacts.artifacts u ∧
    (∀ w ∈ u :: between, EvidenceThrottle.signature w = sig) ∧ u.windowEndMs = ms

theorem emitEvidence_cases (memory : EvidenceThrottle.Memory) (r : FusedVerdict) :
    (policy.emit r = false ∧ emitEvidence policy chunks memory r = (none, [])) ∨
    ((∃ ms, memory = some (EvidenceThrottle.signature r, ms) ∧
        r.windowEndMs - ms < policy.minIntervalMs) ∧
      emitEvidence policy chunks memory r = (memory, [])) ∨
    emitEvidence policy chunks memory r =
      (some (EvidenceThrottle.signature r, r.windowEndMs), FusionArtifacts.artifacts r) := by
  cases hpolicy : policy.emit r with
  | false =>
    refine .inl ⟨rfl, ?_⟩
    unfold emitEvidence EvidenceThrottle.action
    rw [hpolicy]
    rfl
  | true =>
    right
    cases hdue : EvidenceThrottle.due memory (EvidenceThrottle.signature r) r.windowEndMs
        policy.minIntervalMs with
    | false =>
      refine .inl ⟨EvidenceThrottle.due_eq_false hdue, ?_⟩
      unfold emitEvidence EvidenceThrottle.action
      dsimp only
      rw [hpolicy, hdue]
      rfl
    | true =>
      right
      have hrecords : EvidenceThrottle.recordsState
          ((FusionArtifacts.artifacts r).map fun a => 1 + chunks a).sum = true := by
        obtain ⟨a, rest, hcons⟩ := List.exists_cons_of_ne_nil (FusionArtifacts.artifacts_ne_nil r)
        rw [hcons, List.map_cons, List.sum_cons]
        exact decide_eq_true (by omega)
      unfold emitEvidence EvidenceThrottle.action
      dsimp only
      rw [hpolicy, hdue, hrecords]
      rfl

theorem remembers (rs : List FusedVerdict) :
    Remembers policy chunks n rs (after policy chunks n rs) := by
  refine Machine.history_invariant (Remembers policy chunks n) (fun _ _ h => by cases h) ?_ rs
  intro pre r ih sig ms hmemory
  change (emitEvidence policy chunks (after policy chunks n pre).memory r).1 = some (sig, ms)
    at hmemory
  rcases emitEvidence_cases policy chunks (after policy chunks n pre).memory r with ⟨-, hclear⟩ | ⟨⟨prevMs, hprev, -⟩, hskip⟩ | hemit
  · rw [hclear] at hmemory
    cases hmemory
  · -- a skipped verdict repeats the signature that is remembered
    rw [hskip] at hmemory
    obtain ⟨earlier, u, between, rfl, hemitted, hsame, hms⟩ := ih sig ms hmemory
    have hsig : EvidenceThrottle.signature r = sig := by
      rw [hprev] at hmemory
      exact (Prod.mk.inj (Option.some.inj hmemory)).1
    refine ⟨earlier, u, between ++ [r], by simp, hemitted, ?_, hms⟩
    intro w hw
    rcases List.mem_append.mp (by simpa using hw : w ∈ (u :: between) ++ [r]) with hw | hw
    · exact hsame w hw
    · rw [List.mem_singleton.mp hw, hsig]
  · rw [hemit] at hmemory
    obtain ⟨rfl, rfl⟩ := Prod.mk.inj (Option.some.inj hmemory)
    refine ⟨pre, r, [], rfl, by rw [hemit], ?_, rfl⟩
    intro w hw
    rw [List.mem_singleton.mp hw]

theorem exists_holds_frames (rs : List FusedVerdict) :
    ∃ cs o, Holds (after policy chunks n rs).frames cs o := by
  refine Machine.invariant (fun s : EvidencedFrames => ∃ cs o, Holds s.frames cs o) ⟨[], none, holds_empty⟩ ?_ rs
  rintro s r ⟨cs, o, h⟩
  obtain ⟨cs', o', -, h'⟩ := exists_step n h r.verdict
  exact ⟨cs', o', h'⟩

section Runs

variable {policy} {chunks} {n}

theorem emits_or_repeats (hmode : policy.mode = .episodes) {pre : List FusedVerdict}
    {r : FusedVerdict} (hr : Legible r.diagnosis) (hfault : r.verdict.isFault = true) :
    (emitEvidence policy chunks (after policy chunks n pre).memory r).2 =
        FusionArtifacts.artifacts r ∨ Repeats policy chunks n pre r := by
  rcases emitEvidence_cases policy chunks (after policy chunks n pre).memory r with ⟨hpolicy, -⟩ | ⟨⟨ms, hmemory, hms⟩, -⟩ | hemit
  · rw [emit_of_fault hmode hr hfault] at hpolicy
    cases hpolicy
  · obtain ⟨earlier, u, between, hpre, hemitted, hsame, rfl⟩ := remembers policy chunks n pre _ _ hmemory
    exact .inr ⟨earlier, u, between, hpre, hemitted, hsame, hms⟩
  · exact .inl (by rw [hemit])

theorem Repeats.exists_last {pre : List FusedVerdict} {r : FusedVerdict}
    (h : Repeats policy chunks n pre r) : ∃ front w, pre = front ++ [w] ∧
      EvidenceThrottle.signature w = EvidenceThrottle.signature r := by
  obtain ⟨earlier, u, between, rfl, -, hsame, -⟩ := h
  rcases List.eq_nil_or_concat between with rfl | ⟨front, w, rfl⟩
  · exact ⟨earlier, u, rfl, hsame u List.mem_cons_self⟩
  · refine ⟨earlier ++ u :: front, w, by simp, hsame w (by simp)⟩

theorem Repeats.exists_open {pre : List FusedVerdict} {r : FusedVerdict}
    (h : Repeats policy chunks n pre r) (hlegible : ∀ w ∈ pre, Legible w.diagnosis)
    (hr : Legible r.diagnosis) (hfault : r.verdict.isFault = true) :
    ∃ w cs row, pre.getLast? = some w ∧ Holds (after policy chunks n pre).frames cs (some row) ∧
      (row.frame.family = r.verdict.family →
        bandRank w.verdict.severity ≤ bandRank row.frame.severity) := by
  obtain ⟨front, w, rfl, hsame⟩ := h.exists_last
  have hdiagnosis := diagnosis_eq_of_signature hr (hlegible w (by simp)) hsame
  unfold FusedVerdict.diagnosis at hdiagnosis
  have hw : w.verdict.isFault = true := by
    unfold GateVerdict.isFault at hfault ⊢
    rw [hdiagnosis]
    exact hfault
  have hfamily : w.verdict.family = r.verdict.family := by
    unfold GateVerdict.family
    rw [hdiagnosis]
  obtain ⟨cs, o, hholds⟩ := exists_holds_frames policy chunks n front
  obtain ⟨cs', row, hholds', hseverity⟩ := hholds.fault_leaves_open n hw
  refine ⟨w, cs', row, List.getLast?_concat, ?_, fun heq => hseverity (heq.trans hfamily.symm)⟩
  rw [after_concat]
  exact hholds'

section Verdict

variable {pre : List FusedVerdict} {r : FusedVerdict} {o : VerdictOutcome}

theorem opening_emits (hmode : policy.mode = .episodes) (hpre : ∀ w ∈ pre, Legible w.diagnosis)
    (hr : Legible r.diagnosis) (ho : o ∈ (step policy chunks n (after policy chunks n pre) r).2)
    (hkind : o.kind = .open) : o.emitted = FusionArtifacts.artifacts r := by
  obtain ⟨kind, hmem, rfl⟩ := List.mem_map.mp ho
  obtain rfl : kind = .open := hkind
  obtain ⟨cs, row, hholds⟩ := exists_holds_frames policy chunks n pre
  obtain ⟨hfault, hopen, -⟩ := hholds.kind_spec n hmem
  rcases emits_or_repeats hmode hr (hfault (by decide)) with hemit | hrepeats
  · exact hemit
  · obtain ⟨_, _, row', -, hholds', -⟩ := hrepeats.exists_open hpre hr (hfault (by decide))
    have hrow := hholds.readOpen.symm.trans hholds'.readOpen
    rw [hopen rfl] at hrow
    cases hrow

theorem escalation_emits_or_rises (hmode : policy.mode = .episodes)
    (hpre : ∀ w ∈ pre, Legible w.diagnosis) (hr : Legible r.diagnosis)
    (ho : o ∈ (step policy chunks n (after policy chunks n pre) r).2) (hkind : o.kind = .escalate) :
    o.emitted = FusionArtifacts.artifacts r ∨ (Repeats policy chunks n pre r ∧
      ∃ w, pre.getLast? = some w ∧ bandRank w.verdict.severity < bandRank r.verdict.severity) := by
  obtain ⟨kind, hmem, rfl⟩ := List.mem_map.mp ho
  obtain rfl : kind = .escalate := hkind
  obtain ⟨cs, row, hholds⟩ := exists_holds_frames policy chunks n pre
  obtain ⟨hfault, -, hescalate⟩ := hholds.kind_spec n hmem
  rcases emits_or_repeats hmode hr (hfault (by decide)) with hemit | hrepeats
  · exact .inl hemit
  · obtain ⟨w, _, row', hlast, hholds', hseverity⟩ :=
      hrepeats.exists_open hpre hr (hfault (by decide))
    obtain ⟨row'', rfl, hfamily, hrank⟩ := hescalate rfl
    obtain rfl := Option.some.inj (hholds.readOpen.symm.trans hholds'.readOpen)
    exact .inr ⟨hrepeats, w, hlast, (hseverity hfamily).trans_lt hrank⟩

end Verdict

def verdictAt (minute : ℤ) (diagnosis : String) : FusedVerdict where
  verdict :=
    { diagnosis := some diagnosis, confidence := .finite (3 / 5), severity := some "MEDIUM",
      windowStart := .ofMs (minute * 60000 - 86400000), windowEnd := .ofMs (minute * 60000),
      qualifiedSupportMs := 86400000, recoverySupportS := .finite 0, resultRevision := 1 }
  selectedFamily := some "oscillation"
  gate14Status := some "NOT_APPLICABLE"
  gate15Status := some "SUSPECTED"
  healthLanes := none
  interaction := true
  methodRunIds := Identity.GateMethodCatalog.gates.map fun gate => (gate, "run")
  stamped := by decide

def hourly : EvidencePolicy := ⟨.episodes, 3600000⟩

def familyChange : List FusedVerdict :=
  [verdictAt 1440 "CLASSIFIED_OSCILLATION",
    verdictAt 1455 "CLASSIFIED_FINAL_ELEMENT_NONLINEARITY",
    verdictAt 1470 "CLASSIFIED_FINAL_ELEMENT_NONLINEARITY",
    verdictAt 1485 "CLASSIFIED_FINAL_ELEMENT_NONLINEARITY"]

theorem legible_familyChange : ∀ r ∈ familyChange, Legible r.diagnosis := by
  have hplain : ∀ r ∈ familyChange, ∀ d ∈ r.diagnosis,
      '|' ∉ d.toList ∧ d ∉ ["null", "PASS", "PENDING"] ∧ (javaTrim d = "" ↔ trim d = "") := by
    decide
  exact fun r hr d hd => hplain r hr d hd

end Runs

end EvidencedFrames

end OpenBridge.EventFrames
