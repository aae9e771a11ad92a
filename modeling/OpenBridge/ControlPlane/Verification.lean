import OpenBridge.ControlPlane.Deployment

/-!
# Control plane: what ACTIVE_VERIFIED promises

A deployment is to be verified only on full agreement, and any NACK is to end it in
`ACTIVATION_FAILED`.  The evaluation looks at the NACKs and the jars of one phase at a time, over a
table in which a later answer replaces an earlier one, so the promise is kept by the runs whose
steps meet `StepOk`: no NACK arrives for a phase that is over, no NACK is replaced, the
acknowledgements name one jar across the phases.
-/

namespace OpenBridge.ControlPlane

open OpenBridge.Foundation

namespace Deployment

/-! ## The promise -/

def Counts (plan : DeploymentPlan) (a : WorkerAck) : Prop :=
  a.status = .ack ∧ a.bundleHash = plan.contentHash ∧ a.jobName ∈ plan.required

instance (plan : DeploymentPlan) (a : WorkerAck) : Decidable (Counts plan a) :=
  inferInstanceAs (Decidable (_ ∧ _ ∧ _))

def Covered (plan : DeploymentPlan) (phase : Phase) (acks : List WorkerAck) : Prop :=
  ∀ job ∈ plan.required, ∃ a ∈ acks, Counts plan a ∧ a.phase = phase ∧ a.jobName = job

def OneJar (plan : DeploymentPlan) (acks : List WorkerAck) : Prop :=
  ∀ a ∈ acks, ∀ b ∈ acks, Counts plan a → Counts plan b → a.jarSha256 = b.jarSha256

/-- Full agreement of the answers received: both phases acknowledged by every required job with
the deployment's hash, from one jar, and no NACK from any subtask. -/
structure Agreement (plan : DeploymentPlan) (acks : List WorkerAck) : Prop where
  prepared : Covered plan .prepare acks
  applied : Covered plan .apply acks
  oneJar : OneJar plan acks
  noNack : ∀ a ∈ acks, a.status ≠ .nack

/-- The NACK is on the record, and the evaluation of its phase is still to come. -/
def Pending (d : Deployment) (b : WorkerAck) : Prop :=
  (d.state = .scheduled ∨ d.state = .preparing ∨ d.state = .applying ∧ b.phase = .apply) ∧
    ∃ r ∈ d.acks, r.key = b.key ∧ r.status = .nack

/-- The promise at one event of a run: the deployment moves to `ACTIVE_VERIFIED` only on full
agreement, and a NACK received before that has it fail, now or at the evaluation of its phase. -/
structure Promise (plan : DeploymentPlan) (pre : List Event) (e : Event) : Prop where
  verified : .setState .activeVerified ∈ (step plan (after plan pre) e).2 →
    Agreement plan (received (pre ++ [e]))
  nackEnds : (after plan (pre ++ [e])).state ≠ .activeVerified →
    ∀ b ∈ received (pre ++ [e]), b.status = .nack →
      (after plan (pre ++ [e])).state = .activationFailed ∨ Pending (after plan (pre ++ [e])) b

def FullAgreement (plan : DeploymentPlan) (run : List Event) : Prop :=
  ∀ pre e post, run = pre ++ e :: post → Promise plan pre e

/-! ## When it is kept -/

/-- The evaluation of `PREPARING` refuses the answers on record. -/
def PrepareRefused (plan : DeploymentPlan) (acks : List WorkerAck) : Prop :=
  (∃ a ∈ acks, a.phase = .prepare ∧ a.status = .nack) ∨
    (∃ a ∈ acks, a.phase = .prepare ∧ a.status = .ack ∧ a.bundleHash ≠ plan.contentHash) ∨
    ∃ a ∈ acks, ∃ b ∈ acks, (a.phase = .prepare ∧ a.status = .ack) ∧
      (b.phase = .prepare ∧ b.status = .ack) ∧ a.jarSha256 ≠ b.jarSha256

/-- The condition on one event, in the state before it. -/
structure StepOk (plan : DeploymentPlan) (pre : List Event) (e : Event) : Prop where
  /-- a NACK arrives before the quorum of its phase, or after the end -/
  nackInPhase : ∀ a ∈ e.ack?, a.status = .nack →
    (after plan pre).state ∈
        [DeploymentState.scheduled, .preparing, .activationFailed, .activeVerified] ∨
      (after plan pre).state = .applying ∧ a.phase = .apply
  /-- an ACK does not replace a NACK -/
  nackKept : ∀ a ∈ e.ack?, a.status = .ack →
    (after plan pre).state ∉ [DeploymentState.activationFailed, .activeVerified] →
    ∀ r ∈ (after plan pre).acks, r.key = a.key → r.status = .ack
  /-- one jar acknowledges both phases, unless the PREPARE answers are refused anyway -/
  oneJar : ∀ a, e.ack? = some a →
    (after plan pre).state ∈ [DeploymentState.scheduled, .preparing, .applying, .probing] →
    OneJar plan (received (pre ++ [e])) ∨
      (after plan pre).state ∈ [DeploymentState.scheduled, .preparing] ∧
        PrepareRefused plan (recorded (after plan pre) e)
  /-- the window for PREPARE does not run out while an APPLY NACK is on record -/
  inWindow : (after plan pre).state = .preparing →
    (∃ r ∈ recorded (after plan pre) e, r.phase = .apply ∧ r.status = .nack) →
    e.nowMs - (after plan pre).updatedAtMs ≤ plan.ackWindowMs

instance (plan : DeploymentPlan) (acks : List WorkerAck) : Decidable (PrepareRefused plan acks) :=
  inferInstanceAs (Decidable (_ ∨ _ ∨ _))

instance (plan : DeploymentPlan) (acks : List WorkerAck) : Decidable (OneJar plan acks) :=
  inferInstanceAs (Decidable (∀ a ∈ acks, ∀ b ∈ acks, _ → _ → _))

instance (plan : DeploymentPlan) (pre : List Event) (e : Event) : Decidable (StepOk plan pre e) :=
  decidable_of_iff (_ ∧ _ ∧ _ ∧ _)
    ⟨fun h => ⟨h.1, h.2.1, h.2.2.1, h.2.2.2⟩, fun h => ⟨h.1, h.2, h.3, h.4⟩⟩

def RunOk (plan : DeploymentPlan) (run : List Event) : Prop :=
  ∀ pre e post, run = pre ++ e :: post → StepOk plan pre e

theorem runOk_iff {plan : DeploymentPlan} {run : List Event} :
    RunOk plan run ↔ ∀ i : Fin run.length, StepOk plan (run.take i) (run.get i) := by
  constructor
  · intro h i
    refine h _ _ (run.drop (i + 1)) ?_
    rw [List.get_eq_getElem, ← List.drop_eq_getElem_cons, List.take_append_drop]
  · intro h pre e post heq
    subst heq
    have := h ⟨pre.length, by simp⟩
    simpa using this

instance (plan : DeploymentPlan) (run : List Event) : Decidable (RunOk plan run) :=
  decidable_of_iff _ runOk_iff.symm

/-! ## What an evaluation can do -/

theorem mem_answers {acks : List WorkerAck} {phase : Phase} {status : AckStatus} {a : WorkerAck} :
    a ∈ answers acks phase status ↔ a ∈ acks ∧ a.phase = phase ∧ a.status = status := by
  simp [answers]

theorem answers_eq_nil_iff {acks : List WorkerAck} {phase : Phase} {status : AckStatus} :
    answers acks phase status = [] ↔ ∀ a ∈ acks, a.phase = phase → a.status ≠ status := by
  simp [answers, List.filter_eq_nil_iff]

theorem missing_eq_nil_iff {plan : DeploymentPlan} {answered : List WorkerAck} :
    missing plan answered = [] ↔ ∀ job ∈ plan.required, ∃ a ∈ answered, a.jobName = job := by
  simp [missing, List.filter_eq_nil_iff]

/-- What an evaluation at `nowMs` can do to a deployment: the next row, and the states written. -/
inductive Advance (plan : DeploymentPlan) (d : Deployment) (nowMs : ℤ) : Deployment → Prop where
  /-- nothing moves -/
  | stay (d' : Deployment) (hstate : d'.state = d.state) (hacks : d'.acks = d.acks)
      (hprepare : d.state = .preparing → ¬ PrepareRefused plan d.acks)
      (happly : d.state = .applying → ∀ a ∈ d.acks, a.phase = .apply → a.status ≠ .nack) :
      Advance plan d nowMs d'
  /-- the answers are refused -/
  | refuse (d' : Deployment) (hstate : d'.state = .activationFailed) (hacks : d'.acks = d.acks) :
      Advance plan d nowMs d'
  /-- the window has run out with answers missing -/
  | expire (d' : Deployment) (hstate : d'.state = .partiallyAcknowledged) (hacks : d'.acks = d.acks)
      (hlate : nowMs - d.updatedAtMs > plan.ackWindowMs)
      (hphase : d.state = .preparing ∧ ¬ PrepareRefused plan d.acks ∨
        d.state = .applying ∧ ∀ a ∈ d.acks, a.phase = .apply → a.status ≠ .nack) :
      Advance plan d nowMs d'
  /-- the PREPARE quorum is met -/
  | prepared (d' : Deployment) (hstate : d'.state = .applying) (hacks : d'.acks = d.acks)
      (hfrom : d.state = .preparing) (hrefused : ¬ PrepareRefused plan d.acks)
      (hcovered : Covered plan .prepare d.acks) : Advance plan d nowMs d'
  /-- the APPLY quorum is met, or the probe has no result yet -/
  | probing (d' : Deployment) (hstate : d'.state = .probing) (hacks : d'.acks = d.acks)
      (hfrom : d.state = .applying) (hnack : ∀ a ∈ d.acks, a.phase = .apply → a.status ≠ .nack)
      (hcovered : Covered plan .apply d.acks) : Advance plan d nowMs d'
  /-- the probe verifies the deployment -/
  | verify (d' : Deployment) (hstate : d'.state = .activeVerified) (hacks : d'.acks = d.acks)
      (hfrom : d.state = .probing ∨
        d.state = .applying ∧ (∀ a ∈ d.acks, a.phase = .apply → a.status ≠ .nack) ∧
          Covered plan .apply d.acks) : Advance plan d nowMs d'

theorem state_probe (plan : DeploymentPlan) (d : Deployment) (seenAtMs nowMs : ℤ) (pinned : ℕ) :
    (probe plan d seenAtMs nowMs pinned).1.acks = d.acks ∧
      ((probe plan d seenAtMs nowMs pinned).1.state = .activeVerified ∨
        (probe plan d seenAtMs nowMs pinned).1.state = d.state ∧
          (probe plan d seenAtMs nowMs pinned).2 = []) := by
  simp only [probe]
  split
  · exact ⟨rfl, Or.inl rfl⟩
  · exact ⟨rfl, Or.inr ⟨rfl, rfl⟩⟩

theorem partialIfLate_cases (plan : DeploymentPlan) (d : Deployment) (nowMs : ℤ)
    (missing : List String) :
    (partialIfLate plan d nowMs missing = (d, [])) ∨
      nowMs - d.updatedAtMs > plan.ackWindowMs ∧
        (partialIfLate plan d nowMs missing).1.state = .partiallyAcknowledged ∧
        (partialIfLate plan d nowMs missing).1.acks = d.acks ∧
        (partialIfLate plan d nowMs missing).2 = [.setState .partiallyAcknowledged] := by
  unfold partialIfLate
  split
  · rename_i h
    exact Or.inr ⟨h, rfl, rfl, rfl⟩
  · exact Or.inl rfl

theorem not_prepareRefused {plan : DeploymentPlan} {acks : List WorkerAck}
    (hnack : answers acks .prepare .nack = [])
    (hhash : (answers acks .prepare .ack).filter (fun a => a.bundleHash ≠ plan.contentHash) = [])
    (hjar : ¬ 1 < ((answers acks .prepare .ack).map (·.jarSha256)).dedup.length) :
    ¬ PrepareRefused plan acks := by
  rintro (⟨a, ha, hp, hs⟩ | ⟨a, ha, hp, hs, hne⟩ | ⟨a, ha, b, hb, ⟨hap, has⟩, ⟨hbp, hbs⟩, hne⟩)
  · exact answers_eq_nil_iff.mp hnack a ha hp hs
  · have := List.filter_eq_nil_iff.mp hhash a (mem_answers.mpr ⟨ha, hp, hs⟩)
    exact this (decide_eq_true hne)
  · -- two different jars are two elements of the deduplicated list
    apply hjar
    have hsub : [a.jarSha256, b.jarSha256] ⊆
        ((answers acks .prepare .ack).map (·.jarSha256)).dedup := by
      intro x hx
      rw [List.mem_dedup]
      simp only [List.mem_cons, List.not_mem_nil, or_false] at hx
      rcases hx with rfl | rfl
      · exact List.mem_map_of_mem (mem_answers.mpr ⟨ha, hap, has⟩)
      · exact List.mem_map_of_mem (mem_answers.mpr ⟨hb, hbp, hbs⟩)
    have hnodup : [a.jarSha256, b.jarSha256].Nodup := by simp [hne]
    exact (List.subperm_of_subset hnodup hsub).length_le

theorem covered_of_missing_eq_nil {plan : DeploymentPlan} {acks answered : List WorkerAck}
    {phase : Phase} (h : missing plan answered = [])
    (hsub : ∀ a ∈ answered, a ∈ acks ∧ a.phase = phase ∧ a.status = .ack ∧
      a.bundleHash = plan.contentHash) : Covered plan phase acks := by
  intro job hjob
  obtain ⟨a, ha, hname⟩ := missing_eq_nil_iff.mp h job hjob
  obtain ⟨hmem, hphase, hstatus, hhash⟩ := hsub a ha
  exact ⟨a, hmem, ⟨hstatus, hhash, hname ▸ hjob⟩, hphase, hname⟩

theorem advancePreparing_spec (plan : DeploymentPlan) (d : Deployment) (nowMs : ℤ)
    (hstate : d.state = .preparing) :
    Advance plan d nowMs (advancePreparing plan d nowMs).1 ∧
      .setState .activeVerified ∉ (advancePreparing plan d nowMs).2 := by
  have happly : d.state = .applying → ∀ a ∈ d.acks, a.phase = .apply → a.status ≠ .nack := by
    rw [hstate]
    rintro ⟨⟩
  simp only [advancePreparing]
  split
  · exact ⟨.refuse _ rfl rfl, by simp [fail]⟩
  · rename_i hnack
    split
    · exact ⟨.refuse _ rfl rfl, by simp [fail]⟩
    · rename_i hhash
      split
      · exact ⟨.refuse _ rfl rfl, by simp [fail]⟩
      · rename_i hjar
        have hrefused := not_prepareRefused (not_not.mp hnack) (not_not.mp hhash) hjar
        split
        · rcases partialIfLate_cases plan d nowMs (missing plan (answers d.acks .prepare .ack)) with
            heq | ⟨hlate, hpartial, hacks, heff⟩
          · rw [heq]
            exact ⟨.stay d rfl rfl (fun _ => hrefused) happly, List.not_mem_nil⟩
          · refine ⟨.expire _ hpartial hacks hlate (Or.inl ⟨hstate, hrefused⟩), ?_⟩
            rw [heff]
            simp
        · rename_i hmissing
          refine ⟨.prepared _ rfl rfl hstate hrefused ?_, by simp⟩
          refine covered_of_missing_eq_nil (not_not.mp hmissing) fun a ha => ?_
          obtain ⟨hmem, hphase, hstatus⟩ := mem_answers.mp ha
          have hhash' := List.filter_eq_nil_iff.mp (not_not.mp hhash) a ha
          exact ⟨hmem, hphase, hstatus, by simpa using hhash'⟩

theorem advanceApplying_spec (plan : DeploymentPlan) (d : Deployment) (nowMs : ℤ) (pinned : ℕ)
    (hstate : d.state = .applying) :
    Advance plan d nowMs (advanceApplying plan d nowMs pinned).1 ∧
      (.setState .activeVerified ∈ (advanceApplying plan d nowMs pinned).2 →
        (advanceApplying plan d nowMs pinned).1.state = .activeVerified) := by
  simp only [advanceApplying]
  split
  · exact ⟨.refuse _ rfl rfl, by simp [fail]⟩
  · rename_i hnack
    have hnack' := answers_eq_nil_iff.mp (not_not.mp hnack)
    split
    · rcases partialIfLate_cases plan d nowMs (missing plan (applied plan d.acks)) with
        heq | ⟨hlate, hpartial, hacks, heff⟩
      · rw [heq]
        refine ⟨.stay d rfl rfl (fun h => ?_) (fun _ => hnack'), by simp⟩
        rw [hstate] at h
        cases h
      · refine ⟨.expire _ hpartial hacks hlate (Or.inr ⟨hstate, hnack'⟩), ?_⟩
        rw [heff]
        simp
    · rename_i hmissing
      have hcovered : Covered plan .apply d.acks := by
        refine covered_of_missing_eq_nil (not_not.mp hmissing) fun a ha => ?_
        obtain ⟨ha, hhash⟩ := List.mem_filter.mp ha
        obtain ⟨hmem, hphase, hstatus⟩ := mem_answers.mp ha
        exact ⟨hmem, hphase, hstatus, of_decide_eq_true hhash⟩
      obtain ⟨hacks, hprobe⟩ := state_probe plan
        { d with state := .probing, updatedAtMs := nowMs } d.updatedAtMs nowMs pinned
      rcases hprobe with hverified | ⟨hstay, heff⟩
      · exact ⟨.verify _ hverified hacks (Or.inr ⟨hstate, hnack', hcovered⟩), fun _ => hverified⟩
      · refine ⟨.probing _ hstay hacks hstate hnack' hcovered, ?_⟩
        rw [heff]
        simp

theorem advance_spec (plan : DeploymentPlan) (d : Deployment) (nowMs : ℤ) (pinned : ℕ) :
    Advance plan d nowMs (advance plan d nowMs pinned).1 ∧
      (.setState .activeVerified ∈ (advance plan d nowMs pinned).2 →
        (d.state = .applying ∨ d.state = .probing) ∧
          (advance plan d nowMs pinned).1.state = .activeVerified) := by
  unfold advance
  split
  · rename_i hstate
    obtain ⟨hadv, heff⟩ := advancePreparing_spec plan d nowMs hstate
    exact ⟨hadv, fun h => absurd h heff⟩
  · rename_i hstate
    obtain ⟨hadv, heff⟩ := advanceApplying_spec plan d nowMs pinned hstate
    exact ⟨hadv, fun h => ⟨Or.inl hstate, heff h⟩⟩
  · rename_i hstate
    obtain ⟨hacks, hverified | ⟨hstay, heff⟩⟩ := state_probe plan d d.updatedAtMs nowMs pinned
    · exact ⟨.verify _ hverified hacks (Or.inl hstate), fun _ => ⟨Or.inr hstate, hverified⟩⟩
    · refine ⟨.stay _ hstay hacks (fun h => ?_) (fun h => ?_), ?_⟩
      · rw [hstate] at h
        cases h
      · rw [hstate] at h
        cases h
      · rw [heff]
        exact fun h => absurd h List.not_mem_nil
  · rename_i hp ha _
    exact ⟨.stay d rfl rfl (fun h => absurd h hp) (fun h => absurd h ha),
      fun h => absurd h List.not_mem_nil⟩

theorem Advance.verify_from {plan : DeploymentPlan} {d d' : Deployment} {nowMs : ℤ}
    (h : Advance plan d nowMs d') (hfrom : d.state = .applying ∨ d.state = .probing)
    (hto : d'.state = .activeVerified) :
    d.state = .probing ∨ d.state = .applying ∧
      (∀ a ∈ d.acks, a.phase = .apply → a.status ≠ .nack) ∧ Covered plan .apply d.acks := by
  cases h with
  | stay hstate =>
    rw [hto] at hstate
    rcases hfrom with hs | hs <;> rw [hs] at hstate <;> cases hstate
  | verify _ _ h => exact h
  | refuse hstate => rw [hto] at hstate; cases hstate
  | expire hstate => rw [hto] at hstate; cases hstate
  | prepared hstate => rw [hto] at hstate; cases hstate
  | probing hstate => rw [hto] at hstate; cases hstate

/-! ## What every event keeps -/

structure Inv (plan : DeploymentPlan) (answered : List WorkerAck) (d : Deployment) : Prop where
  stored : ∀ r ∈ d.acks, r ∈ answered
  nack : d.state ≠ .activeVerified → ∀ b ∈ answered, b.status = .nack →
    d.state = .activationFailed ∨ Pending d b
  early : d.state = .scheduled ∨ d.state = .preparing →
    OneJar plan (answered) ∨ PrepareRefused plan d.acks
  late : d.state = .applying ∨ d.state = .probing →
    OneJar plan (answered) ∧ Covered plan .prepare (answered)
  applied : d.state = .probing → Covered plan .apply (answered)

theorem Covered.mono {plan : DeploymentPlan} {phase : Phase} {acks acks' : List WorkerAck}
    (h : Covered plan phase acks) (hsub : ∀ a ∈ acks, a ∈ acks') : Covered plan phase acks' := by
  intro job hjob
  obtain ⟨a, ha, hrest⟩ := h job hjob
  exact ⟨a, hsub a ha, hrest⟩

theorem Pending.apply_of_not_refused {plan : DeploymentPlan} {d : Deployment} {b : WorkerAck}
    (h : Pending d b) (hrefused : ¬ PrepareRefused plan d.acks) :
    b.phase = .apply ∧ ∃ r ∈ d.acks, r.key = b.key ∧ r.phase = .apply ∧ r.status = .nack := by
  obtain ⟨-, r, hr, hkey, hstatus⟩ := h
  have hphase : r.phase = b.phase := congrArg (·.2.2) hkey
  cases hb : b.phase with
  | prepare => exact absurd (Or.inl ⟨r, hr, hphase.trans hb, hstatus⟩) hrefused
  | apply => exact ⟨rfl, r, hr, hkey, hphase.trans hb, hstatus⟩

theorem Pending.not_applying {d : Deployment} {b : WorkerAck} (h : Pending d b)
    (hstate : d.state = .applying)
    (hnack : ∀ a ∈ d.acks, a.phase = .apply → a.status ≠ .nack) : False := by
  obtain ⟨hphase, r, hr, hkey, hstatus⟩ := h
  have hb : b.phase = .apply := by
    rcases hphase with h | h | h
    · rw [hstate] at h
      cases h
    · rw [hstate] at h
      cases h
    · exact h.2
  exact hnack r hr ((congrArg (·.2.2) hkey).trans hb) hstatus

theorem Inv.noNack {plan : DeploymentPlan} {answered : List WorkerAck} {d : Deployment}
    (h : Inv plan answered d)
    (hdone : d.state = .probing ∨
      d.state = .applying ∧ ∀ a ∈ d.acks, a.phase = .apply → a.status ≠ .nack) :
    ∀ b ∈ answered, b.status ≠ .nack := by
  intro b hb hstatus
  have hactive : d.state ≠ .activeVerified := by
    rcases hdone with hstate | ⟨hstate, -⟩ <;> rw [hstate] <;> decide
  rcases h.nack hactive b hb hstatus with hfailed | hpending
  · rcases hdone with hstate | ⟨hstate, -⟩ <;> rw [hstate] at hfailed <;> cases hfailed
  · rcases hdone with hstate | ⟨hstate, hnack⟩
    · obtain ⟨hphase, -⟩ := hpending
      rw [hstate] at hphase
      rcases hphase with h | h | h
      · cases h
      · cases h
      · cases h.1
    · exact hpending.not_applying hstate hnack

theorem Inv.agreement {plan : DeploymentPlan} {answered : List WorkerAck} {d : Deployment}
    (h : Inv plan answered d)
    (hfrom : d.state = .probing ∨
      d.state = .applying ∧ (∀ a ∈ d.acks, a.phase = .apply → a.status ≠ .nack) ∧
        Covered plan .apply d.acks) : Agreement plan (answered) := by
  have hlate := h.late (hfrom.symm.imp_left And.left)
  refine ⟨hlate.2, ?_, hlate.1, h.noNack (hfrom.imp_right fun hf => ⟨hf.1, hf.2.1⟩)⟩
  rcases hfrom with hstate | ⟨-, -, hcovered⟩
  · exact h.applied hstate
  · exact hcovered.mono h.stored

theorem Inv.advance {plan : DeploymentPlan} {answered : List WorkerAck} {d d' : Deployment} {nowMs : ℤ}
    (h : Inv plan answered d)
    (hwindow : d.state = .preparing → (∃ r ∈ d.acks, r.phase = .apply ∧ r.status = .nack) →
      nowMs - d.updatedAtMs ≤ plan.ackWindowMs)
    (hadv : Advance plan d nowMs d') : Inv plan answered d' := by
  cases hadv with
  | stay hstate hacks =>
    refine ⟨?_, ?_, ?_, ?_, ?_⟩
    · rw [hacks]
      exact h.stored
    · unfold Pending
      rw [hstate, hacks]
      exact h.nack
    · rw [hstate, hacks]
      exact h.early
    · rw [hstate]
      exact h.late
    · rw [hstate]
      exact h.applied
  | refuse hstate hacks =>
    refine ⟨?_, fun _ _ _ _ => Or.inl hstate, ?_, ?_, ?_⟩
    · rw [hacks]
      exact h.stored
    · rw [hstate]
      rintro (⟨⟨⟩⟩ | ⟨⟨⟩⟩)
    · rw [hstate]
      rintro (⟨⟨⟩⟩ | ⟨⟨⟩⟩)
    · rw [hstate]
      rintro ⟨⟨⟩⟩
  | expire hstate hacks hlate hphase =>
    refine ⟨?_, ?_, ?_, ?_, ?_⟩
    · rw [hacks]
      exact h.stored
    · intro _ b hb hstatus
      exfalso
      rcases hphase with ⟨hfrom, hrefused⟩ | hfrom
      · rcases h.nack (by rw [hfrom]; decide) b hb hstatus with hfailed | hpending
        · rw [hfrom] at hfailed
          cases hfailed
        · obtain ⟨-, r, hr, -, hrphase, hrstatus⟩ := hpending.apply_of_not_refused hrefused
          have := hwindow hfrom ⟨r, hr, hrphase, hrstatus⟩
          omega
      · exact h.noNack (Or.inr hfrom) b hb hstatus
    · rw [hstate]
      rintro (⟨⟨⟩⟩ | ⟨⟨⟩⟩)
    · rw [hstate]
      rintro (⟨⟨⟩⟩ | ⟨⟨⟩⟩)
    · rw [hstate]
      rintro ⟨⟨⟩⟩
  | prepared hstate hacks hfrom hrefused hcovered =>
    refine ⟨?_, ?_, ?_, ?_, ?_⟩
    · rw [hacks]
      exact h.stored
    · intro _ b hb hstatus
      refine Or.inr ?_
      rcases h.nack (by rw [hfrom]; decide) b hb hstatus with hfailed | hpending
      · rw [hfrom] at hfailed
        cases hfailed
      · obtain ⟨hbphase, r, hr, hkey, -, hrstatus⟩ := hpending.apply_of_not_refused hrefused
        exact ⟨Or.inr (Or.inr ⟨hstate, hbphase⟩), r, hacks ▸ hr, hkey, hrstatus⟩
    · rw [hstate]
      rintro (⟨⟨⟩⟩ | ⟨⟨⟩⟩)
    · intro _
      exact ⟨(h.early (Or.inr hfrom)).resolve_right hrefused, hcovered.mono h.stored⟩
    · rw [hstate]
      rintro ⟨⟨⟩⟩
  | probing hstate hacks hfrom hnack hcovered =>
    refine ⟨?_, ?_, ?_, ?_, ?_⟩
    · rw [hacks]
      exact h.stored
    · intro _ b hb hstatus
      exact absurd hstatus (h.noNack (Or.inr ⟨hfrom, hnack⟩) b hb)
    · rw [hstate]
      rintro (⟨⟨⟩⟩ | ⟨⟨⟩⟩)
    · exact fun _ => h.late (Or.inl hfrom)
    · exact fun _ => hcovered.mono h.stored
  | verify hstate hacks =>
    refine ⟨?_, fun hne => absurd hstate hne, ?_, ?_, ?_⟩
    · rw [hacks]
      exact h.stored
    · rw [hstate]
      rintro (⟨⟨⟩⟩ | ⟨⟨⟩⟩)
    · rw [hstate]
      rintro (⟨⟨⟩⟩ | ⟨⟨⟩⟩)
    · rw [hstate]
      rintro ⟨⟨⟩⟩

theorem received_concat (pre : List Event) (e : Event) :
    received (pre ++ [e]) = received pre ++ e.ack?.toList := by
  simp only [received, List.filterMap_append, List.filterMap_cons, List.filterMap_nil]
  cases e.ack? <;> rfl

theorem mem_record {acks : List WorkerAck} {a r : WorkerAck} :
    r ∈ record acks a ↔ r ∈ acks ∧ r.key ≠ a.key ∨ r = a := by
  simp [record]

theorem Pending.record {d : Deployment} {a b : WorkerAck} (h : Pending d b)
    (hkept : a.status = .ack → ∀ r ∈ d.acks, r.key = a.key → r.status = .ack) :
    Pending { d with acks := record d.acks a } b := by
  obtain ⟨hphase, r, hr, hkey, hstatus⟩ := h
  refine ⟨hphase, ?_⟩
  by_cases hsame : r.key = a.key
  · refine ⟨a, mem_record.mpr (Or.inr rfl), hsame ▸ hkey, ?_⟩
    cases ha : a.status with
    | nack => rfl
    | ack =>
      have := hkept ha r hr hsame
      rw [hstatus] at this
      cases this
  · exact ⟨r, mem_record.mpr (Or.inl ⟨hr, hsame⟩), hkey, hstatus⟩

theorem Inv.record {plan : DeploymentPlan} {pre : List Event} {a : WorkerAck} {nowMs : ℤ}
    {pinned : ℕ} (h : Inv plan (received pre) (after plan pre))
    (hok : StepOk plan pre (.answer a nowMs pinned)) :
    Inv plan (received (pre ++ [.answer a nowMs pinned]))
      { after plan pre with acks := Deployment.record (after plan pre).acks a } := by
  have hreceived : received (pre ++ [.answer a nowMs pinned]) = received pre ++ [a] :=
    received_concat pre (.answer a nowMs pinned)
  have hsub : ∀ b ∈ received pre, b ∈ received (pre ++ [.answer a nowMs pinned]) :=
    fun b hb => hreceived ▸ List.mem_append_left _ hb
  refine ⟨?_, ?_, ?_, ?_, ?_⟩
  · intro r hr
    rcases mem_record.mp hr with ⟨hr, -⟩ | rfl
    · exact hsub r (h.stored r hr)
    · rw [hreceived]
      simp
  · intro hactive b hb hstatus
    rw [hreceived, List.mem_append, List.mem_singleton] at hb
    rcases hb with hb | rfl
    · rcases h.nack hactive b hb hstatus with hfailed | hpending
      · exact Or.inl hfailed
      · refine Or.inr (hpending.record fun hack => hok.nackKept a rfl hack ?_)
        obtain ⟨hs | hs | ⟨hs, -⟩, -⟩ := hpending <;> rw [hs] <;> decide
    · have hrow : ∃ r ∈ Deployment.record (after plan pre).acks b, r.key = b.key ∧
          r.status = .nack := ⟨b, mem_record.mpr (Or.inr rfl), rfl, hstatus⟩
      rcases hok.nackInPhase b rfl hstatus with hmem | hphase
      · simp only [List.mem_cons, List.not_mem_nil, or_false] at hmem
        rcases hmem with hs | hs | hs | hs
        · exact Or.inr ⟨Or.inl hs, hrow⟩
        · exact Or.inr ⟨Or.inr (Or.inl hs), hrow⟩
        · exact Or.inl hs
        · exact absurd hs hactive
      · exact Or.inr ⟨Or.inr (Or.inr hphase), hrow⟩
  · intro hstate
    refine (hok.oneJar a rfl ?_).imp_right And.right
    rcases hstate with hs | hs <;> rw [show (after plan pre).state = _ from hs] <;> decide
  · intro hstate
    refine ⟨(hok.oneJar a rfl ?_).resolve_right ?_, (h.late hstate).2.mono hsub⟩
    · rcases hstate with hs | hs <;> rw [show (after plan pre).state = _ from hs] <;> decide
    · rintro ⟨hmem, -⟩
      rcases hstate with hs | hs <;> rw [show (after plan pre).state = _ from hs] at hmem <;>
        revert hmem <;> decide
  · exact fun hstate => (h.applied hstate).mono hsub

theorem after_concat (plan : DeploymentPlan) (pre : List Event) (e : Event) :
    after plan (pre ++ [e]) = (step plan (after plan pre) e).1 :=
  Machine.stateAfter_concat _ _ _ _

theorem Inv.step {plan : DeploymentPlan} {pre : List Event} {e : Event}
    (h : Inv plan (received pre) (after plan pre)) (hok : StepOk plan pre e) :
    Inv plan (received (pre ++ [e])) (after plan (pre ++ [e])) ∧
      (.setState .activeVerified ∈ (step plan (after plan pre) e).2 →
        Agreement plan (received (pre ++ [e]))) := by
  rw [after_concat]
  cases e with
  | prepareSent nowMs =>
    have hreceived : received (pre ++ [.prepareSent nowMs]) = received pre := by
      rw [received_concat]
      simp [Event.ack?]
    rw [hreceived]
    simp only [Deployment.step]
    split
    · rename_i hstate
      refine ⟨⟨h.stored, ?_, fun _ => h.early (Or.inl hstate), ?_, ?_⟩, by simp⟩
      · intro _ b hb hstatus
        rcases h.nack (by rw [hstate]; decide) b hb hstatus with hfailed | hpending
        · rw [hstate] at hfailed
          cases hfailed
        · exact Or.inr ⟨Or.inr (Or.inl rfl), hpending.2⟩
      · rintro (⟨⟨⟩⟩ | ⟨⟨⟩⟩)
      · rintro ⟨⟨⟩⟩
    · exact ⟨h, by simp⟩
  | answer a nowMs pinned =>
    have hmid := h.record hok
    obtain ⟨hadv, heff⟩ := advance_spec plan
      { after plan pre with acks := Deployment.record (after plan pre).acks a } nowMs pinned
    refine ⟨hmid.advance hok.inWindow hadv, fun hverify => ?_⟩
    obtain ⟨hfrom, hto⟩ := heff hverify
    exact hmid.agreement (hadv.verify_from hfrom hto)
  | sweep nowMs pinned =>
    have hreceived : received (pre ++ [.sweep nowMs pinned]) = received pre := by
      rw [received_concat]
      simp [Event.ack?]
    rw [hreceived]
    obtain ⟨hadv, heff⟩ := advance_spec plan (after plan pre) nowMs pinned
    refine ⟨h.advance hok.inWindow hadv, fun hverify => ?_⟩
    obtain ⟨hfrom, hto⟩ := heff hverify
    exact h.agreement (hadv.verify_from hfrom hto)

theorem inv_after {plan : DeploymentPlan} {run : List Event} (h : RunOk plan run) :
    Inv plan (received run) (after plan run) := by
  induction run using List.reverseRecOn with
  | nil =>
    refine ⟨?_, ?_, ?_, ?_, ?_⟩
    · exact fun r hr => absurd hr List.not_mem_nil
    · exact fun _ b hb => absurd hb List.not_mem_nil
    · exact fun _ => Or.inl fun a ha => absurd ha List.not_mem_nil
    · rintro (⟨⟨⟩⟩ | ⟨⟨⟩⟩)
    · rintro ⟨⟨⟩⟩
  | append_singleton pre e ih =>
    refine (Inv.step (ih fun pre' e' post' heq => ?_) (h pre e [] rfl)).1
    exact h pre' e' (post' ++ [e]) (by rw [heq]; simp)

/-- **A deployment is verified only on full agreement**, in every run whose events meet the
condition. -/
theorem fullAgreement_of_runOk (plan : DeploymentPlan) (run : List Event)
    (h : RunOk plan run) : FullAgreement plan run := by
  intro pre e post heq
  have hpre : RunOk plan pre := fun pre' e' post' heq' =>
    h pre' e' (post' ++ e :: post) (by rw [heq, heq']; simp)
  obtain ⟨hinv, hagree⟩ := (inv_after hpre).step (h pre e post heq)
  exact ⟨hagree, hinv.nack⟩

/-! A fleet of one job with two subtasks. -/

private def fleetPlan : DeploymentPlan :=
  ⟨"b7", [⟨"cplm-gates", some 1⟩, ⟨"instrument-context", some 0⟩], none, 0, 300000, 300000⟩

private def fleetAck (subtask : ℤ) (phase : Phase) (status : AckStatus) : WorkerAck :=
  ⟨"cplm-gates", subtask, phase, status, "b7", "jar-1", none⟩

private def fleetRun : List Event :=
  [.prepareSent 10, .answer (fleetAck 0 .prepare .ack) 20 0, .answer (fleetAck 0 .apply .ack) 30 0,
    .sweep 40 1]

/-- The fleet's deployment keeps the promise on its way to `ACTIVE_VERIFIED`. -/
theorem fullAgreement_fleetRun : FullAgreement fleetPlan fleetRun :=
  fullAgreement_of_runOk fleetPlan fleetRun (by decide)

private def lateNackRun : List Event :=
  [.prepareSent 10, .answer (fleetAck 0 .prepare .ack) 20 0, .answer (fleetAck 1 .prepare .nack) 30 0,
    .answer (fleetAck 0 .apply .ack) 40 1]

/-- A NACK that arrives after the quorum of its phase does not stop the verification. -/
theorem late_nack_is_verified : ¬ FullAgreement fleetPlan lateNackRun := by
  intro h
  have hpromise := h (lateNackRun.take 3) (.answer (fleetAck 0 .apply .ack) 40 1) [] rfl
  have hagree := hpromise.verified (by decide)
  exact hagree.noNack (fleetAck 1 .prepare .nack) (by decide) rfl

end Deployment

end OpenBridge.ControlPlane
