import OpenBridge.Response.CaptureTransitions

/-!
# Response: the job of one loop

`CplmResponseAnalysisJob.ResponseProcessFunction` with what `ResponseEvaluator.evaluate` does for
estimation and validation.  The estimators are a parameter: what they return within their budget may
differ from call to call.
-/

namespace OpenBridge.Response

inductive ModelFamily
  | fopdt
  | sopdt
  | soUnderdamped
  | ipdt
  | integratorLag
  | unsupportedInverse
  | unsupportedUnstable
  | unsupportedMimo
  deriving DecidableEq

def ModelFamily.supported : ModelFamily → Bool
  | .fopdt | .sopdt | .soUnderdamped | .ipdt | .integratorLag => true
  | .unsupportedInverse | .unsupportedUnstable | .unsupportedMimo => false

def ModelFamily.integrating : ModelFamily → Bool
  | .ipdt | .integratorLag => true
  | _ => false

/-- The classes that implement `ModelEstimator`. -/
inductive ModelEstimator
  | closedLoopPem
  | integrating
  | outputError
  deriving DecidableEq

namespace EstimatorRegistry

def legality (path : Path) (type : EventType) (family : ModelFamily) : String :=
  if !family.supported then "UNSUPPORTED_MODEL_FAMILY"
  else if path = .slaveSpToPv then "CASCADE_MASTER_OP_IS_NOT_AN_APPLIED_INPUT"
  else if type = .routineIdentification ∨ type = .servoStep ∨ type = .cascadeSpStep then
    if family.integrating then "PEM_NOT_INSTALLED_FOR_INTEGRATING" else "PEM_REQUIRED_FOR_CLOSED_LOOP"
  else "OK"

def forPath (path : Path) (type : EventType) (family : ModelFamily) : Option ModelEstimator :=
  let l := legality path type family
  if l = "PEM_REQUIRED_FOR_CLOSED_LOOP" then some .closedLoopPem
  else if l ≠ "OK" then none
  else some (if family.integrating then .integrating else .outputError)

end EstimatorRegistry

variable {M : Type}

abbrev Estimate (M : Type) := ModelEstimator → Closed → ModelFamily → Option M

/-- A call of `ModelValidator.validate`. -/
structure Validation (M : Type) where
  best : M
  holdout : EventDataset
  u0 : ℚ

inductive SubgateE
  | evaluated
  | waiting
  | notEvaluated
  deriving DecidableEq

/-- `Outcome`, with the validation of subgate E. -/
structure Outcome (M : Type) where
  subgateE : SubgateE
  validation : Option (Validation M)
  holdoutCandidate : Option EventDataset
  holdoutU0 : ℚ

namespace ResponseEvaluator

def censored (c : Closed) : Bool :=
  c.event.captureState = .censored || c.event.captureState = .rejected

def best (estimate : Estimate M) (c : Closed) (family : ModelFamily) : Option M :=
  if censored c then none
  else (EstimatorRegistry.forPath c.event.pathId c.event.type family).bind fun estimator =>
    estimate estimator c family

def evaluate (estimate : Estimate M) (c : Closed) (family : ModelFamily)
    (priorHoldout : Option EventDataset) (priorU0 : ℚ) : Outcome M :=
  let est := best estimate c family
  { subgateE :=
      if est.isSome then if priorHoldout.isSome then .evaluated else .waiting else .notEvaluated
    validation := est.bind fun model => priorHoldout.map fun holdout => ⟨model, holdout, priorU0⟩
    holdoutCandidate := if !censored c && c.uAppliedAvailable then some c.data else none
    holdoutU0 := c.u0 }

end ResponseEvaluator

/-- One call of `processElement`: the sample, the bundle of its profile as its hash and what it sets, the
type of the loop, and what the estimators return. -/
structure JobInput (M : Type) where
  sample : ResponseSample
  bundle : Option (String × (ResponseJobConfig → ResponseJobConfig)) := none
  loopType : Option String := none
  estimate : Estimate M

structure JobState where
  capture : Option ResponseCapture := none
  holdout : Option EventDataset := none
  holdoutU0 : Option ℚ := none

structure Evaluated (M : Type) where
  closed : Closed
  outcome : Outcome M

namespace ResponseJob

/-- `underBundle`: the mapper applies what the bundle sets to a copy of the job's settings. -/
def underBundle (cfg : ResponseJobConfig) (hash : String)
    (apply : ResponseJobConfig → ResponseJobConfig) : ResponseJobConfig :=
  { apply cfg with governingBundleHash := some hash }

def captureFor (cfg : ResponseJobConfig)
    (bundle : Option (String × (ResponseJobConfig → ResponseJobConfig)))
    (current : Option ResponseCapture) : ResponseCapture :=
  let fresh := ResponseCapture.create
    (match bundle with
    | none => cfg
    | some (hash, apply) => underBundle cfg hash apply)
  match current with
  | none => fresh
  | some c =>
    if bundle.map Prod.fst = c.cfg.governingBundleHash || !c.idle then c else fresh

/-- Whether upper-casing makes the first characters `LIC`; the dotless letter becomes an `I`. -/
def startsLic (loopType : String) : Bool :=
  match loopType.toList with
  | l :: i :: c :: _ => [ 'l', 'L'].contains l && [ 'i', 'I', 'ı'].contains i && [ 'c', 'C'].contains c
  | _ => false

def familyFor (loopType : Option String) : ModelFamily :=
  if (loopType.map startsLic).getD false then .ipdt else .fopdt

def evaluateAll (estimate : Estimate M) (family : ModelFamily) (holdout : Option EventDataset)
    (holdoutU0 : Option ℚ) :
    List Closed → (Option EventDataset × Option ℚ) × List (Evaluated M)
  | [] => ((holdout, holdoutU0), [])
  | closed :: rest =>
    let o := ResponseEvaluator.evaluate estimate closed family holdout (holdoutU0.getD 0)
    let later :=
      match o.holdoutCandidate with
      | none => evaluateAll estimate family holdout holdoutU0 rest
      | some d => evaluateAll estimate family (some d) (some o.holdoutU0) rest
    (later.1, ⟨closed, o⟩ :: later.2)

/-- `processElement`.  A closed capture's times strictly increase, so the capture does not throw. -/
def processElement (cfg : ResponseJobConfig) (s : JobState) (i : JobInput M) :
    JobState × List (Evaluated M) :=
  let c := captureFor cfg i.bundle s.capture
  let vpUsable := i.sample.vpEligible c.cfg.vpMaxAgeS
  let next := c.onSample i.sample vpUsable
  let evaluated := evaluateAll i.estimate (familyFor i.loopType) s.holdout s.holdoutU0 next.2
  ({ capture := some next.1, holdout := evaluated.1.1, holdoutU0 := evaluated.1.2 }, evaluated.2)

end ResponseJob

/-!
# Response: the held event and the fitted one

A model is validated on the dataset of the last complete event.  The dataset that it was fitted on
reaches back by the pre-support into a ring that may still hold samples of that event.
-/

open OpenBridge.Foundation ResponseCapture

variable {M : Type}

/-- What is promised of a result: the validation reads only samples before those of the fit. -/
def Evaluated.Independent (o : Evaluated M) : Prop :=
  ∀ v ∈ o.outcome.validation, ∀ h ∈ v.holdout.points, ∀ p ∈ o.closed.data.points, h.t < p.t

instance (o : Evaluated M) : Decidable o.Independent :=
  inferInstanceAs (Decidable (∀ v ∈ o.outcome.validation, ∀ h ∈ v.holdout.points,
    ∀ p ∈ o.closed.data.points, h.t < p.t))

/-- The pre-support of an event begins after the held event ended, or the ring holds nothing of the time
before, because it has been restarted. -/
def Apart (c : ResponseCapture) (held : EventDataset) (e : ResponseEvent) : Prop :=
  held.tEnd < e.t0 - c.cfg.preSupportS ∨ ∀ row ∈ c.ring, held.tEnd < row.tS

instance (c : ResponseCapture) (held : EventDataset) (e : ResponseEvent) :
    Decidable (Apart c held e) := inferInstanceAs (Decidable (_ ∨ _))

/-- Where the open event is settled and a model is estimated on it, it is apart from the held one. -/
def SettledApart (c : ResponseCapture) (nowS : ℚ) (estimated : Closed → Bool)
    (holdout : Option EventDataset) : Prop :=
  c.settled nowS = true → ∀ e ∈ c.machine.open_,
    estimated (c.bundle (e.ended .complete .none nowS) nowS) = true →
      ∀ held ∈ holdout, Apart c held e

instance (c : ResponseCapture) (nowS : ℚ) (estimated : Closed → Bool)
    (holdout : Option EventDataset) : Decidable (SettledApart c nowS estimated holdout) :=
  inferInstanceAs (Decidable (c.settled nowS = true → ∀ e ∈ c.machine.open_,
    estimated (c.bundle (e.ended .complete .none nowS) nowS) = true →
      ∀ held ∈ holdout, Apart c held e))

namespace ResponseJob

variable {cfg : ResponseJobConfig} {s : JobState} {i : JobInput M}

/-- The condition on one call: an event that its sample completes is apart from the held one, where a
model is estimated on it. -/
def CompletesApart (cfg : ResponseJobConfig) (s : JobState) (i : JobInput M) : Prop :=
  let c := captureFor cfg i.bundle s.capture
  let vpUsable := i.sample.vpEligible c.cfg.vpMaxAgeS
  c.taken i.sample vpUsable = true →
    SettledApart (c.guarded i.sample vpUsable) (row i.sample vpUsable).tS
      (fun closed => (ResponseEvaluator.best i.estimate closed (familyFor i.loopType)).isSome)
      s.holdout

instance (cfg : ResponseJobConfig) (s : JobState) (i : JobInput M) :
    Decidable (CompletesApart cfg s i) :=
  inferInstanceAs (Decidable (_ → SettledApart _ _ _ _))

/-! ## The evaluations of one sample -/

section EvaluateAll

variable {estimate : Estimate M} {family : ModelFamily} {holdout : Option EventDataset}
  {holdoutU0 : Option ℚ} {closed : List Closed}

theorem censored_of_event {c : Closed} (h : c.event.captureState = .censored) :
    ResponseEvaluator.censored c = true := by
  unfold ResponseEvaluator.censored
  rw [h]
  rfl

theorem holdoutCandidate_eq_some {c : Closed} {priorU0 : ℚ} {d : EventDataset}
    (h : (ResponseEvaluator.evaluate estimate c family holdout priorU0).holdoutCandidate = some d) :
    c.event.captureState ≠ .censored ∧ c.data = d := by
  unfold ResponseEvaluator.evaluate at h
  dsimp only at h
  split at h
  · rename_i husable
    rw [Bool.and_eq_true, Bool.not_eq_true'] at husable
    exact ⟨fun hcensored => Bool.false_ne_true (husable.1.symm.trans (censored_of_event hcensored)),
      Option.some_inj.mp h⟩
  · cases h

theorem outcome_of_mem_evaluateAll (hclosed : closed.Pairwise fun a _ => a.event.captureState = .censored)
    {o : Evaluated M} (ho : o ∈ (evaluateAll estimate family holdout holdoutU0 closed).2) :
    o.closed ∈ closed ∧ o.outcome =
      ResponseEvaluator.evaluate estimate o.closed family holdout (holdoutU0.getD 0) := by
  induction closed generalizing holdout holdoutU0 with
  | nil => cases ho
  | cons c rest ih =>
    obtain ⟨hcut, hrest⟩ := List.pairwise_cons.mp hclosed
    rw [evaluateAll] at ho
    rcases List.mem_cons.mp ho with rfl | ho
    · exact ⟨List.mem_cons_self, rfl⟩
    · split at ho
      · obtain ⟨hmem, hout⟩ := ih hrest ho
        exact ⟨List.mem_cons_of_mem c hmem, hout⟩
      · rename_i d hcandidate
        cases rest with
        | nil => cases ho
        | cons next rest =>
          exact absurd (hcut next List.mem_cons_self) (holdoutCandidate_eq_some hcandidate).1

theorem holdout_evaluateAll {d : EventDataset}
    (hd : d ∈ (evaluateAll estimate family holdout holdoutU0 closed).1.1) :
    d ∈ holdout ∨ ∃ c ∈ closed, c.event.captureState ≠ .censored ∧ c.data = d := by
  induction closed generalizing holdout holdoutU0 with
  | nil => exact .inl hd
  | cons c rest ih =>
    rw [evaluateAll] at hd
    split at hd
    · rcases ih hd with hheld | ⟨c', hmem, hnot⟩
      · exact .inl hheld
      · exact .inr ⟨c', List.mem_cons_of_mem c hmem, hnot⟩
    · rename_i d' hcandidate
      rcases ih hd with hheld | ⟨c', hmem, hnot⟩
      · obtain rfl := Option.some_inj.mp hheld
        obtain ⟨hnot, hdata⟩ := holdoutCandidate_eq_some hcandidate
        exact .inr ⟨c, List.mem_cons_self, hnot, hdata⟩
      · exact .inr ⟨c', List.mem_cons_of_mem c hmem, hnot⟩

theorem validation_eq_some {c : Closed} {priorU0 : ℚ} {v : Validation M}
    (h : (ResponseEvaluator.evaluate estimate c family holdout priorU0).validation = some v) :
    (ResponseEvaluator.best estimate c family).isSome = true ∧ holdout = some v.holdout := by
  obtain ⟨model, hbest, hheld⟩ := Option.bind_eq_some_iff.mp h
  obtain ⟨held, hholdout, rfl⟩ := Option.map_eq_some_iff.mp hheld
  exact ⟨by rw [hbest]; rfl, hholdout⟩

theorem not_censored_of_best {c : Closed}
    (h : (ResponseEvaluator.best estimate c family).isSome = true) :
    c.event.captureState ≠ .censored := by
  intro hcensored
  unfold ResponseEvaluator.best at h
  rw [if_pos (censored_of_event hcensored)] at h
  cases h

end EvaluateAll

/-! ## Every run -/

structure JobSound (s : JobState) : Prop where
  live : ∀ c ∈ s.capture, Live c.cfg c.machine
  upto : ∀ held ∈ s.holdout, ∀ p ∈ held.points, p.t ≤ held.tEnd

theorem live_captureFor (h : JobSound s)
    (bundle : Option (String × (ResponseJobConfig → ResponseJobConfig))) :
    Live (captureFor cfg bundle s.capture).cfg (captureFor cfg bundle s.capture).machine := by
  unfold captureFor
  dsimp only
  split
  · exact live_create _
  · rename_i c hcapture
    split
    · exact h.live c hcapture
    · exact live_create _

theorem jobSound_processElement (h : JobSound s) (i : JobInput M) :
    JobSound (processElement cfg s i).1 := by
  have hlive := @live_captureFor cfg s h i.bundle
  unfold processElement
  dsimp only
  generalize captureFor cfg i.bundle s.capture = c at hlive ⊢
  generalize i.sample.vpEligible c.cfg.vpMaxAgeS = vpUsable
  refine ⟨fun next hnext => ?_, fun held hheld => ?_⟩
  · obtain rfl := Option.some_inj.mp hnext
    rw [onSample_cfg]
    exact live_step hlive (.sample i.sample vpUsable)
  · rcases holdout_evaluateAll hheld with hheld | ⟨closed, hmem, hnot, rfl⟩
    · exact h.upto held hheld
    · obtain ⟨-, -, e, -, -, hclosed⟩ := exists_settled_of_mem_onSample hlive hmem hnot
      rw [hclosed]
      intro p hp
      obtain ⟨r, -, -, -, hupto⟩ := mem_bundle_points hp
      exact hupto

theorem independent_of_completesApart (h : JobSound s) (happart : CompletesApart cfg s i)
    {o : Evaluated M} (ho : o ∈ (processElement cfg s i).2) : o.Independent := by
  have hlive := @live_captureFor cfg s h i.bundle
  unfold processElement at ho
  unfold CompletesApart at happart
  dsimp only at ho happart
  generalize captureFor cfg i.bundle s.capture = c at hlive ho happart
  generalize i.sample.vpEligible c.cfg.vpMaxAgeS = vpUsable at ho happart
  obtain ⟨hmem, hout⟩ := outcome_of_mem_evaluateAll (pairwise_onSample c i.sample vpUsable) ho
  intro v hv early hearly p hp
  rw [hout] at hv
  obtain ⟨hbest, hheld⟩ := validation_eq_some hv
  obtain ⟨htaken, -, e, hopen, hsettled, hclosed⟩ :=
    exists_settled_of_mem_onSample hlive hmem (not_censored_of_best hbest)
  rw [hclosed] at hbest hp
  obtain ⟨r, hr, rfl, hfrom, -⟩ := mem_bundle_points hp
  have hbefore := h.upto v.holdout hheld early hearly
  rcases happart htaken hsettled e hopen hbest v.holdout hheld with hspaced | hrestarted
  · exact hbefore.trans_lt (hspaced.trans_le hfrom)
  · exact hbefore.trans_lt (hrestarted r hr)

/-- **In a run whose calls all meet the condition, every model is validated on samples before those that
it was fitted on.** -/
theorem independent_of_apart (cfg : ResponseJobConfig) (inputs : List (JobInput M))
    (h : Machine.Always (processElement cfg) (CompletesApart cfg) {} inputs) :
    ∀ o ∈ Machine.outputs (processElement cfg) {} inputs, o.Independent := by
  have hkeep : ∀ (s : JobState) (i : JobInput M), JobSound s → CompletesApart cfg s i →
      JobSound (processElement cfg s i).1 := fun s i hs _ => jobSound_processElement hs i
  have hout : ∀ (s : JobState) (i : JobInput M), JobSound s → CompletesApart cfg s i →
      ∀ o ∈ (processElement cfg s i).2, o.Independent :=
    fun s i hs happart o ho => independent_of_completesApart hs happart ho
  have hstart : JobSound {} := ⟨by simp, by simp⟩
  exact Machine.outputs_of_always (processElement cfg) JobSound hkeep hout hstart h

def onEightSamples : Estimate Unit := fun _ c _ =>
  if 8 ≤ (c.data.points.filter DataPoint.valid).length then some () else none

def inputTests : ℤ → List ℚ → List (JobInput Unit)
  | _, [] => []
  | atS, op :: rest =>
      { sample := { eventTsMs := atS * 1000, pv := op, sp := 50, op := op }
        estimate := onEightSamples } :: inputTests (atS + 30) rest

def twoInputTests : List (JobInput Unit) :=
  inputTests 0 ([40, 40] ++ List.replicate 12 45 ++ List.replicate 9 50)

theorem independent_of_apart_sample :
    (Machine.outputs (processElement {}) {} twoInputTests).map (fun o => o.outcome.subgateE) =
        [.waiting, .evaluated] ∧
      ∀ o ∈ Machine.outputs (processElement {}) {} twoInputTests, o.Independent :=
  ⟨by decide +kernel, independent_of_apart {} twoInputTests (by decide +kernel)⟩

/-- An input test half a minute after the end of the last one reaches back into it. -/
theorem validated_on_shared_samples :
    ¬ ∀ (cfg : ResponseJobConfig) (inputs : List (JobInput Unit)),
      ∀ o ∈ Machine.outputs (processElement cfg) {} inputs, o.Independent := by
  intro h
  exact absurd (h {} (inputTests 0 ([40, 40] ++ List.replicate 7 45 ++ List.replicate 9 50)))
    (by decide +kernel)

end ResponseJob

end OpenBridge.Response
