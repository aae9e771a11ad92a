import OpenBridge.ControlPlane.LostEdits
import OpenBridge.ControlPlane.ShadowComparison

/-!
# Control plane: when a comparison is read-only on the life cycle

A comparison that finds the state it read at its start leaves the revision as it was, but for the
entity tag and the shadow record.
-/

namespace OpenBridge.ControlPlane

open OpenBridge.Foundation

namespace ConfigStore

variable (rules : ConfigRules)

/-- Two requests are the same, but for the tag that a patch presents. -/
inductive SameRequest : Request → Request → Prop
  | refl (r : Request) : SameRequest r r
  | patch (ifMatch ifMatch' : String) (ops : List PatchOp) (actor : String) :
      SameRequest (.patch ifMatch ops actor) (.patch ifMatch' ops actor)

/-- Two steps are the same, but for the tag that a patch presents. -/
inductive SameStep : Event → Event → Prop
  | refl (e : Event) : SameStep e e
  | patch (ifMatch ifMatch' : String) (ops : List PatchOp) (actor : String) :
      SameStep (.read (.patch ifMatch ops actor)) (.read (.patch ifMatch' ops actor))

def SameRow (row row' : BundleRow) : Prop := row' = { row with etag := row'.etag }

/-- Two calls are the same, but for tags; a patch is prepared alike. -/
structure SameCall (c d : Call) : Prop where
  row : SameRow c.row d.row
  progress : d.progress = c.progress
  request : SameRequest c.request d.request
  prepared : ∀ m m' ops ops' actor actor', c.request = .patch m ops actor →
    d.request = .patch m' ops' actor' → prepare rules d.row m' ops' = prepare rules c.row m ops

/-- Two stores are the same, but for tags; that of the second is as it is drawn. -/
structure Retagged (s t : Store) : Prop where
  row : SameRow s.row t.row
  tag : presented t.row.etag = t.row.etag
  approvals : t.approvals = s.approvals
  calls : List.Forall₂ (SameCall rules) s.calls t.calls

section Lists

variable {α β : Type} {R : α → β → Prop} {xs : List α} {ys : List β}

theorem getElem?_of_forall₂ (h : List.Forall₂ R xs ys) (k : ℕ) :
    (xs[k]? = none ∧ ys[k]? = none) ∨ ∃ x y, xs[k]? = some x ∧ ys[k]? = some y ∧ R x y := by
  induction h generalizing k with
  | nil => exact .inl ⟨List.getElem?_nil, List.getElem?_nil⟩
  | cons hxy _ ih =>
    cases k with
    | zero => exact .inr ⟨_, _, rfl, rfl, hxy⟩
    | succ k =>
      rw [List.getElem?_cons_succ, List.getElem?_cons_succ]
      exact ih k

theorem forall₂_set (h : List.Forall₂ R xs ys) {x : α} {y : β} (hxy : R x y) (k : ℕ) :
    List.Forall₂ R (xs.set k x) (ys.set k y) := by
  induction h generalizing k with
  | nil => exact List.Forall₂.nil
  | cons hhead htail ih =>
    cases k with
    | zero => exact List.Forall₂.cons hxy htail
    | succ k => exact List.Forall₂.cons hhead (ih k)

theorem forall₂_concat (h : List.Forall₂ R xs ys) {x : α} {y : β} (hxy : R x y) :
    List.Forall₂ R (xs ++ [x]) (ys ++ [y]) :=
  List.rel_append h (List.Forall₂.cons hxy List.Forall₂.nil)

end Lists

section Relation

variable {rules} {row row' : BundleRow} {c d : Call} {s t : Store}

theorem SameRow.contentHash (h : SameRow row row') : row'.contentHash = row.contentHash := by
  rw [h]

theorem SameRow.state (h : SameRow row row') : row'.state = row.state := by
  rw [h]

theorem prepare_retagged (h : SameRow row row') {m m' : String} {ops : List PatchOp}
    (htag : row.etag = presented m ↔ row'.etag = presented m') :
    prepare rules row' m' ops = prepare rules row m ops := by
  unfold prepare
  by_cases hm : row.etag = presented m
  · rw [if_neg (not_not.mpr hm), if_neg (not_not.mpr (htag.mp hm)), h]
  · rw [if_pos hm, if_pos fun hm' => hm (htag.mpr hm')]

theorem exists_ifMatch (htag : presented row'.etag = row'.etag) (p : Prop) [Decidable p] :
    ∃ m', row'.etag = presented m' ↔ p := by
  by_cases hp : p
  · exact ⟨row'.etag, iff_of_true htag.symm hp⟩
  · by_cases hempty : row'.etag = presented ""
    · exact ⟨"x", iff_of_false (fun h => absurd (hempty.symm.trans h) (by decide)) hp⟩
    · exact ⟨"", iff_of_false hempty hp⟩

theorem begin_sameCall (h : SameRow row row') {r r' : Request} (hr : SameRequest r r')
    (hprepare : ∀ m m' ops ops' actor actor', r = .patch m ops actor →
      r' = .patch m' ops' actor' → prepare rules row' m' ops' = prepare rules row m ops) :
    SameCall rules (begin rules row r) (begin rules row' r') := by
  refine ⟨h, ?_, hr, hprepare⟩
  have haccept : accept rules row' r' = accept rules row r := by
    cases hr with
    | refl =>
      cases r with
      | patch m ops actor =>
        unfold accept
        dsimp only
        rw [hprepare m m ops ops actor actor rfl rfl]
      | validate =>
        unfold accept checkValidate
        rw [h.state]
      | approve a =>
        unfold accept checkApprove
        rw [h]
      | create =>
        unfold accept checkDeployable
        rw [h.state]
    | patch m m' ops actor =>
      unfold accept
      dsimp only
      rw [hprepare m m' ops ops actor actor rfl rfl]
  unfold begin
  rw [haccept]

theorem SameCall.awaitsCheck (h : SameCall rules c d) : d.awaitsCheck = c.awaitsCheck := by
  unfold Call.awaitsCheck
  rw [h.progress]
  have hrequest := h.request
  generalize c.request = r, d.request = r' at hrequest
  cases hrequest with
  | refl => rfl
  | patch => rfl

theorem SameCall.ready (h : SameCall rules c d) : d.ready = c.ready := by
  unfold Call.ready
  rw [h.progress]
  have hrequest := h.request
  generalize c.request = r, d.request = r' at hrequest
  cases hrequest with
  | refl => rfl
  | patch => rfl

theorem SameCall.advance (h : SameCall rules c d) (progress : Progress) :
    SameCall rules (c.advance progress) (d.advance progress) :=
  ⟨h.row, rfl, h.request, h.prepared⟩

theorem checkApproval_retagged {approvals : List Approval} (h : SameRow row row') (nowMs : ℤ)
    (announced : List Capability) :
    checkApproval rules approvals row' nowMs announced =
      checkApproval rules approvals row nowMs announced := by
  rw [h]
  rfl

def publishedHashes (rs : List Record) : List String := rs.filterMap Record.publishedHash?

theorem Retagged.writeCall (h : Retagged rules s t) (hc : SameCall rules c d) (k : ℕ) {etag : String}
    (nowMs : ℤ) (htag : presented etag = etag) :
    Retagged rules (writeCall rules s k c etag nowMs).1 (writeCall rules t k d etag nowMs).1 ∧
      publishedHashes (ConfigStore.writeCall rules t k d etag nowMs).2 =
        publishedHashes (ConfigStore.writeCall rules s k c etag nowMs).2 := by
  have hcalls := forall₂_set h.calls (hc.advance .done) k
  have hrow : t.row = { s.row with etag := t.row.etag } := h.row
  have hread : d.row = { c.row with etag := d.row.etag } := hc.row
  have hrequest := hc.request
  unfold ConfigStore.writeCall
  cases hcr : c.request with
  | patch m ops actor =>
    rw [hcr] at hrequest
    cases hdr : d.request with
    | patch m' ops' actor' =>
      have hprepare := hc.prepared m m' ops ops' actor actor' hcr hdr
      rw [hdr] at hrequest
      have hactor : actor' = actor := by
        cases hrequest with
        | refl => rfl
        | patch => rfl
      dsimp only
      rw [hprepare, hactor]
      cases prepare rules c.row m ops with
      | error e => exact ⟨h, rfl⟩
      | ok w =>
        refine ⟨⟨?_, htag, h.approvals, hcalls⟩, rfl⟩
        unfold SameRow writePatch
        rw [hrow]
    | _ =>
      rw [hdr] at hrequest
      cases hrequest
  | validate =>
    rw [hcr] at hrequest
    generalize d.request = r at hrequest
    cases hrequest
    refine ⟨⟨?_, htag, h.approvals, hcalls⟩, rfl⟩
    dsimp only
    unfold SameRow writeValidation
    rw [hrow, hread]
  | approve a =>
    rw [hcr] at hrequest
    generalize d.request = r at hrequest
    cases hrequest
    refine ⟨⟨?_, htag, ?_, hcalls⟩, rfl⟩
    · dsimp only
      unfold SameRow
      rw [hrow]
    · dsimp only
      unfold approvalOf
      rw [h.approvals, hc.row.contentHash]
  | create =>
    rw [hcr] at hrequest
    generalize d.request = r at hrequest
    cases hrequest
    refine ⟨⟨?_, htag, h.approvals, hcalls⟩, ?_⟩
    · dsimp only
      unfold SameRow
      rw [hrow]
    · exact congrArg (fun hash => [hash]) hc.row.contentHash

theorem Retagged.step (h : Retagged rules s t) (e : Event)
    (htag : ∀ k etag nowMs, e = .write k etag nowMs → presented etag = etag) :
    ∃ e', SameStep e e' ∧ Retagged rules (step rules s e).1 (step rules t e').1 ∧
      publishedHashes (ConfigStore.step rules t e').2 =
        publishedHashes (ConfigStore.step rules s e).2 := by
  cases e with
  | read request =>
    by_cases hpatch : ∃ m ops actor, request = .patch m ops actor
    · obtain ⟨m, ops, actor, rfl⟩ := hpatch
      obtain ⟨m', hm'⟩ := exists_ifMatch h.tag (s.row.etag = presented m)
      refine ⟨.read (.patch m' ops actor), .patch m m' ops actor, ⟨h.row, h.tag, h.approvals, ?_⟩, rfl⟩
      refine forall₂_concat h.calls (begin_sameCall h.row (.patch m m' ops actor) ?_)
      intro _ _ _ _ _ _ hr hr'
      cases hr
      cases hr'
      exact prepare_retagged h.row hm'.symm
    · refine ⟨.read request, .refl _, ⟨h.row, h.tag, h.approvals, ?_⟩, rfl⟩
      refine forall₂_concat h.calls (begin_sameCall h.row (.refl request) ?_)
      intro m _ ops _ actor _ hr
      exact absurd ⟨m, ops, actor, hr⟩ hpatch
  | check k nowMs announced =>
    refine ⟨.check k nowMs announced, .refl _, ?_⟩
    unfold ConfigStore.step
    dsimp only
    rcases getElem?_of_forall₂ h.calls k with ⟨hs, ht⟩ | ⟨c, d, hs, ht, hc⟩
    · rw [hs, ht]
      exact ⟨h, rfl⟩
    · rw [hs, ht]
      dsimp only
      rw [hc.awaitsCheck, h.approvals, checkApproval_retagged hc.row]
      split
      · exact ⟨⟨h.row, h.tag, rfl, forall₂_set h.calls (hc.advance _) k⟩, rfl⟩
      · exact ⟨h, rfl⟩
  | write k etag nowMs =>
    refine ⟨.write k etag nowMs, .refl _, ?_⟩
    unfold ConfigStore.step
    dsimp only
    rcases getElem?_of_forall₂ h.calls k with ⟨hs, ht⟩ | ⟨c, d, hs, ht, hc⟩
    · rw [hs, ht]
      exact ⟨h, rfl⟩
    · rw [hs, ht]
      dsimp only
      rw [hc.ready]
      split
      · exact h.writeCall hc k nowMs (htag k etag nowMs rfl)
      · exact ⟨h, rfl⟩

end Relation

theorem Retagged.refl {s : Store} (htag : presented s.row.etag = s.row.etag) :
    Retagged rules s s := by
  refine ⟨rfl, htag, rfl, List.forall₂_same.mpr fun c _ => ⟨rfl, rfl, .refl _, ?_⟩⟩
  intro m m' ops ops' actor actor' hr hr'
  rw [hr] at hr'
  cases hr'
  rfl

end ConfigStore

namespace Revision

variable (rules : ConfigRules)

/-- Two steps are the same, but for the tag that a patch presents. -/
inductive SameOperation : RevisionEvent → RevisionEvent → Prop
  | store {e e' : ConfigStore.Event} (plan : DeploymentPlan) (h : ConfigStore.SameStep e e') :
      SameOperation (.store e plan) (.store e' plan)
  | refl (e : RevisionEvent) : SameOperation e e

/-- Two revisions are the same, but for tags, the shadow record and comparisons. -/
structure Retagged (s t : Revision) : Prop where
  store : ConfigStore.Retagged rules s.store t.store
  deployments : t.deployments = s.deployments
  inForce : t.inForce = s.inForce
  shadowCalls : t.shadowCalls = s.shadowCalls
  rollbacks : t.rollbacks = s.rollbacks

/-- A comparison that writes finds the revision in the state it read at its start. -/
def Unmoved (s : Revision) : RevisionEvent → Prop
  | .compare k n _ => match s.comparisons[k]? with
      | some c => c.pending = true → c.records n = true → c.state = s.store.row.state
      | none => True
  | _ => True

section Steps

variable {rules} {s t : Revision}

theorem Retagged.state (h : Retagged rules s t) : t.store.row.state = s.store.row.state :=
  h.store.row.state

theorem Retagged.setState (h : Retagged rules s t) (state : BundleState) {etag : String}
    (htag : ConfigStore.presented etag = etag) :
    Retagged rules (s.setState state etag) (t.setState state etag) := by
  have hrow : t.store.row = { s.store.row with etag := t.store.row.etag } := h.store.row
  refine ⟨⟨?_, htag, h.store.approvals, h.store.calls⟩, h.deployments, h.inForce, h.shadowCalls,
    h.rollbacks⟩
  unfold Revision.setState
  dsimp only
  unfold ConfigStore.SameRow
  rw [hrow]

theorem Retagged.stepDeploy (h : Retagged rules s t) (k : ℕ) (e : Deployment.Event) {etag : String}
    (htag : ConfigStore.presented etag = etag) :
    Retagged rules (s.stepDeploy k e etag) (t.stepDeploy k e etag) := by
  unfold Revision.stepDeploy
  rw [h.deployments]
  cases s.deployments[k]? with
  | none => exact h
  | some pd =>
    obtain ⟨plan, d⟩ := pd
    dsimp only
    cases (List.filterMap Effect.bundleState? (Deployment.step plan d e).2).getLast? with
    | none => exact ⟨h.store, rfl, h.inForce, h.shadowCalls, h.rollbacks⟩
    | some state =>
      have hset := h.setState state htag
      refine ⟨hset.store, rfl, ?_, h.shadowCalls, h.rollbacks⟩
      dsimp only
      rw [h.inForce]

theorem Retagged.stepRollback (h : Retagged rules s t) (k : ℕ) (plan : Option DeploymentPlan)
    {etag : String} (htag : ConfigStore.presented etag = etag) :
    Retagged rules (s.stepRollback k plan etag) (t.stepRollback k plan etag) := by
  unfold Revision.stepRollback
  rw [h.rollbacks]
  cases s.rollbacks[k]? with
  | none => exact h
  | some progress =>
    cases progress with
    | found =>
      have hset := h.setState .approved htag
      exact ⟨hset.store, h.deployments, h.inForce, h.shadowCalls, rfl⟩
    | approved =>
      cases plan with
      | none => exact ⟨h.store, h.deployments, h.inForce, h.shadowCalls, rfl⟩
      | some plan =>
        have hset := h.setState .scheduled htag
        refine ⟨hset.store, ?_, h.inForce, h.shadowCalls, rfl⟩
        dsimp only
        rw [h.deployments, h.store.row.contentHash]
    | done => exact h

theorem Retagged.next_other (h : Retagged rules s t) (e : RevisionEvent)
    (he : e.isComparison = false)
    (htag : ∀ tag, e.drawn = some tag → ConfigStore.presented tag = tag) :
    ∃ e', SameOperation e e' ∧ Retagged rules (s.next rules e) (t.next rules e') := by
  cases e with
  | store e plan =>
    obtain ⟨e', hsame, hstore, hpublished⟩ := h.store.step e (by
      rintro k etag nowMs rfl
      exact htag etag rfl)
    refine ⟨.store e' plan, .store plan hsame, hstore, ?_, h.inForce, h.shadowCalls, h.rollbacks⟩
    unfold ConfigStore.publishedHashes at hpublished
    unfold next stepStore
    dsimp only
    rw [h.deployments, hpublished]
  | deploy k e etag => exact ⟨_, .refl _, h.stepDeploy k e (htag etag rfl)⟩
  | superseded =>
    refine ⟨_, .refl _, ?_⟩
    unfold next
    dsimp only
    rw [h.inForce]
    split
    · have hrow : t.store.row = { s.store.row with etag := t.store.row.etag } := h.store.row
      refine ⟨⟨?_, h.store.tag, h.store.approvals, h.store.calls⟩, h.deployments, rfl,
        h.shadowCalls, h.rollbacks⟩
      dsimp only
      unfold ConfigStore.SameRow
      rw [hrow]
    · exact h
  | findRollback =>
    refine ⟨_, .refl _, ?_⟩
    unfold next
    dsimp only
    rw [h.state]
    split
    · refine ⟨h.store, h.deployments, h.inForce, h.shadowCalls, ?_⟩
      dsimp only
      rw [h.rollbacks]
    · exact h
  | rollback k plan etag => exact ⟨_, .refl _, h.stepRollback k plan (htag etag rfl)⟩
  | rolledBack etag =>
    refine ⟨_, .refl _, ?_⟩
    unfold next
    dsimp only
    rw [h.deployments]
    split
    · exact h
    · exact h.setState .rolledBack (htag etag rfl)
  | readShadow =>
    refine ⟨_, .refl _, h.store, h.deployments, h.inForce, ?_, h.rollbacks⟩
    unfold next
    dsimp only
    rw [h.shadowCalls, h.state]
  | startShadow k analysisRunId etag =>
    refine ⟨_, .refl _, ?_⟩
    unfold next
    dsimp only
    rw [h.shadowCalls]
    split
    · have hset := h.setState .shadowEvaluated (htag etag rfl)
      exact ⟨hset.store, h.deployments, h.inForce, rfl, h.rollbacks⟩
    · exact h
  | readCompare => cases he
  | compare k n etag => cases he

theorem Retagged.next_comparison (h : Retagged rules s t) {e : RevisionEvent}
    (he : e.isComparison = true) (hunmoved : s.Unmoved e) : Retagged rules (s.next rules e) t := by
  cases e with
  | readCompare => exact ⟨h.store, h.deployments, h.inForce, h.shadowCalls, h.rollbacks⟩
  | compare k n etag =>
    unfold Unmoved at hunmoved
    unfold next
    dsimp only at hunmoved ⊢
    cases hk : s.comparisons[k]? with
    | none => exact h
    | some c =>
      rw [hk] at hunmoved
      dsimp only at hunmoved ⊢
      split
      · rename_i hpending
        unfold writeComparison
        split
        · rename_i hrecords
          have hstate := hunmoved hpending hrecords
          have hrow : t.store.row = { s.store.row with etag := t.store.row.etag } := h.store.row
          refine ⟨⟨?_, h.store.tag, h.store.approvals, h.store.calls⟩, h.deployments, h.inForce,
            h.shadowCalls, h.rollbacks⟩
          dsimp only
          unfold Revision.setState
          dsimp only
          unfold ConfigStore.SameRow
          rw [hrow, hstate]
        · exact ⟨h.store, h.deployments, h.inForce, h.shadowCalls, h.rollbacks⟩
      · exact h
  | _ => cases he

def DrawnAsPresented (e : RevisionEvent) : Prop :=
  ∀ tag, e.drawn = some tag → ConfigStore.presented tag = tag

theorem Retagged.lifeCycle (h : Retagged rules s t) (run : List RevisionEvent)
    (htags : ∀ e ∈ run, DrawnAsPresented e)
    (hunmoved : Machine.Always (Revision.step rules) Unmoved s run) :
    ∃ run', List.Forall₂ SameOperation (run.filter fun e => !e.isComparison) run' ∧
      t.lifeCycle rules run' = s.lifeCycle rules run := by
  induction run generalizing s t with
  | nil => exact ⟨[], List.Forall₂.nil, rfl⟩
  | cons e rest ih =>
    have hrest : ∀ e' ∈ rest, DrawnAsPresented e' := fun e' he' => htags e' (.tail e he')
    cases he : e.isComparison with
    | true =>
      -- the comparison is left out, and it emits nothing
      have hnext := h.next_comparison he hunmoved.1
      obtain ⟨run', hsame, hcycle⟩ := ih hnext hrest hunmoved.2
      have hsilent : (s.step rules e).2 = [] := if_pos (hnext.state.symm.trans h.state)
      refine ⟨run', ?_, ?_⟩
      · rw [List.filter_cons, if_neg (by rw [he]; decide)]
        exact hsame
      · rw [hcycle]
        unfold Revision.lifeCycle
        rw [Machine.outputs_cons, hsilent, List.nil_append]
        rfl
    | false =>
      obtain ⟨e', hoperation, hnext⟩ := h.next_other e he (htags e List.mem_cons_self)
      obtain ⟨run', hsame, hcycle⟩ := ih hnext hrest hunmoved.2
      have hemit : (t.step rules e').2 = (s.step rules e).2 := by
        unfold Revision.step
        dsimp only
        rw [hnext.state, h.state]
      refine ⟨e' :: run', ?_, ?_⟩
      · rw [List.filter_cons, if_pos (by rw [he]; decide)]
        exact List.Forall₂.cons hoperation hsame
      · unfold Revision.lifeCycle at hcycle ⊢
        rw [Machine.outputs_cons, Machine.outputs_cons, hemit]
        exact congrArg _ hcycle

end Steps

/-- Where every comparison that records its numbers finds the state it read, the life cycle is one
that the other steps alone produce. -/
theorem comparison_read_only (s : Revision) (run : List RevisionEvent)
    (htag : ConfigStore.presented s.store.row.etag = s.store.row.etag)
    (htags : ∀ e ∈ run, DrawnAsPresented e)
    (hunmoved : Machine.Always (step rules) Unmoved s run) :
    ∃ run', List.Forall₂ SameOperation (run.filter fun e => !e.isComparison) run' ∧
      s.lifeCycle rules run' = s.lifeCycle rules run :=
  Retagged.lifeCycle ⟨.refl rules htag, rfl, rfl, rfl, rfl⟩ run htags hunmoved

theorem drawnAsPresented_of_drawn {run : List RevisionEvent}
    (h : ∀ tag ∈ run.filterMap RevisionEvent.drawn, ConfigStore.presented tag = tag) :
    ∀ e ∈ run, DrawnAsPresented e :=
  fun e he _ htag => h _ (List.mem_filterMap.mpr ⟨e, he, htag⟩)

def comparedNumbers : ComparisonNumbers := ⟨"FINISHED", 24, 24, 1, 0⟩

def shadowed (state : BundleState) : Revision :=
  { store :=
      { row := { ConfigStore.loopDraft with state := state }
        approvals := [⟨"content", "approver", "Engineer", none, 1000⟩] }
    shadow := some ⟨some "run", "RUNNING", none⟩ }

def plainPlan : DeploymentPlan := ⟨"content", [], none, 0, 60000, 60000⟩

def comparedThenApproved : List RevisionEvent :=
  [.readCompare, .compare 0 comparedNumbers "e1",
    .store (.read (.approve ⟨"approver", "Engineer", [], none, 1000, false⟩)) plainPlan,
    .store (.write 0 "e2" 0) plainPlan]

theorem comparison_read_only_sample :
    ∃ run', List.Forall₂ SameOperation
        (comparedThenApproved.filter fun e => !e.isComparison) run' ∧
      (shadowed .shadowEvaluated).lifeCycle ConfigStore.lenientRules run' =
        (shadowed .shadowEvaluated).lifeCycle ConfigStore.lenientRules comparedThenApproved :=
  comparison_read_only ConfigStore.lenientRules (shadowed .shadowEvaluated) comparedThenApproved
    (by decide)
    (drawnAsPresented_of_drawn (by decide))
    ⟨trivial, fun _ _ => rfl, trivial, trivial, trivial⟩

section Quiet

variable {s : Revision}

/-- A revision that is approved or scheduled, with no approval and no rollback under way. -/
structure Quiet (s : Revision) : Prop where
  state : s.store.row.state = .approved ∨ s.store.row.state = .scheduled
  approvals : ∀ c ∈ s.store.calls, ∀ a, c.request = .approve a → c.progress ≠ .read
  rollbacks : s.rollbacks = []

theorem Quiet.began (h : Quiet s) (request : ConfigStore.Request) :
    ∀ c ∈ s.store.calls ++ [ConfigStore.begin rules s.store.row request], ∀ a,
      c.request = .approve a → c.progress ≠ .read := by
  intro c hc a ha
  rcases List.mem_append.mp hc with hc | hc
  · exact h.approvals c hc a ha
  · obtain rfl := List.mem_singleton.mp hc
    obtain rfl : request = .approve a := ha
    have hstate : s.store.row.state ∉ [BundleState.validated, .shadowEvaluated] := by
      rcases h.state with hs | hs <;> rw [hs] <;> decide
    unfold ConfigStore.begin ConfigStore.accept ConfigStore.checkApprove
    dsimp only
    rw [if_pos hstate]
    exact nofun

theorem Quiet.advanced (h : Quiet s) {k : ℕ} {c : ConfigStore.Call} (hc : c.request = .create)
    (progress : ConfigStore.Progress) :
    ∀ d ∈ s.store.calls.set k (c.advance progress), ∀ a,
      d.request = .approve a → d.progress ≠ .read := by
  intro d hd a ha
  rcases List.mem_or_eq_of_mem_set hd with hd | rfl
  · exact h.approvals d hd a ha
  · exact absurd (hc.symm.trans ha) nofun

theorem left_of_eq {entered : BundleState} (state : BundleState) (h : entered = state)
    (hs : state ∉ [BundleState.approved, .scheduled]) :
    entered ∉ [BundleState.approved, .scheduled] := by
  rw [h]
  exact hs

theorem Quiet.next (h : Quiet s) (e : RevisionEvent) (he : e.isComparison = false) :
    (s.next rules e).store.row.state ∉ [BundleState.approved, .scheduled] ∨
      Quiet (s.next rules e) ∧ ((s.next rules e).store.row.state = s.store.row.state ∨
        (s.next rules e).store.row.state = .scheduled) := by
  cases e with
  | store e plan =>
    have hmoves := ConfigStore.step_moves rules s.store e
    unfold Revision.next stepStore
    dsimp only
    generalize (ConfigStore.step rules s.store e).1 = t,
      (ConfigStore.step rules s.store e).2 = records at hmoves
    cases hmoves with
    | idle => exact .inr ⟨⟨h.state, h.approvals, h.rollbacks⟩, .inl rfl⟩
    | began request => exact .inr ⟨⟨h.state, h.began rules request, h.rollbacks⟩, .inl rfl⟩
    | judged progress _ hc =>
      refine .inr ⟨⟨h.state, h.advanced ?_ progress, h.rollbacks⟩, .inl rfl⟩
      unfold ConfigStore.Call.awaitsCheck at hc
      split at hc
      · assumption
      · cases hc
    | patched => exact .inl (left_of_eq .draft rfl (by decide))
    | @validated _ _ _ c =>
      by_cases hreport : rules.report c.row.content = []
      · exact .inl (left_of_eq .validated (if_pos hreport) (by decide))
      · exact .inl (left_of_eq .rejected (if_neg hreport) (by decide))
    | approved hk hrequest hread =>
      exact absurd hread (h.approvals _ (List.mem_of_getElem? hk) _ hrequest)
    | published _ hrequest =>
      exact .inr ⟨⟨.inr rfl, h.advanced hrequest .done, h.rollbacks⟩, .inr rfl⟩
  | deploy k e etag =>
    unfold Revision.next stepDeploy
    dsimp only
    cases s.deployments[k]? with
    | none => exact .inr ⟨h, .inl rfl⟩
    | some pd =>
      obtain ⟨plan, d⟩ := pd
      dsimp only
      cases hlast : (List.filterMap Effect.bundleState? (Deployment.step plan d e).2).getLast? with
      | none => exact .inr ⟨⟨h.state, h.approvals, h.rollbacks⟩, .inl rfl⟩
      | some state =>
        obtain ⟨effect, -, heffect⟩ := List.mem_filterMap.mp (List.mem_of_getLast? hlast)
        clear hlast
        refine .inl (left_of_eq state rfl ?_)
        unfold Effect.bundleState? at heffect
        split at heffect
        all_goals first
          | (obtain rfl := Option.some.inj heffect; decide)
          | cases heffect
  | superseded =>
    unfold Revision.next
    dsimp only
    split
    · exact .inl (left_of_eq .superseded rfl (by decide))
    · exact .inr ⟨h, .inl rfl⟩
  | findRollback =>
    have hstate : s.store.row.state ∉ [BundleState.superseded, .activeVerified] := by
      rcases h.state with hs | hs <;> rw [hs] <;> decide
    unfold Revision.next
    dsimp only
    rw [if_neg hstate]
    exact .inr ⟨h, .inl rfl⟩
  | rollback k plan etag =>
    unfold Revision.next stepRollback
    dsimp only
    rw [h.rollbacks, List.getElem?_nil]
    exact .inr ⟨h, .inl rfl⟩
  | rolledBack etag =>
    unfold Revision.next
    dsimp only
    split
    · exact .inr ⟨h, .inl rfl⟩
    · exact .inl (left_of_eq .rolledBack rfl (by decide))
  | readShadow => exact .inr ⟨⟨h.state, h.approvals, h.rollbacks⟩, .inl rfl⟩
  | startShadow k analysisRunId etag =>
    unfold Revision.next
    dsimp only
    split
    · exact .inl (left_of_eq .shadowEvaluated rfl (by decide))
    · exact .inr ⟨h, .inl rfl⟩
  | readCompare => cases he
  | compare k n etag => cases he

theorem Quiet.silent_or_left (h : Quiet s) {e : RevisionEvent} (he : e.isComparison = false) :
    ((s.step rules e).2 = [] ∧ Quiet (s.step rules e).1) ∨
      ∃ state, (s.step rules e).2 = [state] ∧ state ≠ .approved ∧
        (state = .scheduled → Quiet (s.step rules e).1 ∧
          (s.step rules e).1.store.row.state = .scheduled) := by
  unfold Revision.step
  dsimp only
  by_cases hsame : (s.next rules e).store.row.state = s.store.row.state
  · rcases h.next rules e he with hleft | ⟨hquiet, -⟩
    · exact absurd (by simpa [hsame] using h.state) hleft
    · exact .inl ⟨if_pos hsame, hquiet⟩
  · refine .inr ⟨_, if_neg hsame, ?_, ?_⟩
    · rcases h.next rules e he with hleft | ⟨-, heq | hscheduled⟩
      · exact fun happroved => hleft (by simp [happroved])
      · exact absurd heq hsame
      · rw [hscheduled]
        decide
    · intro hscheduled
      rcases h.next rules e he with hleft | ⟨hquiet, -⟩
      · exact absurd (by simp [hscheduled]) hleft
      · exact ⟨hquiet, hscheduled⟩

theorem Quiet.head_ne_approved (h : Quiet s) {run : List RevisionEvent}
    (hrun : ∀ e ∈ run, e.isComparison = false) :
    (s.lifeCycle rules run).head? ≠ some .approved := by
  induction run generalizing s with
  | nil => exact nofun
  | cons e rest ih =>
    unfold Revision.lifeCycle at ih ⊢
    rw [Machine.outputs_cons]
    rcases h.silent_or_left rules (hrun e List.mem_cons_self) with
      ⟨hsilent, hquiet⟩ | ⟨state, hemit, happroved, -⟩
    · rw [hsilent, List.nil_append]
      exact ih hquiet fun e' he' => hrun e' (.tail e he')
    · rw [hemit]
      exact fun heq => happroved (Option.some.inj heq)

theorem Quiet.lifeCycle_ne (h : Quiet s) {run : List RevisionEvent}
    (hrun : ∀ e ∈ run, e.isComparison = false) :
    s.lifeCycle rules run ≠ [.scheduled, .approved] := by
  induction run generalizing s with
  | nil => exact nofun
  | cons e rest ih =>
    have hrest : ∀ e' ∈ rest, e'.isComparison = false := fun e' he' => hrun e' (.tail e he')
    unfold Revision.lifeCycle at ih ⊢
    rw [Machine.outputs_cons]
    rcases h.silent_or_left rules (hrun e List.mem_cons_self) with
      ⟨hsilent, hquiet⟩ | ⟨state, hemit, -, hscheduled⟩
    · rw [hsilent, List.nil_append]
      exact ih hquiet hrest
    · rw [hemit]
      intro heq
      obtain ⟨rfl, htail⟩ := List.cons.inj heq
      have hhead := (hscheduled rfl).1.head_ne_approved rules hrest
      unfold Revision.lifeCycle at hhead
      have htail' : Machine.outputs (step rules) (step rules s e).1 rest = [.approved] := htail
      exact hhead (by rw [htail']; rfl)

end Quiet

def announcedJob : Capability := ⟨"gate-fusion", "catalogue", true⟩

def scheduledUnderComparison : List RevisionEvent :=
  [.readCompare, .store (.read .create) plainPlan, .store (.check 0 0 [announcedJob]) plainPlan,
    .store (.write 0 "e1" 0) plainPlan, .compare 0 comparedNumbers "e2"]

theorem lifeCycle_scheduledUnderComparison :
    (shadowed .approved).lifeCycle ConfigStore.lenientRules scheduledUnderComparison =
      [.scheduled, .approved] := by
  decide

/-- The comparison takes the scheduled revision back to approved, as no other steps do. -/
theorem comparison_moves_back : ¬ ∀ (rules : ConfigRules) (s : Revision) (run : List RevisionEvent),
    ConfigStore.presented s.store.row.etag = s.store.row.etag →
    (∀ e ∈ run, DrawnAsPresented e) →
    ∃ run', (∀ e ∈ run', e.isComparison = false) ∧
      s.lifeCycle rules run' = s.lifeCycle rules run := by
  intro h
  obtain ⟨run', hother, hcycle⟩ :=
    h ConfigStore.lenientRules (shadowed .approved) scheduledUnderComparison (by decide)
      (drawnAsPresented_of_drawn (by decide))
  have hquiet : Quiet (shadowed .approved) := ⟨.inl rfl, List.forall_mem_nil _, rfl⟩
  rw [lifeCycle_scheduledUnderComparison] at hcycle
  exact hquiet.lifeCycle_ne ConfigStore.lenientRules hother hcycle

end Revision

end OpenBridge.ControlPlane
