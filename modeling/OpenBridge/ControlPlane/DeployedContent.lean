import OpenBridge.ControlPlane.LostEdits

/-!
# Control plane: what is deployed was validated and approved

`ValidateAsync` and `ApproveAsync` write on the row whatever it holds by then.  What is published
was validated and approved as long as no verdict of validation is written on other content and
nobody approves his own edit.
-/

namespace OpenBridge.ControlPlane

open OpenBridge.Foundation

namespace ConfigStore

/-- `CreateDraftAsync`: the row of a new draft. -/
def createDraft (rules : ConfigRules) (layers : List ConfigLayer)
    (scopeKind createdBy catalogueHash etag : String) : Except ConfigError BundleRow := do
  let resolved ← (rules.resolve layers).mapError fun e =>
    ConfigError.argument ("layers do not resolve: " ++ e)
  .ok
    { content := ⟨layers, resolved⟩, contentHash := rules.contentHash ⟨layers, resolved⟩,
      scopeKind := scopeKind, createdBy := createdBy, catalogueHash := catalogueHash,
      changeClass := "POLICY", state := .draft, validation := none, etag := etag,
      editor := createdBy }

/-- The records show an approval of this content by a user who had not edited it. -/
def ApprovedByOther (rules : ConfigRules) (rs : List Record) (content : BundleContent) : Prop :=
  ∃ read approver, Record.approved read approver ∈ rs ∧ read.content = content ∧
    rules.sameUser read.editor approver = false

/-- A validated row passes validation, and whatever was published passes it and was approved by a
user who had not edited it. -/
def Truthful (rules : ConfigRules) (s : Store) (rs : List Record) : Prop :=
  (s.row.state = .validated → rules.report s.row.content = []) ∧
  ∀ b, Record.published b ∈ rs →
    rules.report b.content = [] ∧ ApprovedByOther rules rs b.content

/-- A validation that found no errors writes on the content it read, and an approver is not the
editor of what he approves. -/
def Guarded (rules : ConfigRules) (s : Store) : Event → Prop
  | .write k _ _ => ∀ c ∈ s.calls[k]?, c.ready = true →
      match c.request with
      | .validate => rules.report c.row.content = [] → s.row.content = c.row.content
      | .approve a => rules.sameUser c.row.editor a.name = false
      | _ => True
  | _ => True

/-- What every step keeps, on contents of which `C` holds: an approval, and a deployment checked
against it, stand for such content and for another user. -/
structure Kept (rules : ConfigRules) (C : BundleContent → Prop) (s : Store) (rs : List Record) :
    Prop where
  hashed : s.row.contentHash = rules.contentHash s.row.content
  judged : s.row.state = .validated ∨ s.row.state = .shadowEvaluated →
    rules.report s.row.content = []
  reads : ∀ c ∈ s.calls, c.row.contentHash = rules.contentHash c.row.content ∧ C c.row.content
  approving : ∀ c ∈ s.calls, c.progress = .read → ∀ a, c.request = .approve a →
    rules.report c.row.content = []
  approvals : ∀ p ∈ s.approvals, ∃ content, p.contentHash = rules.contentHash content ∧
    C content ∧ rules.report content = [] ∧ ApprovedByOther rules rs content
  checked : ∀ c ∈ s.calls, c.request = .create → c.progress = .checked →
    rules.report c.row.content = [] ∧ ApprovedByOther rules rs c.row.content
  published : ∀ b, Record.published b ∈ rs →
    rules.report b.content = [] ∧ ApprovedByOther rules rs b.content

section Kept

variable {rules : ConfigRules} {C : BundleContent → Prop} {s s' : Store} {rs out : List Record}
  {e : Event}

theorem ApprovedByOther.append {content : BundleContent} (h : ApprovedByOther rules rs content)
    (out : List Record) : ApprovedByOther rules (rs ++ out) content := by
  obtain ⟨read, approver, hmem, hrest⟩ := h
  exact ⟨read, approver, List.mem_append_left _ hmem, hrest⟩

theorem Kept.truthful (h : Kept rules C s rs) : Truthful rules s rs :=
  ⟨fun hstate => h.judged (Or.inl hstate), h.published⟩

theorem validated_of_accept {row : BundleRow} {a : Approver}
    (h : (begin rules row (.approve a)).progress = .read) :
    row.state = .validated ∨ row.state = .shadowEvaluated := by
  unfold begin accept checkApprove at h
  dsimp only at h
  split at h
  · rename_i hok
    split at hok
    · cases hok
    · rename_i hstate
      simpa using not_not.mp hstate
  · cases h

theorem exists_approval_of_check {approvals : List Approval} {row : BundleRow} {nowMs : ℤ}
    {announced : List Capability}
    (h : checkApproval rules approvals row nowMs announced = .ok ()) :
    ∃ p ∈ approvals, p.contentHash = row.contentHash := by
  unfold checkApproval at h
  dsimp only at h
  split at h
  · cases h
  · rename_i p hp
    have hmem := List.mem_of_getLast? hp
    simp only [List.mem_filter, decide_eq_true_eq] at hmem
    exact ⟨p, hmem⟩

theorem Kept.keep_approvals (h : Kept rules C s rs) (out : List Record) : ∀ p ∈ s.approvals,
    ∃ content, p.contentHash = rules.contentHash content ∧ C content ∧
      rules.report content = [] ∧ ApprovedByOther rules (rs ++ out) content := by
  intro p hp
  obtain ⟨content, hhash, hC, hreport, happroved⟩ := h.approvals p hp
  exact ⟨content, hhash, hC, hreport, happroved.append out⟩

theorem Kept.keep_checked (h : Kept rules C s rs) (out : List Record) : ∀ c ∈ s.calls,
    c.request = .create → c.progress = .checked →
      rules.report c.row.content = [] ∧ ApprovedByOther rules (rs ++ out) c.row.content := by
  intro c hc hrequest hchecked
  obtain ⟨hreport, happroved⟩ := h.checked c hc hrequest hchecked
  exact ⟨hreport, happroved.append out⟩

theorem Kept.keep_published (h : Kept rules C s rs) (out : List Record)
    (hout : ∀ b, Record.published b ∈ out →
      rules.report b.content = [] ∧ ApprovedByOther rules (rs ++ out) b.content) :
    ∀ b, Record.published b ∈ rs ++ out →
      rules.report b.content = [] ∧ ApprovedByOther rules (rs ++ out) b.content := by
  intro b hb
  rcases List.mem_append.mp hb with hb | hb
  · obtain ⟨hreport, happroved⟩ := h.published b hb
    exact ⟨hreport, happroved.append out⟩
  · exact hout b hb

theorem forall_set {P : Call → Prop} {calls : List Call} {k : ℕ} {c : Call}
    (h : ∀ c' ∈ calls, P c') (hc : P c) : ∀ c' ∈ calls.set k c, P c' := by
  intro c' hc'
  rcases List.mem_or_eq_of_mem_set hc' with hc' | rfl
  · exact h c' hc'
  · exact hc

theorem Kept.calls_done (h : Kept rules C s rs) (out : List Record) {k : ℕ} {c : Call}
    (hk : s.calls[k]? = some c) :
    (∀ c' ∈ s.calls.set k (c.advance .done),
      c'.row.contentHash = rules.contentHash c'.row.content ∧ C c'.row.content) ∧
    (∀ c' ∈ s.calls.set k (c.advance .done), c'.progress = .read → ∀ a,
      c'.request = .approve a → rules.report c'.row.content = []) ∧
    ∀ c' ∈ s.calls.set k (c.advance .done), c'.request = .create → c'.progress = .checked →
      rules.report c'.row.content = [] ∧ ApprovedByOther rules (rs ++ out) c'.row.content :=
  ⟨forall_set h.reads (h.reads c (List.mem_of_getElem? hk)),
    forall_set h.approving (fun hread => by cases hread),
    forall_set (h.keep_checked out) (fun _ hchecked => by cases hchecked)⟩

theorem Kept.step (h : Kept rules C s rs) (hmove : Moves rules s e s' out)
    (hguarded : Guarded rules s e) (hC : C s.row.content)
    (hcollision : ∀ c c', C c → C c' → rules.contentHash c = rules.contentHash c' → c = c') :
    Kept rules C s' (rs ++ out) := by
  cases hmove with
  | idle => simpa using h
  | began request =>
    rw [List.append_nil]
    refine ⟨h.hashed, h.judged, ?_, ?_, h.approvals, ?_, h.published⟩
    · exact List.forall_mem_append.mpr ⟨h.reads, by simpa [begin] using ⟨h.hashed, hC⟩⟩
    · refine List.forall_mem_append.mpr ⟨h.approving, ?_⟩
      intro c hc hread a hrequest
      obtain rfl : c = begin rules s.row request := by simpa using hc
      obtain rfl : request = .approve a := hrequest
      exact h.judged (validated_of_accept hread)
    · refine List.forall_mem_append.mpr ⟨h.checked, ?_⟩
      intro c hc hrequest hchecked
      obtain rfl : c = begin rules s.row request := by simpa using hc
      simp only [begin] at hchecked
      split at hchecked <;> cases hchecked
  | @judged k nowMs announced c progress hk hc hchecked =>
    have hmem : c ∈ s.calls := List.mem_of_getElem? hk
    rw [List.append_nil]
    refine ⟨h.hashed, h.judged, forall_set h.reads (h.reads c hmem), ?_, h.approvals, ?_,
      h.published⟩
    · refine forall_set h.approving ?_
      intro _ a hrequest
      have hrequest' : c.request = .approve a := hrequest
      simp [Call.awaitsCheck, hrequest'] at hc
    · refine forall_set h.checked ?_
      intro _ hprogress
      obtain ⟨p, hp, hhash⟩ := exists_approval_of_check (hchecked hprogress)
      obtain ⟨content, hcontent, hCcontent, hreport, happroved⟩ := h.approvals p hp
      obtain ⟨hread, hCread⟩ := h.reads c hmem
      obtain rfl := hcollision content c.row.content hCcontent hCread
        (hcontent.symm.trans (hhash.trans hread))
      exact ⟨hreport, happroved⟩
  | @patched k etag nowMs c m actor changeClass ops content hk hrequest hread hprepare =>
    obtain ⟨hreads, happroving, hchecked⟩ :=
      h.calls_done [.edited ⟨m, ops, actor, etag⟩] hk
    exact ⟨rfl, fun hstate => by simp [writePatch] at hstate, hreads, happroving,
      h.keep_approvals _, hchecked, h.keep_published _ (by simp)⟩
  | @validated k etag nowMs c hk hrequest hread =>
    obtain ⟨hreads, happroving, hchecked⟩ := h.calls_done [] hk
    refine ⟨h.hashed, ?_, hreads, happroving, h.keep_approvals _, hchecked,
      h.keep_published _ (by simp)⟩
    intro hstate
    have hclean : rules.report c.row.content = [] := by
      by_contra hne
      simp [writeValidation, hne] at hstate
    have hguard := hguarded c hk (by simp [Call.ready, hrequest, hread])
    rw [hrequest] at hguard
    have hsame : s.row.content = c.row.content := hguard hclean
    show rules.report s.row.content = []
    rw [hsame]
    exact hclean
  | @approved k etag nowMs c a hk hrequest hread =>
    have hmem : c ∈ s.calls := List.mem_of_getElem? hk
    obtain ⟨hreads, happroving, hchecked⟩ := h.calls_done [.approved c.row a.name] hk
    have hguard := hguarded c hk (by simp [Call.ready, hrequest, hread])
    rw [hrequest] at hguard
    refine ⟨h.hashed, fun hstate => by simp at hstate, hreads, happroving, ?_, hchecked,
      h.keep_published _ (by simp)⟩
    refine List.forall_mem_append.mpr ⟨h.keep_approvals _, ?_⟩
    intro p hp
    obtain rfl : p = approvalOf c.row a nowMs := by simpa using hp
    obtain ⟨hhash, hCread⟩ := h.reads c hmem
    exact ⟨c.row.content, hhash, hCread, h.approving c hmem hread a hrequest, c.row, a.name,
      by simp, rfl, hguard⟩
  | @published k etag nowMs c hk hrequest hprogress =>
    have hmem : c ∈ s.calls := List.mem_of_getElem? hk
    obtain ⟨hreads, happroving, hchecked⟩ := h.calls_done [.published c.row] hk
    refine ⟨h.hashed, fun hstate => by simp at hstate, hreads, happroving, h.keep_approvals _,
      hchecked, h.keep_published _ ?_⟩
    intro b hb
    obtain rfl : b = c.row := by simpa using hb
    exact h.keep_checked _ c hmem hrequest hprogress

end Kept

def contents (rules : ConfigRules) (row : BundleRow) (run : List Event) : List BundleContent :=
  run.inits.map fun pre => (after rules row pre).row.content

/-- In every run whose steps are guarded a validated row passes validation in every state reached,
and whatever was published passes it and was approved by a user who had not edited it. -/
theorem deployed_content_truthful (rules : ConfigRules) (layers : List ConfigLayer)
    (scopeKind createdBy catalogueHash etag : String) (row : BundleRow) (run : List Event)
    (hdraft : createDraft rules layers scopeKind createdBy catalogueHash etag = .ok row)
    (hcollision : ∀ c ∈ contents rules row run, ∀ c' ∈ contents rules row run,
      rules.contentHash c = rules.contentHash c' → c = c')
    (hguarded : Machine.Always (step rules) (Guarded rules) (start row) run) :
    ∀ pre, pre <+: run → Truthful rules (after rules row pre) (records rules row pre) := by
  have hstart : Kept rules (· ∈ contents rules row run) (start row) [] := by
    unfold createDraft at hdraft
    cases hresolve : rules.resolve layers with
    | error e => simp [hresolve, Except.mapError, bind, Except.bind] at hdraft
    | ok resolved =>
      obtain rfl : _ = row := by simpa [hresolve, Except.mapError, bind, Except.bind] using hdraft
      exact ⟨rfl, by simp [start], by simp [start], by simp [start], by simp [start],
        by simp [start], by simp⟩
  have hkept : ∀ pre, pre <+: run →
      Kept rules (· ∈ contents rules row run) (after rules row pre) (records rules row pre) := by
    intro pre
    induction pre using List.reverseRecOn with
    | nil => exact fun _ => hstart
    | append_singleton pre e ih =>
      intro hpre
      have hprefix : pre <+: run := (List.prefix_append _ _).trans hpre
      have hcontent : (after rules row pre).row.content ∈ contents rules row run :=
        List.mem_map.mpr ⟨pre, (List.mem_inits _ _).mpr hprefix, rfl⟩
      have hguard : Guarded rules (after rules row pre) e := by
        obtain ⟨post, rfl⟩ := hpre
        have hall := (Machine.always_iff (step rules) (Guarded rules)).mp hguarded
        exact hall pre e post (by simp)
      rw [after_concat, records_concat]
      exact (ih hprefix).step (step_moves rules _ e) hguard hcontent
        (fun c c' hc hc' => hcollision c hc c' hc')
  exact fun pre hpre => (hkept pre hpre).truthful

def edited (c : BundleContent) : Bool := c.layers.any fun l => l.content.isSome

def hashingRules : ConfigRules :=
  { lenientRules with contentHash := fun c => if edited c then "edited" else "drafted" }

def loopLayers : List ConfigLayer := [⟨"LOOP", none, none, none⟩]

def hashedDraft : BundleRow :=
  { loopDraft with content := ⟨loopLayers, .null⟩, contentHash := "drafted" }

def deployedEdit : List Event :=
  [.read (.patch "e0" (setCycles 6) "author"), .write 0 "e1" 0, .read .validate, .write 1 "e2" 0,
    .read (.approve ⟨"reviewer", "Engineer", [], none, 1000, false⟩), .write 2 "e3" 0,
    .read .create, .check 3 0 [⟨"job", "catalogue", true⟩], .write 3 "e4" 0]

def editedContent : BundleContent := (after hashingRules hashedDraft (deployedEdit.take 2)).row.content

theorem contents_deployedEdit : ∀ c ∈ contents hashingRules hashedDraft deployedEdit,
    c = hashedDraft.content ∨ c = editedContent := by
  have hcontents : contents hashingRules hashedDraft deployedEdit =
      [hashedDraft.content, hashedDraft.content] ++ List.replicate 8 editedContent := rfl
  rw [hcontents]
  intro c hc
  rcases List.mem_append.mp hc with hc | hc
  · exact Or.inl (by simpa using hc)
  · exact Or.inr (List.eq_of_mem_replicate hc)

theorem contentHash_deployedEdit : ∀ c ∈ contents hashingRules hashedDraft deployedEdit,
    ∀ c' ∈ contents hashingRules hashedDraft deployedEdit,
      hashingRules.contentHash c = hashingRules.contentHash c' → c = c' := by
  intro c hc c' hc' heq
  rcases contents_deployedEdit c hc with rfl | rfl
  · rcases contents_deployedEdit c' hc' with rfl | rfl
    · rfl
    · exact absurd heq (by decide)
  · rcases contents_deployedEdit c' hc' with rfl | rfl
    · exact absurd heq (by decide)
    · rfl

theorem guarded_deployedEdit :
    Machine.Always (step hashingRules) (Guarded hashingRules) (start hashedDraft) deployedEdit := by
  refine ⟨trivial, ?_, trivial, ?_, trivial, ?_, trivial, trivial, ?_, trivial⟩
  · rintro c hc -
    obtain rfl := Option.mem_some_iff.mp hc
    trivial
  · rintro c hc -
    obtain rfl := Option.mem_some_iff.mp hc
    exact fun _ => rfl
  · rintro c hc -
    obtain rfl := Option.mem_some_iff.mp hc
    have hother : hashingRules.sameUser "author" "reviewer" = false := by decide
    exact hother
  · rintro c hc -
    obtain rfl := Option.mem_some_iff.mp hc
    trivial

theorem deployed_content_truthful_sample :
    Truthful hashingRules (after hashingRules hashedDraft deployedEdit)
      (records hashingRules hashedDraft deployedEdit) :=
  deployed_content_truthful hashingRules loopLayers "LOOP" "author" "catalogue" "e0" hashedDraft
    deployedEdit rfl contentHash_deployedEdit guarded_deployedEdit deployedEdit (List.prefix_refl _)

def refusingRules : ConfigRules :=
  { lenientRules with report := fun c => if edited c then ["refused"] else [] }

/-- A validation that read the draft before an edit marks the edited content as validated. -/
theorem validated_over_edit : ¬ ∀ (rules : ConfigRules) (row : BundleRow) (run : List Event),
    row.state = .draft →
    (after rules row run).row.state = .validated →
    rules.report (after rules row run).row.content = [] := by
  intro h
  have hclean := h refusingRules loopDraft
    [.read .validate, .read (.patch "e0" (setCycles 6) "author"), .write 1 "e1" 0,
      .write 0 "e2" 0] rfl (by decide)
  revert hclean
  decide

end ConfigStore

end OpenBridge.ControlPlane
