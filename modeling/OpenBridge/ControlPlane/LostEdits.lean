import OpenBridge.ControlPlane.ConfigStore

/-!
# Control plane: concurrent edits of one revision

`PatchAsync` compares the entity tag when it reads and writes without comparing again.
-/

namespace OpenBridge.ControlPlane

open OpenBridge.Foundation

namespace ConfigStore

def Record.edit? : Record → Option Edit
  | .edited e => some e
  | _ => none

def edits (rules : ConfigRules) (row : BundleRow) (run : List Event) : List Edit :=
  (records rules row run).filterMap Record.edit?

def Edit.named (e : Edit) : String := presented e.ifMatch

def replayOne (rules : ConfigRules) (row : BundleRow) (e : Edit) : Option BundleRow :=
  match prepare rules row e.ifMatch e.ops with
  | .ok w => some (writePatch rules row w.1 w.2 e.actor e.etag)
  | .error _ => none

def replay (rules : ConfigRules) (row : BundleRow) (es : List Edit) : Option BundleRow :=
  es.foldlM (replayOne rules) row

def Event.isPatch : Event → Bool
  | .read (.patch _ _ _) => true
  | .read _ => false
  | _ => true

def Event.drawn : Event → Option String
  | .write _ etag _ => some etag
  | _ => none

def Unchanged (s : Store) : Event → Prop
  | .write k _ _ => ∀ c ∈ s.calls[k]?, c.ready = true → c.row.etag = s.row.etag
  | _ => True

/-- The edits so far are serial: one after another they give the row, each named the tag of the one
before it, and a call that has read has either read this row or named a tag that an edit took. -/
structure Serial (rules : ConfigRules) (row : BundleRow) (drawn : List String) (s : Store)
    (es : List Edit) : Prop where
  patches : ∀ c ∈ s.calls, ∃ m ops actor, c.request = .patch m ops actor
  replayed : replay rules row es = some s.row
  named : es.map Edit.named ++ [s.row.etag] = row.etag :: es.map Edit.etag
  drawn : (es.map Edit.etag).Sublist drawn
  known : ∀ c ∈ s.calls, c.row.etag ∈ row.etag :: es.map Edit.etag
  version : ∀ c ∈ s.calls, c.row.etag = s.row.etag → c.row = s.row
  accepted : ∀ c ∈ s.calls, c.progress = .read → ∀ m ops actor, c.request = .patch m ops actor →
    ∃ w, prepare rules c.row m ops = .ok w
  overtaken : ∀ c ∈ s.calls, c.progress = .read →
    c.row.etag = s.row.etag ∨ c.row.etag ∈ es.map Edit.named

section Serial

variable {rules : ConfigRules} {row : BundleRow} {drawn : List String} {s s' : Store}
  {es : List Edit} {e : Event} {out : List Record}

theorem serial_start : Serial rules row [] (start row) [] where
  patches := by simp [start]
  replayed := rfl
  named := rfl
  drawn := List.Sublist.refl _
  known := by simp [start]
  version := by simp [start]
  accepted := by simp [start]
  overtaken := by simp [start]

theorem presented_of_prepare {r : BundleRow} {m : String} {ops : List PatchOp}
    {w : BundleContent × String} (h : prepare rules r m ops = .ok w) : presented m = r.etag := by
  unfold prepare at h
  split at h
  · cases h
  · rename_i heq
    exact (not_not.mp heq).symm

theorem Serial.etag_mem (h : Serial rules row drawn s es) :
    s.row.etag ∈ row.etag :: es.map Edit.etag := by
  rw [← h.named]
  simp

theorem Serial.step (h : Serial rules row drawn s es) (hmove : Moves rules s e s' out)
    (hpatch : e.isPatch = true) (hfresh : ∀ t ∈ e.drawn, t ∉ row.etag :: drawn)
    (hunchanged : Unchanged s e) :
    Serial rules row (drawn ++ e.drawn.toList) s' (es ++ out.filterMap Record.edit?) := by
  have hdrawn : (es.map Edit.etag).Sublist (drawn ++ e.drawn.toList) :=
    h.drawn.trans (List.sublist_append_left _ _)
  cases hmove with
  | idle => simpa using { h with drawn := hdrawn }
  | began request =>
    obtain ⟨m, ops, actor, rfl⟩ : ∃ m ops actor, request = .patch m ops actor := by
      cases request with
      | patch m ops actor => exact ⟨m, ops, actor, rfl⟩
      | validate => cases hpatch
      | approve a => cases hpatch
      | create => cases hpatch
    rw [List.filterMap_nil, List.append_nil]
    refine ⟨?_, h.replayed, h.named, hdrawn, ?_, ?_, ?_, ?_⟩
    · exact List.forall_mem_append.mpr ⟨h.patches, by simp [begin]⟩
    · exact List.forall_mem_append.mpr ⟨h.known, by simpa [begin] using h.etag_mem⟩
    · exact List.forall_mem_append.mpr ⟨h.version, by simp [begin]⟩
    · refine List.forall_mem_append.mpr ⟨h.accepted, ?_⟩
      simp only [begin, accept, List.mem_singleton, forall_eq, Request.patch.injEq]
      rintro hread m' ops' actor' ⟨rfl, rfl, rfl⟩
      cases hprepare : prepare rules s.row m ops with
      | ok w => exact ⟨w, rfl⟩
      | error e => simp [hprepare, Except.map] at hread
    · exact List.forall_mem_append.mpr ⟨h.overtaken, by simp [begin]⟩
  | @judged k nowMs announced c progress hk hc hchecked =>
    obtain ⟨m, ops, actor, hrequest⟩ := h.patches c (List.mem_of_getElem? hk)
    simp [Call.awaitsCheck, hrequest] at hc
  | @patched k etag nowMs c m actor changeClass ops content hk hrequest hread hprepare =>
    have hc : c ∈ s.calls := List.mem_of_getElem? hk
    have hnamed : presented m = s.row.etag := by
      rw [presented_of_prepare hprepare]
      exact hunchanged c hk (by simp [Call.ready, hrequest, hread])
    have hrow : c.row = s.row := h.version c hc ((presented_of_prepare hprepare).symm.trans hnamed)
    have hfresh' : etag ∉ row.etag :: es.map Edit.etag := fun hmem =>
      hfresh etag rfl (List.cons_subset_cons _ h.drawn.subset hmem)
    have hset {c' : Call} (hc' : c' ∈ s.calls.set k (c.advance .done)) :
        c' ∈ s.calls ∨ c' = c.advance .done := List.mem_or_eq_of_mem_set hc'
    rw [hrow] at hprepare
    refine ⟨?_, ?_, ?_, ?_, ?_, ?_, ?_, ?_⟩
    · intro c' hc'
      rcases hset hc' with hc' | rfl
      · exact h.patches c' hc'
      · exact ⟨m, ops, actor, hrequest⟩
    · have hone : replayOne rules s.row ⟨m, ops, actor, etag⟩ =
          some (writePatch rules s.row content changeClass actor etag) := by
        simp [replayOne, hprepare]
      simp only [replay, List.filterMap_cons, Record.edit?, List.filterMap_nil,
        List.foldlM_append, List.foldlM_cons, List.foldlM_nil]
      rw [show es.foldlM (replayOne rules) row = some s.row from h.replayed]
      simp [hone]
    · have hconcat := congrArg (· ++ [etag]) h.named
      simp only [List.append_assoc, List.cons_append] at hconcat
      simpa [Record.edit?, Edit.named, hnamed, writePatch] using hconcat
    · simp only [List.filterMap_cons, Record.edit?, List.filterMap_nil, List.map_append,
        List.map_cons, List.map_nil, Event.drawn, Option.toList_some]
      exact h.drawn.append (List.Sublist.refl _)
    · intro c' hc'
      have hmem : c'.row.etag ∈ row.etag :: es.map Edit.etag := by
        rcases hset hc' with hc' | rfl
        · exact h.known c' hc'
        · exact h.known c hc
      exact List.cons_subset_cons _ (by simp) hmem
    · intro c' hc' heq
      have hmem : c'.row.etag ∈ row.etag :: es.map Edit.etag := by
        rcases hset hc' with hc' | rfl
        · exact h.known c' hc'
        · exact h.known c hc
      rw [heq] at hmem
      exact absurd hmem hfresh'
    · intro c' hc' hread'
      rcases hset hc' with hc' | rfl
      · exact h.accepted c' hc' hread'
      · cases hread'
    · intro c' hc' hread'
      rcases hset hc' with hc' | rfl
      · rcases h.overtaken c' hc' hread' with heq | hmem
        · right
          rw [heq, ← hnamed]
          simp [Record.edit?, Edit.named]
        · right
          simp only [List.map_append, List.mem_append]
          exact Or.inl hmem
      · cases hread'
  | @validated k etag nowMs c hk hrequest hread =>
    obtain ⟨m, ops, actor, heq⟩ := h.patches c (List.mem_of_getElem? hk)
    rw [hrequest] at heq
    cases heq
  | @approved k etag nowMs c a hk hrequest hread =>
    obtain ⟨m, ops, actor, heq⟩ := h.patches c (List.mem_of_getElem? hk)
    rw [hrequest] at heq
    cases heq
  | @published k etag nowMs c hk hrequest hchecked =>
    obtain ⟨m, ops, actor, heq⟩ := h.patches c (List.mem_of_getElem? hk)
    rw [hrequest] at heq
    cases heq

theorem Serial.named_twice (h : Serial rules row drawn s es) (hstale : ¬ Unchanged s e) :
    ¬ ((es ++ (ConfigStore.step rules s e).2.filterMap Record.edit?).map Edit.named).Nodup := by
  cases e with
  | read request => exact absurd trivial hstale
  | check k nowMs announced => exact absurd trivial hstale
  | write k etag nowMs =>
    unfold Unchanged at hstale
    push Not at hstale
    obtain ⟨c, hk, hready, hne⟩ := hstale
    have hc : c ∈ s.calls := List.mem_of_getElem? hk
    obtain ⟨m, ops, actor, hrequest⟩ := h.patches c hc
    have hread : c.progress = .read := by simpa [Call.ready, hrequest] using hready
    obtain ⟨w, hprepare⟩ := h.accepted c hc hread m ops actor hrequest
    have hout : (ConfigStore.step rules s (.write k etag nowMs)).2 =
        [.edited ⟨m, ops, actor, etag⟩] := by
      simp [ConfigStore.step, Option.mem_def.mp hk, hready, writeCall, hrequest, hprepare]
    have hmem : presented m ∈ es.map Edit.named := by
      rw [presented_of_prepare hprepare]
      exact (h.overtaken c hc hread).resolve_left hne
    rw [hout]
    simp only [List.filterMap_cons, Record.edit?, List.filterMap_nil, List.map_append,
      List.map_cons, List.map_nil]
    intro hnodup
    exact (List.nodup_append.mp hnodup).2.2 _ hmem (presented m) (by simp [Edit.named]) rfl

end Serial

section Runs

variable {rules : ConfigRules} {row : BundleRow}

@[simp] theorem after_concat (run : List Event) (e : Event) :
    after rules row (run ++ [e]) = (step rules (after rules row run) e).1 :=
  Machine.stateAfter_concat _ _ _ _

@[simp] theorem records_concat (run : List Event) (e : Event) :
    records rules row (run ++ [e]) =
      records rules row run ++ (step rules (after rules row run) e).2 :=
  Machine.outputs_concat _ _ _ _

theorem edits_concat (run : List Event) (e : Event) : edits rules row (run ++ [e]) =
    edits rules row run ++ (step rules (after rules row run) e).2.filterMap Record.edit? := by
  rw [edits, records_concat, List.filterMap_append, edits]

theorem fresh_concat {tag : String} {run : List Event} {e : Event}
    (h : (tag :: (run ++ [e]).filterMap Event.drawn).Nodup) :
    (tag :: run.filterMap Event.drawn).Nodup ∧
      ∀ t ∈ e.drawn, t ∉ tag :: run.filterMap Event.drawn := by
  rw [List.filterMap_append, ← List.cons_append, List.nodup_append] at h
  refine ⟨h.1, fun t ht hmem => h.2.2 t hmem t ?_ rfl⟩
  simp [Option.mem_def.mp ht]

theorem serial_run (run : List Event) (hpatch : ∀ e ∈ run, e.isPatch = true)
    (hfresh : (row.etag :: run.filterMap Event.drawn).Nodup)
    (halways : Machine.Always (step rules) Unchanged (start row) run) :
    Serial rules row (run.filterMap Event.drawn) (after rules row run) (edits rules row run) := by
  induction run using List.reverseRecOn with
  | nil => exact serial_start
  | append_singleton run e ih =>
    rw [Machine.always_concat] at halways
    obtain ⟨hrun, htag⟩ := fresh_concat hfresh
    have hserial := ih (fun e' he' => hpatch e' (by simp [he'])) hrun halways.1
    have hstep := hserial.step (step_moves rules _ e) (hpatch e (by simp)) htag halways.2
    have hdrawn : [e].filterMap Event.drawn = e.drawn.toList := by cases e <;> rfl
    rw [after_concat, edits_concat, List.filterMap_append, hdrawn]
    exact hstep

theorem always_of_named_nodup (run : List Event) (hpatch : ∀ e ∈ run, e.isPatch = true)
    (hfresh : (row.etag :: run.filterMap Event.drawn).Nodup)
    (hnodup : ((edits rules row run).map Edit.named).Nodup) :
    Machine.Always (step rules) Unchanged (start row) run := by
  induction run using List.reverseRecOn with
  | nil => exact trivial
  | append_singleton run e ih =>
    obtain ⟨hrun, -⟩ := fresh_concat hfresh
    have hpatch' : ∀ e' ∈ run, e'.isPatch = true := fun e' he' => hpatch e' (by simp [he'])
    rw [edits_concat] at hnodup
    have halways := ih hpatch' hrun
      (hnodup.sublist ((List.sublist_append_left _ _).map Edit.named))
    have hserial := serial_run run hpatch' hrun halways
    rw [Machine.always_concat]
    refine ⟨halways, ?_⟩
    by_contra hstale
    exact hserial.named_twice hstale hnodup

end Runs

theorem Serial.named_nodup {rules : ConfigRules} {row : BundleRow} {drawn : List String} {s : Store}
    {es : List Edit} (h : Serial rules row drawn s es) (hfresh : (row.etag :: drawn).Nodup) :
    (es.map Edit.named).Nodup := by
  have htags : (row.etag :: es.map Edit.etag).Nodup :=
    hfresh.sublist (h.drawn.cons_cons row.etag)
  rw [← h.named] at htags
  exact htags.sublist (List.sublist_append_left _ _)

/-- Over any interleaving of patches that draw fresh entity tags the edits are serial exactly when
every write still finds the tag its call read. -/
theorem edits_serial_iff (rules : ConfigRules) (row : BundleRow) (run : List Event)
    (hpatch : ∀ e ∈ run, e.isPatch = true)
    (hfresh : (row.etag :: run.filterMap Event.drawn).Nodup) :
    (((edits rules row run).map Edit.named).Nodup ∧
      ∃ order : List Edit, order.Perm (edits rules row run) ∧
        replay rules row order = some (after rules row run).row) ↔
      Machine.Always (step rules) Unchanged (start row) run := by
  constructor
  · rintro ⟨hnodup, -⟩
    exact always_of_named_nodup run hpatch hfresh hnodup
  · intro halways
    have hserial := serial_run run hpatch hfresh halways
    exact ⟨hserial.named_nodup hfresh, _, List.Perm.refl _, hserial.replayed⟩

def lenientRules : ConfigRules :=
  { isProperty := fun _ => true, valueErrors := fun _ _ => [], layerHash := fun _ => "layer",
    resolve := fun _ => .ok .null, contentHash := fun _ => "content",
    changeClass := fun _ _ _ => "POLICY", ownClass := fun _ => "POLICY", report := fun _ => [],
    sameUser := fun a b => a = b, timeText := fun _ => "" }

def loopDraft : BundleRow :=
  { content := ⟨[⟨"LOOP", none, none, none⟩], .null⟩, contentHash := "content",
    scopeKind := "LOOP", createdBy := "author", catalogueHash := "catalogue",
    changeClass := "POLICY", state := .draft, validation := none, etag := "e0",
    editor := "author" }

def setCycles (n : ℤ) : List PatchOp :=
  [⟨"set", "G5.min_complete_cycles", some (.number (.integral n))⟩]

def serialEdits : List Event :=
  [.read (.patch "e0" (setCycles 4) "first"), .write 0 "e1" 0,
    .read (.patch "e1" (setCycles 6) "second"), .write 1 "e2" 0]

theorem always_serialEdits :
    Machine.Always (step lenientRules) Unchanged (start loopDraft) serialEdits := by
  refine ⟨trivial, ?_, trivial, ?_, trivial⟩
  · rintro c hc -
    obtain rfl := Option.mem_some_iff.mp hc
    rfl
  · rintro c hc -
    obtain rfl := Option.mem_some_iff.mp hc
    decide

theorem edits_serial_sample :
    ((edits lenientRules loopDraft serialEdits).map Edit.named).Nodup ∧
      ∃ order : List Edit, order.Perm (edits lenientRules loopDraft serialEdits) ∧
        replay lenientRules loopDraft order = some (after lenientRules loopDraft serialEdits).row :=
  (edits_serial_iff lenientRules loopDraft serialEdits (by decide) (by decide)).mpr
    always_serialEdits

/-- Two calls that read the same entity tag both succeed. -/
theorem two_edits_of_one_tag : ¬ ∀ (rules : ConfigRules) (row : BundleRow) (run : List Event),
    (∀ e ∈ run, e.isPatch = true) → (row.etag :: run.filterMap Event.drawn).Nodup →
    ((edits rules row run).map Edit.named).Nodup := by
  intro h
  have htwice := h lenientRules loopDraft
    [.read (.patch "e0" (setCycles 4) "first"), .read (.patch "e0" (setCycles 6) "second"),
      .write 0 "e1" 0, .write 1 "e2" 0] (by decide) (by decide)
  revert htwice
  decide

end ConfigStore

end OpenBridge.ControlPlane
