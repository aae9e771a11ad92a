import OpenBridge.Evidence.EvidenceRetentionSweeper
import OpenBridge.Foundation.Slots

/-!
# Evidence: what is never lost

A statement of the sweep takes rows that meet its predicate, and no predicate is met by a pinned
row.
-/

namespace OpenBridge.Evidence

open OpenBridge.Foundation OpenBridge.Foundation.Slots

namespace EvidenceRetention

open EvidenceBlobStore EvidenceRetentionTiers

def capturedOpen (s : Retained) (run : Guid) : Bool :=
  ∃ c ∈ s.captures, c.methodRunId = run ∧ ∃ f ∈ s.frames, f.id = c.episodeId ∧ f.closedAt = none

def isProtected (s : Retained) (r : EvidenceRow) : Bool :=
  r.dataset.manifest.pinned = true ∨ capturedOpen s r.methodRunId = true

def promotable (r : EvidenceRow) : Bool :=
  r.dataset.manifest.retentionClass = .transient ∧ r.dataset.manifest.pinned = false

def Sweep.purging : Sweep → Bool
  | purgeByAge => true
  | readBudget => true
  | purgeOverBudget _ => true
  | _ => false

section Steps

variable (settings : Settings) (captureMax : ℕ)

def KeepsProtected (s : Retained) (e : Event) : Prop :=
  ∀ r ∈ s.rows, isProtected s r = true → ∃ r' ∈ (step settings captureMax s e).1.rows,
    r'.evidenceId = r.evidenceId ∧
      (r.dataset.manifest.readiness ≠ .expired → r'.dataset.manifest.readiness ≠ .expired) ∧
      (r.dataset.manifest.pinned = true → r'.dataset.manifest.pinned = true)

/-- What is asked of a step.  An investigation is created while its evidence is there.  The manifest of
a run that an open episode has captured does not arrive as a new transient row between the promotion and
the purges of a sweep, and a promotion comes within its lookback of the capture.  A row of such a run is
not due in another class than `EPISODE`, and not past its grace. -/
def InOrder (s : Retained) : Event → Bool
  | .manifest record _ =>
      s.sweep.purging = false ∨ record.evidenceId ∈ idsOf s.rows ∨
        retentionClassOf record.manifest ≠ .transient ∨ capturedOpen s record.methodRunId = false
  | .create k => s.inquiries[k]?.all fun q => q.missing ≠ [] ∨ q.evidenceIds ⊆ idsOf s.rows
  | .sweep now _ _ =>
      match s.sweep with
      | .promote => ∀ r ∈ s.rows, promotable r = true → capturedOpen s r.methodRunId = true →
          ∃ c ∈ s.captures, c.methodRunId = r.methodRunId ∧
            now - hours (max 1 (settings.transientHours + 1)) < c.capturedAt
      | .expire recordClass classDays _ => recordClass ≠ .episode → ∀ r ∈ s.rows,
          due s recordClass classDays now r = true → capturedOpen s r.methodRunId = false
      | .purgeExpired recordClass classDays _ => ∀ r ∈ s.rows,
          pastGrace settings recordClass classDays now r = true → capturedOpen s r.methodRunId = false
      | _ => true
  | _ => true

end Steps

/-! ## The rows -/

section Rows

variable {rows : List EvidenceRow} {ids : List Guid} {f : Option Dataset → Option Dataset}

theorem mem_change {r' : EvidenceRow} : r' ∈ change rows ids f ↔ ∃ r ∈ rows,
    (r.evidenceId ∉ ids ∧ r' = r) ∨
      (r.evidenceId ∈ ids ∧ ∃ d, f (some r.dataset) = some d ∧ r' = { r with dataset := d }) := by
  unfold change
  rw [List.mem_filterMap]
  refine exists_congr fun r => and_congr_right fun _ => ?_
  by_cases hid : r.evidenceId ∈ ids
  · rw [if_pos hid, Option.map_eq_some_iff]
    constructor
    · rintro ⟨d, hd, rfl⟩
      exact .inr ⟨hid, d, hd, rfl⟩
    · rintro (⟨hno, -⟩ | ⟨-, d, hd, rfl⟩)
      · exact absurd hid hno
      · exact ⟨d, hd, rfl⟩
  · rw [if_neg hid, Option.some.injEq]
    constructor
    · rintro rfl
      exact .inl ⟨hid, rfl⟩
    · rintro (⟨-, rfl⟩ | ⟨hyes, -⟩)
      · rfl
      · exact absurd hyes hid

theorem idsOf_change_sublist (rows : List EvidenceRow) :
    (idsOf (change rows ids f)).Sublist (idsOf rows) := by
  induction rows with
  | nil => exact List.Sublist.refl _
  | cons r rest ih =>
    unfold change at ih ⊢
    rw [List.filterMap_cons]
    split
    · exact ih.cons _
    · rename_i r' hr'
      have hid : r'.evidenceId = r.evidenceId := by
        split at hr'
        · obtain ⟨d, -, rfl⟩ := Option.map_eq_some_iff.mp hr'
          rfl
        · exact congrArg EvidenceRow.evidenceId (Option.some.inj hr').symm
      unfold idsOf at ih ⊢
      rw [List.map_cons, List.map_cons, hid]
      exact ih.cons_cons _

theorem exists_change (hf : ∀ d, ∃ d', f (some d) = some d' ∧
      (d.manifest.readiness ≠ .expired → d'.manifest.readiness ≠ .expired) ∧
      (d.manifest.pinned = true → d'.manifest.pinned = true)) {r : EvidenceRow} (hr : r ∈ rows) :
    ∃ r' ∈ change rows ids f, r'.evidenceId = r.evidenceId ∧
      (r.dataset.manifest.readiness ≠ .expired → r'.dataset.manifest.readiness ≠ .expired) ∧
      (r.dataset.manifest.pinned = true → r'.dataset.manifest.pinned = true) := by
  by_cases hid : r.evidenceId ∈ ids
  · obtain ⟨d, hd, hexpired, hpinned⟩ := hf r.dataset
    exact ⟨{ r with dataset := d }, mem_change.mpr ⟨r, hr, .inr ⟨hid, d, hd, rfl⟩⟩, rfl, hexpired,
      hpinned⟩
  · exact ⟨r, mem_change.mpr ⟨r, hr, .inl ⟨hid, rfl⟩⟩, rfl, id, id⟩

theorem mem_oldest {p : EvidenceRow → Bool} {locked : List Guid} {batch : ℕ} {r : EvidenceRow}
    (h : r ∈ oldest rows p locked batch) : r ∈ rows ∧ p r = true := by
  have hsorted := List.mem_of_mem_take h
  rw [List.mem_insertionSort] at hsorted
  obtain ⟨hr, hp⟩ := List.mem_filter.mp hsorted
  exact ⟨hr, (of_decide_eq_true hp).1⟩

theorem mem_change_oldest (hids : (idsOf rows).Nodup) {p : EvidenceRow → Bool} {locked : List Guid}
    {batch : ℕ} {r : EvidenceRow} (hr : r ∈ rows) (hp : p r = false) :
    r ∈ change rows (idsOf (oldest rows p locked batch)) f := by
  refine mem_change.mpr ⟨r, hr, .inl ⟨fun hmem => ?_, rfl⟩⟩
  obtain ⟨q, hq, hid⟩ := List.mem_map.mp hmem
  obtain ⟨hqr, hqp⟩ := mem_oldest hq
  rw [List.inj_on_of_nodup_map hids hqr hr hid] at hqp
  exact Bool.false_ne_true (hp.symm.trans hqp)

end Rows

/-! ## The manifests -/

section Manifests

variable {rows : List EvidenceRow} {record : EvidenceRecord} {now : ℤ}

theorem upsertManifest_replaced {m : IncomingManifest} {d : Dataset}
    (h : replaces d.manifest (retentionClassOf m = .standard) m.spec.sha256 = true) :
    ∃ d', upsertManifest m (some d) = some d' ∧ d'.manifest.readiness = .pending ∧
      d'.manifest.pinned = d.manifest.pinned ∧
      (d'.manifest.retentionClass = .transient → d.manifest.retentionClass = .transient) := by
  unfold upsertManifest
  dsimp only
  rw [if_pos h]
  refine ⟨_, rfl, rfl, rfl, fun hclass => ?_⟩
  split at hclass
  · exact hclass
  · split at hclass
    · exact hclass
    · cases hclass

theorem exists_upsert {r : EvidenceRow} (hr : r ∈ rows) :
    ∃ r' ∈ upsertManifestAsync rows record now, r'.evidenceId = r.evidenceId ∧
      (r.dataset.manifest.readiness ≠ .expired → r'.dataset.manifest.readiness ≠ .expired) ∧
      (r.dataset.manifest.pinned = true → r'.dataset.manifest.pinned = true) := by
  unfold upsertManifestAsync
  split
  · refine ⟨_, List.mem_map_of_mem hr, ?_⟩
    split
    · rename_i hreplaced
      obtain ⟨d', hd', hpending, hpinned, -⟩ := upsertManifest_replaced hreplaced.2
      rw [hd', Option.getD_some, hpending, hpinned]
      exact ⟨rfl, fun _ => nofun, id⟩
    · exact ⟨rfl, id, id⟩
  · split
    · exact ⟨r, List.mem_append_left _ hr, rfl, id, id⟩
    · exact ⟨r, hr, rfl, id, id⟩

theorem mem_upsert {r' : EvidenceRow} (h : r' ∈ upsertManifestAsync rows record now) :
    (∃ r ∈ rows, r'.methodRunId = r.methodRunId ∧ (promotable r' = true → promotable r = true)) ∨
      (record.evidenceId ∉ idsOf rows ∧ r'.methodRunId = record.methodRunId ∧
        r'.dataset.manifest.retentionClass = retentionClassOf record.manifest) := by
  unfold upsertManifestAsync at h
  split at h
  · obtain ⟨r, hr, rfl⟩ := List.mem_map.mp h
    refine .inl ⟨r, hr, ?_⟩
    split
    · rename_i hreplaced
      obtain ⟨d', hd', -, hpinned, hclass⟩ := upsertManifest_replaced hreplaced.2
      refine ⟨rfl, fun hpromotable => ?_⟩
      unfold promotable at hpromotable ⊢
      rw [hd', Option.getD_some, hpinned] at hpromotable
      obtain ⟨htransient, hunpinned⟩ := of_decide_eq_true hpromotable
      exact decide_eq_true ⟨hclass htransient, hunpinned⟩
    · exact ⟨rfl, id⟩
  · rename_i hfresh
    have hold : r' ∈ rows → ∃ r ∈ rows, r'.methodRunId = r.methodRunId ∧
        (promotable r' = true → promotable r = true) := fun hr => ⟨r', hr, rfl, id⟩
    split at h
    · rename_i d hd
      rcases List.mem_append.mp h with h | h
      · exact .inl (hold h)
      · rw [List.mem_singleton.mp h]
        refine .inr ⟨hfresh, rfl, ?_⟩
        unfold upsertManifest at hd
        exact congrArg (fun d : Dataset => d.manifest.retentionClass) (Option.some.inj hd).symm
    · exact .inl (hold h)

theorem idsOf_upsert (h : (idsOf rows).Nodup) : (idsOf (upsertManifestAsync rows record now)).Nodup := by
  unfold upsertManifestAsync
  split
  · have hids : idsOf (rows.map fun r =>
        if r.evidenceId = record.evidenceId ∧ replaces r.dataset.manifest
            (retentionClassOf record.manifest = .standard) record.manifest.spec.sha256 = true then
          { r with
            createdAt := now
            dataset := (upsertManifest record.manifest (some r.dataset)).getD r.dataset }
        else r) = idsOf rows := by
      unfold idsOf
      rw [List.map_map]
      refine List.map_congr_left fun r _ => ?_
      rw [Function.comp_apply]
      split
      · rfl
      · rfl
    rw [hids]
    exact h
  · rename_i hfresh
    split
    · unfold idsOf at h hfresh ⊢
      rw [List.map_append, List.map_singleton]
      refine h.append (List.nodup_singleton _) fun id hid hsingle => hfresh ?_
      obtain rfl : id = record.evidenceId := List.mem_singleton.mp hsingle
      exact hid
    · exact h

end Manifests

/-! ## Promotions and pins -/

section Marks

theorem promote_some (d : Dataset) : ∃ d', EvidenceRetentionTiers.promote (some d) = some d' ∧
    (d.manifest.readiness ≠ .expired → d'.manifest.readiness ≠ .expired) ∧
    (d.manifest.pinned = true → d'.manifest.pinned = true) := by
  unfold EvidenceRetentionTiers.promote
  rw [Option.map_some]
  split
  · exact ⟨_, rfl, id, id⟩
  · exact ⟨d, rfl, id, id⟩

theorem pin_some (d : Dataset) : ∃ d', EvidenceRetentionTiers.pin (some d) = some d' ∧
    (d.manifest.readiness ≠ .expired → d'.manifest.readiness ≠ .expired) ∧
    (d.manifest.pinned = true → d'.manifest.pinned = true) :=
  ⟨_, rfl, id, fun _ => rfl⟩

variable {rows : List EvidenceRow} {ids : List Guid}

theorem mem_promote {r' : EvidenceRow} (h : r' ∈ change rows ids EvidenceRetentionTiers.promote) :
    ∃ r ∈ rows, r'.methodRunId = r.methodRunId ∧
      (promotable r' = true → promotable r = true ∧ r.evidenceId ∉ ids) := by
  obtain ⟨r, hr, ⟨hid, rfl⟩ | ⟨-, d, hd, rfl⟩⟩ := mem_change.mp h
  · exact ⟨r', hr, rfl, fun hpromotable => ⟨hpromotable, hid⟩⟩
  · refine ⟨r, hr, rfl, fun hpromotable => ?_⟩
    unfold promotable at hpromotable
    have hboth := of_decide_eq_true hpromotable
    unfold EvidenceRetentionTiers.promote at hd
    rw [Option.map_some] at hd
    obtain rfl := Option.some.inj hd
    split at hboth
    · cases hboth.1
    · rename_i hneither
      exact absurd hboth hneither

theorem mem_pin {r' : EvidenceRow} (h : r' ∈ change rows ids EvidenceRetentionTiers.pin) :
    ∃ r ∈ rows, r'.methodRunId = r.methodRunId ∧ (promotable r' = true → promotable r = true) := by
  obtain ⟨r, hr, ⟨-, rfl⟩ | ⟨-, d, hd, rfl⟩⟩ := mem_change.mp h
  · exact ⟨r', hr, rfl, id⟩
  · refine ⟨r, hr, rfl, fun hpromotable => ?_⟩
    unfold EvidenceRetentionTiers.pin at hd
    rw [Option.map_some] at hd
    obtain rfl := Option.some.inj hd
    exact absurd (of_decide_eq_true hpromotable).2 nofun

theorem mem_purgeTransient {r' : EvidenceRow}
    (h : r' ∈ change rows ids EvidenceRetentionTiers.purgeTransient) : r' ∈ rows := by
  obtain ⟨r, hr, ⟨-, rfl⟩ | ⟨-, d, hd, rfl⟩⟩ := mem_change.mp h
  · exact hr
  · unfold EvidenceRetentionTiers.purgeTransient at hd
    obtain rfl := Option.some.inj (Option.filter_eq_some_iff.mp hd).1
    exact hr

end Marks

/-! ## The steps -/

structure Kept (s : Retained) : Prop where
  ids : (idsOf s.rows).Nodup
  known : ∀ c ∈ s.captures, ∃ f ∈ s.frames, f.id = c.episodeId
  promoted : s.sweep.purging = true → ∀ r ∈ s.rows, promotable r = true →
    capturedOpen s r.methodRunId = false
  created : ∀ q ∈ s.inquiries, q.created = true → ∀ id ∈ q.evidenceIds, ∃ r ∈ s.rows,
    r.evidenceId = id ∧ r.dataset.manifest.pinned = true

section Protected

variable {settings : Settings} {s : Retained} {r : EvidenceRow}

theorem Kept.not_liveTransient (h : Kept s) (hpurging : s.sweep.purging = true) (hr : r ∈ s.rows)
    (hprotected : isProtected s r = true) : ¬ liveTransient r.dataset.manifest = true := by
  intro hlive
  obtain ⟨hclass, hpinned, -⟩ := of_decide_eq_true hlive
  rcases of_decide_eq_true hprotected with hpin | hopen
  · exact Bool.false_ne_true (hpinned.symm.trans hpin)
  · have hclosed := h.promoted hpurging r hr (decide_eq_true ⟨hclass, hpinned⟩)
    exact Bool.false_ne_true (hclosed.symm.trans hopen)

theorem episodeStillProtected_of_capturedOpen (hopen : capturedOpen s r.methodRunId = true)
    (now classDays : ℤ) : episodeStillProtected s now classDays r = true := by
  obtain ⟨c, hc, hrun, f, hf, hid, hclosed⟩ := of_decide_eq_true hopen
  exact decide_eq_true ⟨c, hc, f, hf, hid, hrun, .inl hclosed⟩

theorem not_due {now classDays : ℤ} {recordClass : RetentionClass} {rest : List (RetentionClass × ℤ)}
    {locked : List Guid} {policies : List (RetentionClass × ℤ)}
    (hsweep : s.sweep = .expire recordClass classDays rest)
    (horder : InOrder settings s (.sweep now locked policies) = true) (hr : r ∈ s.rows)
    (hprotected : isProtected s r = true) : due s recordClass classDays now r = false := by
  unfold InOrder at horder
  dsimp only at horder
  rw [hsweep] at horder
  refine Bool.eq_false_iff.mpr fun hdue => ?_
  obtain ⟨-, hpinned, -, -, hepisode⟩ := of_decide_eq_true hdue
  rcases of_decide_eq_true hprotected with hpin | hopen
  · exact Bool.false_ne_true (hpinned.symm.trans hpin)
  · by_cases hclass : recordClass = .episode
    · have hstill := episodeStillProtected_of_capturedOpen hopen now classDays
      exact Bool.false_ne_true ((hepisode hclass).symm.trans hstill)
    · have hclosed := of_decide_eq_true horder hclass r hr hdue
      exact Bool.false_ne_true (hclosed.symm.trans hopen)

theorem not_pastGrace {now classDays : ℤ} {recordClass : RetentionClass}
    {rest : List (RetentionClass × ℤ)} {locked : List Guid} {policies : List (RetentionClass × ℤ)}
    (hsweep : s.sweep = .purgeExpired recordClass classDays rest)
    (horder : InOrder settings s (.sweep now locked policies) = true) (hr : r ∈ s.rows)
    (hprotected : isProtected s r = true) : pastGrace settings recordClass classDays now r = false := by
  unfold InOrder at horder
  dsimp only at horder
  rw [hsweep] at horder
  refine Bool.eq_false_iff.mpr fun hpast => ?_
  obtain ⟨-, hpinned, -⟩ := of_decide_eq_true hpast
  rcases of_decide_eq_true hprotected with hpin | hopen
  · exact Bool.false_ne_true (hpinned.symm.trans hpin)
  · have hclosed := of_decide_eq_true horder r hr hpast
    exact Bool.false_ne_true (hclosed.symm.trans hopen)

theorem Kept.keeps_sweep (h : Kept s) {now : ℤ} {locked : List Guid}
    {policies : List (RetentionClass × ℤ)}
    (horder : InOrder settings s (.sweep now locked policies) = true) (hr : r ∈ s.rows)
    (hprotected : isProtected s r = true) :
    ∃ r' ∈ (sweepStep settings s now locked policies).rows, r'.evidenceId = r.evidenceId ∧
      (r.dataset.manifest.readiness ≠ .expired → r'.dataset.manifest.readiness ≠ .expired) ∧
      (r.dataset.manifest.pinned = true → r'.dataset.manifest.pinned = true) := by
  have hsame : ∃ r' ∈ s.rows, r'.evidenceId = r.evidenceId ∧
      (r.dataset.manifest.readiness ≠ .expired → r'.dataset.manifest.readiness ≠ .expired) ∧
      (r.dataset.manifest.pinned = true → r'.dataset.manifest.pinned = true) :=
    ⟨r, hr, rfl, id, id⟩
  unfold sweepStep
  split
  · exact hsame
  · exact exists_change promote_some hr
  · rename_i hsweep
    have hlive := h.not_liveTransient (hsweep ▸ rfl) hr hprotected
    exact ⟨r, mem_change_oldest h.ids hr (decide_eq_false fun hp => hlive hp.1), rfl, id, id⟩
  · exact hsame
  · rename_i used hsweep
    have hlive := h.not_liveTransient (hsweep ▸ rfl) hr hprotected
    dsimp only
    split
    · exact hsame
    · exact ⟨r, mem_change_oldest h.ids hr (Bool.eq_false_iff.mpr hlive), rfl, id, id⟩
  · exact hsame
  · rename_i recordClass classDays rest hsweep
    exact ⟨r, mem_change_oldest h.ids hr (not_due hsweep horder hr hprotected), rfl, id, id⟩
  · rename_i recordClass classDays rest hsweep
    exact ⟨r, mem_change_oldest h.ids hr (not_pastGrace hsweep horder hr hprotected), rfl, id, id⟩

theorem Kept.keepsProtected (h : Kept s) (captureMax : ℕ) (e : Event)
    (horder : InOrder settings s e = true) : KeepsProtected settings captureMax s e := by
  intro r hr hprotected
  have hsame : ∃ r' ∈ s.rows, r'.evidenceId = r.evidenceId ∧
      (r.dataset.manifest.readiness ≠ .expired → r'.dataset.manifest.readiness ≠ .expired) ∧
      (r.dataset.manifest.pinned = true → r'.dataset.manifest.pinned = true) :=
    ⟨r, hr, rfl, id, id⟩
  unfold EvidenceRetention.step
  cases e with
  | manifest record now => exact exists_upsert hr
  | openFrame id =>
    dsimp only
    split
    · exact hsame
    · exact hsame
  | closeFrame id now => exact hsame
  | capture frameId kind runIds now =>
    dsimp only
    unfold captureAsync
    dsimp only
    split
    · exact hsame
    · split
      · exact exists_change promote_some hr
      · exact hsame
  | missingEvidence evidenceIds => exact hsame
  | create k =>
    dsimp only
    split
    · exact exists_change pin_some hr
    · exact hsame
  | sweep now locked policies => exact h.keeps_sweep horder hr hprotected
  | abortSweep => exact hsame

theorem Kept.created_step (h : Kept s) (captureMax : ℕ) {e : Event}
    (horder : InOrder settings s e = true) {q : Inquiry} (hq : q ∈ s.inquiries) (hcreated : q.created = true) :
    ∀ id ∈ q.evidenceIds, ∃ r ∈ (EvidenceRetention.step settings captureMax s e).1.rows,
      r.evidenceId = id ∧ r.dataset.manifest.pinned = true := by
  intro id hid
  obtain ⟨r, hr, hrid, hpinned⟩ := h.created q hq hcreated id hid
  obtain ⟨r', hr', hid', -, hpinned'⟩ :=
    h.keepsProtected captureMax e horder r hr (decide_eq_true (.inl hpinned))
  exact ⟨r', hr', hid'.trans hrid, hpinned' hpinned⟩

theorem nodup_sweepStep (h : (idsOf s.rows).Nodup) {now : ℤ} {locked : List Guid}
    {policies : List (RetentionClass × ℤ)} :
    (idsOf (sweepStep settings s now locked policies).rows).Nodup := by
  have hchange : ∀ (ids : List Guid) (f : Option Dataset → Option Dataset),
      (idsOf (change s.rows ids f)).Nodup := fun ids f => h.sublist (idsOf_change_sublist s.rows)
  unfold sweepStep
  split
  · exact h
  · exact hchange _ _
  · exact hchange _ _
  · exact h
  · dsimp only
    split
    · exact h
    · exact hchange _ _
  · exact h
  · exact hchange _ _
  · exact hchange _ _

theorem purging_nextClass (rest : List (RetentionClass × ℤ)) : (nextClass rest).purging = false := by
  cases rest with
  | nil => rfl
  | cons p rest => rfl

theorem Kept.promoted_sweep (h : Kept s) {now : ℤ} {locked : List Guid}
    {policies : List (RetentionClass × ℤ)}
    (horder : InOrder settings s (.sweep now locked policies) = true) :
    (sweepStep settings s now locked policies).sweep.purging = true →
      ∀ r ∈ (sweepStep settings s now locked policies).rows, promotable r = true →
        capturedOpen s r.methodRunId = false := by
  unfold sweepStep
  split
  · exact nofun
  · rename_i hsweep
    intro _ r' hr' hpromotable
    obtain ⟨r, hr, hrun, hold⟩ := mem_promote hr'
    obtain ⟨hpromotable, hpassed⟩ := hold hpromotable
    rw [hrun]
    refine Bool.eq_false_iff.mpr fun hopen => hpassed ?_
    unfold InOrder at horder
    dsimp only at horder
    rw [hsweep] at horder
    refine List.mem_map_of_mem (List.mem_filter.mpr ⟨hr, decide_eq_true ?_⟩)
    exact of_decide_eq_true horder r hr hpromotable hopen
  · rename_i hsweep
    exact fun _ r hr hpromotable => h.promoted (hsweep ▸ rfl) r (mem_purgeTransient hr) hpromotable
  · rename_i hsweep
    exact fun _ => h.promoted (hsweep ▸ rfl)
  · rename_i used hsweep
    dsimp only
    split
    · exact nofun
    · exact fun _ r hr hpromotable => h.promoted (hsweep ▸ rfl) r (mem_purgeTransient hr) hpromotable
  · intro hpurging
    exact absurd ((purging_nextClass _).symm.trans hpurging) Bool.false_ne_true
  · dsimp only
    split
    · exact nofun
    · exact nofun
  · dsimp only
    split
    · intro hpurging
      exact absurd ((purging_nextClass _).symm.trans hpurging) Bool.false_ne_true
    · exact nofun

theorem sweepStep_frame (settings : Settings) (s : Retained) (now : ℤ) (locked : List Guid) (policies : List (RetentionClass × ℤ)) :
    (sweepStep settings s now locked policies).captures = s.captures ∧
      (sweepStep settings s now locked policies).frames = s.frames ∧
      (sweepStep settings s now locked policies).inquiries = s.inquiries := by
  unfold sweepStep
  split
  · exact ⟨rfl, rfl, rfl⟩
  · exact ⟨rfl, rfl, rfl⟩
  · exact ⟨rfl, rfl, rfl⟩
  · exact ⟨rfl, rfl, rfl⟩
  · dsimp only
    split
    · exact ⟨rfl, rfl, rfl⟩
    · exact ⟨rfl, rfl, rfl⟩
  · exact ⟨rfl, rfl, rfl⟩
  · exact ⟨rfl, rfl, rfl⟩
  · exact ⟨rfl, rfl, rfl⟩

theorem capturedOpen_of_step {t : Retained} {run : Guid}
    (h : ∀ c ∈ t.captures, c.methodRunId = run → ∀ f ∈ t.frames, f.id = c.episodeId →
      f.closedAt = none → c ∈ s.captures ∧ ∃ f' ∈ s.frames, f'.id = c.episodeId ∧ f'.closedAt = none)
    (hclosed : capturedOpen s run = false) : capturedOpen t run = false := by
  refine Bool.eq_false_iff.mpr fun hopen => ?_
  obtain ⟨c, hc, hrun, f, hf, hid, hnone⟩ := of_decide_eq_true hopen
  obtain ⟨hc', f', hf', hid', hnone'⟩ := h c hc hrun f hf hid hnone
  exact Bool.false_ne_true (hclosed.symm.trans
    (decide_eq_true ⟨c, hc', hrun, f', hf', hid', hnone'⟩))

theorem Kept.capture (h : Kept s) (captureMax frameId : ℕ) (kind : CaptureKind)
    (runIds : List Guid) (now : ℤ) :
    (idsOf (captureAsync captureMax s frameId kind runIds now).rows).Nodup ∧
      (∀ c ∈ (captureAsync captureMax s frameId kind runIds now).captures,
        ∃ f ∈ (captureAsync captureMax s frameId kind runIds now).frames, f.id = c.episodeId) ∧
      ((captureAsync captureMax s frameId kind runIds now).sweep.purging = true →
        ∀ r ∈ (captureAsync captureMax s frameId kind runIds now).rows, promotable r = true →
          capturedOpen (captureAsync captureMax s frameId kind runIds now) r.methodRunId = false) := by
  unfold captureAsync
  dsimp only
  split
  · exact ⟨h.ids, h.known, h.promoted⟩
  · split
    · rename_i hframe
      obtain ⟨f₀, hf₀, hf₀id, -⟩ := hframe
      have hcounted : ∀ f ∈ s.frames, ∃ f' ∈ s.frames.map (fun f =>
          if f.id = frameId then { f with captureCount := f.captureCount + 1 } else f),
          f'.id = f.id := by
        intro f hf
        refine ⟨_, List.mem_map_of_mem hf, ?_⟩
        split
        · rfl
        · rfl
      refine ⟨h.ids.sublist (idsOf_change_sublist s.rows), ?_, ?_⟩
      · intro c hc
        rcases List.mem_append.mp hc with hc | hc
        · obtain ⟨f, hf, hid⟩ := h.known c hc
          obtain ⟨f', hf', hid'⟩ := hcounted f hf
          exact ⟨f', hf', hid'.trans hid⟩
        · obtain ⟨run, -, rfl⟩ := List.mem_map.mp hc
          obtain ⟨f', hf', hid'⟩ := hcounted f₀ hf₀
          exact ⟨f', hf', hid'.trans hf₀id⟩
      · intro hpurging r' hr' hpromotable
        obtain ⟨r, hr, hrun, hold⟩ := mem_promote hr'
        obtain ⟨hpromotable, hpassed⟩ := hold hpromotable
        have hother : r.methodRunId ∉ runIds.dedup := fun hmem =>
          hpassed (List.mem_map_of_mem (List.mem_filter.mpr ⟨hr, decide_eq_true hmem⟩))
        rw [hrun]
        refine capturedOpen_of_step ?_ (h.promoted hpurging r hr hpromotable)
        intro c hc hcrun f hf hid hnone
        obtain ⟨g, hg, rfl⟩ := List.mem_map.mp hf
        have hgid : g.id = c.episodeId ∧ g.closedAt = none := by
          split at hid
          · rename_i hgframe
            rw [if_pos hgframe] at hnone
            exact ⟨hid, hnone⟩
          · rename_i hgframe
            rw [if_neg hgframe] at hnone
            exact ⟨hid, hnone⟩
        rcases List.mem_append.mp hc with hc | hc
        · exact ⟨hc, g, hg, hgid⟩
        · obtain ⟨run, hnew, rfl⟩ := List.mem_map.mp hc
          exact absurd (hcrun ▸ List.mem_of_mem_filter hnew) hother
    · exact ⟨h.ids, h.known, h.promoted⟩

theorem captureAsync_inquiries (captureMax : ℕ) (s : Retained) (frameId : ℕ) (kind : CaptureKind)
    (runIds : List Guid) (now : ℤ) :
    (captureAsync captureMax s frameId kind runIds now).inquiries = s.inquiries := by
  unfold captureAsync
  dsimp only
  split
  · rfl
  · split
    · rfl
    · rfl

theorem Kept.step (h : Kept s) (captureMax : ℕ) (e : Event)
    (horder : InOrder settings s e = true) :
    Kept (EvidenceRetention.step settings captureMax s e).1 := by
  have hcreated := fun q (hq : q ∈ s.inquiries) hdone =>
    h.created_step captureMax horder hq hdone
  unfold EvidenceRetention.step at hcreated ⊢
  cases e with
  | manifest record now =>
    refine ⟨idsOf_upsert h.ids, h.known, fun hpurging r' hr' hpromotable => ?_, hcreated⟩
    rcases mem_upsert hr' with ⟨r, hr, hrun, hold⟩ | ⟨hfresh, hrun, hclass⟩
    · rw [hrun]
      exact h.promoted hpurging r hr (hold hpromotable)
    · rw [hrun]
      have htransient := (of_decide_eq_true hpromotable).1
      rcases of_decide_eq_true horder with hidle | hknown | hother | hclosed
      · exact absurd (hidle.symm.trans hpurging) Bool.false_ne_true
      · exact absurd hknown hfresh
      · exact absurd (hclass.symm.trans htransient) hother
      · exact hclosed
  | openFrame id =>
    dsimp only at hcreated ⊢
    split
    · exact h
    · rename_i hfresh
      refine ⟨h.ids, fun c hc => ?_, fun hpurging r hr hpromotable => ?_, h.created⟩
      · obtain ⟨f, hf, hid⟩ := h.known c hc
        exact ⟨f, List.mem_append_left _ hf, hid⟩
      · refine capturedOpen_of_step ?_ (h.promoted hpurging r hr hpromotable)
        intro c hc _ f hf hid hnone
        rcases List.mem_append.mp hf with hf | hf
        · exact ⟨hc, f, hf, hid, hnone⟩
        · -- the frame is new, and no capture names it
          obtain rfl := List.mem_singleton.mp hf
          obtain ⟨f', hf', hid'⟩ := h.known c hc
          exact absurd ⟨f', hf', hid'.trans hid.symm⟩ hfresh
  | closeFrame id now =>
    refine ⟨h.ids, fun c hc => ?_, fun hpurging r hr hpromotable => ?_, hcreated⟩
    · obtain ⟨f, hf, hid⟩ := h.known c hc
      refine ⟨_, List.mem_map_of_mem hf, ?_⟩
      split
      · exact hid
      · exact hid
    · refine capturedOpen_of_step ?_ (h.promoted hpurging r hr hpromotable)
      intro c hc _ f hf hid hnone
      obtain ⟨g, hg, rfl⟩ := List.mem_map.mp hf
      split at hnone
      · cases hnone
      · rename_i hother
        rw [if_neg hother] at hid
        exact ⟨hc, g, hg, hid, hnone⟩
  | capture frameId kind runIds now =>
    obtain ⟨hids, hknown, hpromoted⟩ := h.capture captureMax frameId kind runIds now
    refine ⟨hids, hknown, hpromoted, fun q hq hdone => hcreated q ?_ hdone⟩
    rw [← captureAsync_inquiries captureMax s frameId kind runIds now]
    exact hq
  | missingEvidence evidenceIds =>
    refine ⟨h.ids, h.known, h.promoted, fun q hq hdone => ?_⟩
    rcases List.mem_append.mp hq with hq | hq
    · exact hcreated q hq hdone
    · rw [List.mem_singleton.mp hq] at hdone
      cases hdone
  | create k =>
    dsimp only at hcreated ⊢
    split
    · rename_i evidenceIds hk
      rw [hk] at hcreated
      unfold InOrder at horder
      dsimp only at horder
      rw [hk, Option.all_some] at horder
      refine ⟨h.ids.sublist (idsOf_change_sublist s.rows), h.known, ?_, fun q hq hdone => ?_⟩
      · intro hpurging r' hr' hpromotable
        obtain ⟨r, hr, hrun, hold⟩ := mem_pin hr'
        rw [hrun]
        exact h.promoted hpurging r hr (hold hpromotable)
      · rcases List.mem_or_eq_of_mem_set hq with hq | rfl
        · exact hcreated q hq hdone
        · intro id hid
          rcases of_decide_eq_true horder with hmissing | hpresent
          · exact absurd rfl hmissing
          · obtain ⟨r, hr, rfl⟩ := List.mem_map.mp (hpresent hid)
            obtain ⟨d, hd, -, -⟩ := pin_some r.dataset
            refine ⟨{ r with dataset := d }, mem_change.mpr ⟨r, hr, .inr ⟨hid, d, hd, rfl⟩⟩, rfl, ?_⟩
            obtain rfl := Option.some.inj hd
            rfl
    · exact h
  | sweep now locked policies =>
    obtain ⟨hcaptures, hframes, hinquiries⟩ := sweepStep_frame settings s now locked policies
    refine ⟨nodup_sweepStep h.ids, ?_, ?_, ?_⟩
    · dsimp only
      rw [hcaptures, hframes]
      exact h.known
    · intro hpurging r hr hpromotable
      have hclosed := h.promoted_sweep horder hpurging r hr hpromotable
      refine capturedOpen_of_step ?_ hclosed
      intro c hc _ f hf hid hnone
      rw [hcaptures] at hc
      rw [hframes] at hf
      exact ⟨hc, f, hf, hid, hnone⟩
    · intro q hq hdone
      refine hcreated q ?_ hdone
      rw [← hinquiries]
      exact hq
  | abortSweep => exact ⟨h.ids, h.known, nofun, hcreated⟩

end Protected

def stored (rows : List EvidenceRow) (captures : List Capture) (frames : List Frame) : Retained :=
  { rows := rows, captures := captures, frames := frames }

def EvidenceThere (s : Retained) : Prop :=
  ∀ q ∈ s.inquiries, q.created = true → ∀ id ∈ q.evidenceIds, ∃ r ∈ s.rows,
    r.evidenceId = id ∧ r.dataset.manifest.pinned = true

theorem kept_stored {rows : List EvidenceRow} {captures : List Capture} {frames : List Frame}
    (hids : (idsOf rows).Nodup) (hknown : ∀ c ∈ captures, ∃ f ∈ frames, f.id = c.episodeId) :
    Kept (stored rows captures frames) :=
  ⟨hids, hknown, nofun, List.forall_mem_nil _⟩

/-- In every run in order no step deletes or expires protected evidence, and the evidence of the
investigations is there. -/
theorem evidence_kept (settings : Settings) (captureMax : ℕ) (rows : List EvidenceRow)
    (captures : List Capture) (frames : List Frame) (hids : (idsOf rows).Nodup)
    (hknown : ∀ c ∈ captures, ∃ f ∈ frames, f.id = c.episodeId) (run : List Event)
    (horder : Machine.Always (EvidenceRetention.step settings captureMax)
      (fun s e => InOrder settings s e = true) (stored rows captures frames) run) :
    Machine.Always (EvidenceRetention.step settings captureMax) (KeepsProtected settings captureMax)
        (stored rows captures frames) run ∧
      EvidenceThere (after settings captureMax (stored rows captures frames) run) := by
  have hstart := kept_stored hids hknown
  have hkeep : ∀ s e, Kept s → InOrder settings s e = true →
      Kept (EvidenceRetention.step settings captureMax s e).1 :=
    fun s e hkept horder => hkept.step captureMax e horder
  refine ⟨?_, ?_⟩
  · exact Machine.always_of_always _ Kept hkeep
      (fun s e hkept horder => hkept.keepsProtected captureMax e horder) hstart horder
  · exact (Machine.stateAfter_of_always _ Kept hkeep hstart horder).created

def sixHours : Settings :=
  { transientHours := 6, transientBudgetBytes := 1000000, expiredGraceDays := 7, batchSize := 500 }

def liveRecord (evidenceId methodRunId : Guid) (totalBytes : ℤ) : EvidenceRecord :=
  ⟨evidenceId, methodRunId, ⟨⟨evidenceId.text, 1, totalBytes, "", [""]⟩, none⟩⟩

def sweeps (count : ℕ) (hour : ℤ) : List Event :=
  List.replicate count (.sweep (hours hour) [] [(.episode, 90), (.standard, 30)])

def keptRun : List Event :=
  [.openFrame 1, .manifest (liveRecord 1 11 400) 0, .manifest (liveRecord 3 13 400) 0,
    .capture 1 .open_ [11, 12] 0, .manifest (liveRecord 2 12 400) 1, .missingEvidence [3],
    .create 0] ++ sweeps 8 6

theorem evidence_kept_sweep :
    (after sixHours 5 (stored [] [] []) keptRun).rows.map
        (fun r => (r.evidenceId, r.dataset.manifest.retentionClass)) =
        [(1, .episode), (3, .pinned), (2, .episode)] ∧
      Machine.Always (EvidenceRetention.step sixHours 5) (KeepsProtected sixHours 5) (stored [] [] [])
        keptRun ∧
      EvidenceThere (after sixHours 5 (stored [] [] []) keptRun) :=
  ⟨by decide, evidence_kept sixHours 5 [] [] [] .nil (List.forall_mem_nil _) keptRun
    (by decide)⟩

def purgedMeanwhile : List Event :=
  [.manifest (liveRecord 1 11 400) 0, .missingEvidence [1]] ++ sweeps 3 7 ++ [.create 0]

def arrivedLate : List Event :=
  [.openFrame 1, .capture 1 .open_ [11] 0] ++ sweeps 2 1 ++
    [.manifest (liveRecord 1 11 2000000) (hours 1)] ++ sweeps 2 1

/-- A sweep deletes the evidence of an investigation that is then created, and the evidence of a run
that an open episode has captured. -/
theorem evidence_lost :
    (¬ ∀ run, EvidenceThere (after sixHours 5 (stored [] [] []) run)) ∧
      ∃ run e, ¬ KeepsProtected sixHours 5 (after sixHours 5 (stored [] [] []) run) e := by
  refine ⟨fun h => ?_, arrivedLate, .sweep (hours 1) [] [], fun h => ?_⟩
  · have hthere := h purgedMeanwhile
    have hcreated : (after sixHours 5 (stored [] [] []) purgedMeanwhile).inquiries =
        [⟨[1], [], true⟩] := by decide
    have hrows : idsOf (after sixHours 5 (stored [] [] []) purgedMeanwhile).rows = [] := by
      decide
    obtain ⟨r, hr, -⟩ := hthere ⟨[1], [], true⟩ (hcreated ▸ List.mem_cons_self) rfl 1
      List.mem_cons_self
    have hid : r.evidenceId ∈ idsOf (after sixHours 5 (stored [] [] []) purgedMeanwhile).rows :=
      List.mem_map_of_mem hr
    exact absurd (hrows ▸ hid) List.not_mem_nil
  · have hprotected : ∃ r ∈ (after sixHours 5 (stored [] [] []) arrivedLate).rows,
        isProtected (after sixHours 5 (stored [] [] []) arrivedLate) r = true := by decide
    have hrows : idsOf (EvidenceRetention.step sixHours 5
        (after sixHours 5 (stored [] [] []) arrivedLate) (.sweep (hours 1) [] [])).1.rows = [] := by
      decide
    obtain ⟨r, hr, hopen⟩ := hprotected
    obtain ⟨r', hr', -⟩ := h r hr hopen
    have hid : r'.evidenceId ∈ idsOf (EvidenceRetention.step sixHours 5
        (after sixHours 5 (stored [] [] []) arrivedLate) (.sweep (hours 1) [] [])).1.rows :=
      List.mem_map_of_mem hr'
    exact absurd (hrows ▸ hid) List.not_mem_nil

end EvidenceRetention

end OpenBridge.Evidence
