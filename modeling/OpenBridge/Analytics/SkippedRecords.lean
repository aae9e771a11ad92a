import OpenBridge.Analytics.CplmConsumers

/-!
# Analytics: what a committed offset passes over

The loop goes on after a record that it could not apply, so the next offset that it stores passes
over that record.  As long as it applies and stores nothing more of a partition until it is assigned
again, every usable record below a committed offset has been applied.
-/

namespace OpenBridge.Analytics

open OpenBridge.Foundation

namespace ConsumerLoop

variable {π : Type} {reader : Reader} {consumer : CplmConsumer π}
  {records : π → ℕ → Option (Option String)} {s : ConsumerLoop π}

def Usable (reader : Reader) (consumer : CplmConsumer π)
    (records : π → ℕ → Option (Option String)) (p : π) (offset : ℕ) : Prop :=
  ∃ value, records p offset = some value ∧ consumer.handling reader p value = .applies

def AppliedBelow (reader : Reader) (consumer : CplmConsumer π)
    (records : π → ℕ → Option (Option String)) (s : ConsumerLoop π) (p : π) (n : ℕ) : Prop :=
  ∀ offset < n, Usable reader consumer records p offset → offset ∈ s.applied p

/-- Nothing was skipped: every usable record below a committed offset has been applied, and no record
was applied before the usable ones below it. -/
structure NothingSkipped (reader : Reader) (consumer : CplmConsumer π)
    (records : π → ℕ → Option (Option String)) (s : ConsumerLoop π) : Prop where
  committed : ∀ p, AppliedBelow reader consumer records s p (s.committed p)
  inOrder : ∀ p before offset after, s.applied p = before ++ offset :: after →
    ∀ lower < offset, Usable reader consumer records p lower → lower ∈ before

/-- A step that passes over no failed record: a record of a partition in which one was not applied
since the partition was assigned is not applied either, and its offset is not stored. -/
def StopsAtFailure (reader : Reader) (consumer : CplmConsumer π)
    (records : π → ℕ → Option (Option String)) (s : ConsumerLoop π) : LoopEvent π → Prop
  | .consumed p offset outcome =>
      s.failed p = true → ∀ value ∈ records p offset,
        consumer.handling reader p value = .throws ∨
          consumer.handling reader p value = .applies ∧ outcome = .failed
  | _ => True

instance (reader : Reader) (consumer : CplmConsumer π)
    (records : π → ℕ → Option (Option String)) (s : ConsumerLoop π) :
    ∀ e, Decidable (StopsAtFailure reader consumer records s e)
  | .consumed p offset outcome =>
      match h : records p offset with
      | none => isTrue fun _ value hvalue => by
          rw [h] at hvalue
          cases hvalue
      | some value =>
          decidable_of_iff (s.failed p = true → consumer.handling reader p value = .throws ∨
              consumer.handling reader p value = .applies ∧ outcome = .failed)
            ⟨fun hstops hfailed value' hvalue' => by
              obtain rfl : value = value' := Option.some.inj (h.symm.trans hvalue')
              exact hstops hfailed, fun hstops hfailed => hstops hfailed value h⟩
  | .assigned _ => isTrue trivial
  | .revoked _ => isTrue trivial
  | .idle => isTrue trivial
  | .committed _ => isTrue trivial

/-- What the steps keep: the usable records below the committed and the stored offsets have been
applied, and those below the position have as long as none has failed. -/
structure Accounted (reader : Reader) (consumer : CplmConsumer π)
    (records : π → ℕ → Option (Option String)) (s : ConsumerLoop π) : Prop
    extends NothingSkipped reader consumer records s where
  stored : ∀ p n, s.stored p = some n → AppliedBelow reader consumer records s p n
  position : ∀ p n, s.position p = some n → s.failed p = false →
    AppliedBelow reader consumer records s p n

theorem accounted_start :
    Accounted reader consumer records (start : ConsumerLoop π) where
  committed _ offset h := absurd h (Nat.not_lt_zero offset)
  inOrder p before offset after h := by
    cases before with
    | nil => cases h
    | cons _ _ => cases h
  stored _ _ h := by cases h
  position _ _ h := by cases h

theorem AppliedBelow.gap {p : π} {n offset : ℕ} (h : AppliedBelow reader consumer records s p n)
    (hgap : ∀ m < offset, n ≤ m → records p m = none) :
    AppliedBelow reader consumer records s p offset := by
  intro o ho husable
  rcases Nat.lt_or_ge o n with hn | hn
  · exact h o hn husable
  · obtain ⟨value, hvalue, -⟩ := husable
    rw [hgap o ho hn] at hvalue
    cases hvalue

theorem AppliedBelow.succ {p : π} {offset : ℕ}
    (h : AppliedBelow reader consumer records s p offset)
    (hlast : Usable reader consumer records p offset → offset ∈ s.applied p) :
    AppliedBelow reader consumer records s p (offset + 1) := by
  intro o ho husable
  rcases Nat.lt_succ_iff_lt_or_eq.mp ho with hlt | rfl
  · exact h o hlt husable
  · exact hlast husable

variable [DecidableEq π]

theorem Accounted.poll (h : Accounted reader consumer records s) {p : π} {offset : ℕ}
    {failed : π → Bool} (hfailed : ∀ q, s.failed q = true → failed q = true)
    (hnext : failed p = false → AppliedBelow reader consumer records s p (offset + 1)) :
    Accounted reader consumer records
      { s with
        position := Function.update s.position p (some (offset + 1))
        failed := failed } where
  committed := h.committed
  inOrder := h.inOrder
  stored := h.stored
  position q n hq hnot := by
    dsimp only at hq hnot
    rw [Function.update_apply] at hq
    split at hq
    · rename_i heq
      subst heq
      obtain rfl := Option.some.inj hq
      exact hnext hnot
    · refine h.position q n hq ?_
      cases hs : s.failed q with
      | false => rfl
      | true => exact absurd (hfailed q hs) (by rw [hnot]; exact Bool.false_ne_true)

theorem Accounted.storeOffset (h : Accounted reader consumer records s) {p : π} {offset : ℕ}
    (hbelow : AppliedBelow reader consumer records s p (offset + 1)) :
    Accounted reader consumer records (s.storeOffset p offset) where
  committed := h.committed
  inOrder := h.inOrder
  stored q n hq := by
    unfold ConsumerLoop.storeOffset at hq
    dsimp only at hq
    rw [Function.update_apply] at hq
    split at hq
    · rename_i heq
      subst heq
      obtain rfl := Option.some.inj hq
      exact hbelow
    · exact h.stored q n hq
  position := h.position

theorem mem_apply {p q : π} {offset o : ℕ} (h : o ∈ s.applied q) :
    o ∈ (s.apply p offset).applied q := by
  unfold ConsumerLoop.apply
  dsimp only
  rw [Function.update_apply]
  split
  · rename_i heq
    subst heq
    exact List.mem_append_left _ h
  · exact h

theorem mem_apply_self (s : ConsumerLoop π) (p : π) (offset : ℕ) :
    offset ∈ (s.apply p offset).applied p := by
  unfold ConsumerLoop.apply
  dsimp only
  rw [Function.update_self]
  exact List.mem_concat_self

theorem Accounted.apply (h : Accounted reader consumer records s) {p : π} {offset : ℕ}
    (hbelow : AppliedBelow reader consumer records s p offset) :
    Accounted reader consumer records (s.apply p offset) where
  committed q o ho husable := mem_apply (h.committed q o ho husable)
  inOrder q before o after heq := by
    unfold ConsumerLoop.apply at heq
    dsimp only at heq
    rw [Function.update_apply] at heq
    split at heq
    · rename_i hq
      subst hq
      rcases List.eq_nil_or_concat after with rfl | ⟨after', last, rfl⟩
      · obtain ⟨rfl, hlast⟩ := List.append_inj' heq rfl
        obtain rfl : offset = o := by simpa using hlast
        exact hbelow
      · have hsplit : s.applied q ++ [offset] = (before ++ o :: after') ++ [last] := by
          simpa using heq
        obtain ⟨hfront, -⟩ := List.append_inj' hsplit rfl
        exact h.inOrder q before o after' hfront
    · exact h.inOrder q before o after heq
  stored q n hq o ho husable := mem_apply (h.stored q n hq o ho husable)
  position q n hq hnot o ho husable := mem_apply (h.position q n hq hnot o ho husable)

theorem Accounted.step (h : Accounted reader consumer records s) (e : LoopEvent π)
    (hstops : StopsAtFailure reader consumer records s e) :
    Accounted reader consumer records (step reader consumer records s e).1 := by
  unfold ConsumerLoop.step
  cases e with
  | assigned p =>
    dsimp only
    refine ⟨⟨h.committed, h.inOrder⟩, ?_, ?_⟩
    · intro q n hq
      dsimp only at hq
      rw [Function.update_apply] at hq
      split at hq
      · cases hq
      · exact h.stored q n hq
    · intro q n hq hnot
      dsimp only at hq hnot
      rw [Function.update_apply] at hq hnot
      split at hq
      · rename_i heq
        subst heq
        obtain rfl := Option.some.inj hq
        exact h.committed q
      · rename_i hne
        rw [if_neg hne] at hnot
        exact h.position q n hq hnot
  | revoked ps =>
    dsimp only
    refine ⟨⟨h.committed, h.inOrder⟩, ?_, ?_⟩
    · intro q n hq
      dsimp only at hq
      split at hq
      · cases hq
      · exact h.stored q n hq
    · intro q n hq hnot
      dsimp only at hq
      split at hq
      · cases hq
      · exact h.position q n hq hnot
  | consumed p offset outcome =>
    dsimp only
    split
    · exact h
    · rename_i value hvalue
      split
      · rename_i hnext
        obtain ⟨n, hn, -, hgap⟩ := hnext
        have hstop := fun hfailed => hstops hfailed value hvalue
        have hbelow : s.failed p = false →
            AppliedBelow reader consumer records s p offset :=
          fun hnot => (h.position p n hn hnot).gap hgap
        have hvalue' : Usable reader consumer records p offset →
            consumer.handling reader p value = .applies := by
          rintro ⟨value', hrecord, happlies⟩
          rw [hvalue] at hrecord
          obtain rfl := Option.some.inj hrecord
          exact happlies
        cases hhandling : consumer.handling reader p value with
        | skips =>
          have hnot : s.failed p = false := by
            rw [hhandling] at hstop
            simpa using hstop
          have hsucc : AppliedBelow reader consumer records s p (offset + 1) :=
            (hbelow hnot).succ fun husable => by
              rw [hhandling] at hvalue'
              cases hvalue' husable
          exact (h.poll (fun _ hq => hq) fun _ => hsucc).storeOffset hsucc
        | throws =>
          refine h.poll (fun _ hq => hq) fun hnot => (hbelow hnot).succ fun husable => ?_
          rw [hhandling] at hvalue'
          cases hvalue' husable
        | applies =>
          cases outcome with
          | applied =>
            have hnot : s.failed p = false := by
              rw [hhandling] at hstop
              simpa using hstop
            have happlied := h.apply (hbelow hnot)
            have hsucc : AppliedBelow reader consumer records (s.apply p offset) p (offset + 1) :=
              AppliedBelow.succ (fun o ho husable => mem_apply (hbelow hnot o ho husable))
                fun _ => mem_apply_self s p offset
            exact (happlied.poll (fun _ hq => hq) fun _ => hsucc).storeOffset hsucc
          | appliedThenThrew =>
            have hnot : s.failed p = false := by
              rw [hhandling] at hstop
              simpa using hstop
            have happlied := h.apply (hbelow hnot)
            exact happlied.poll (fun _ hq => hq) fun _ =>
              AppliedBelow.succ (fun o ho husable => mem_apply (hbelow hnot o ho husable))
                fun _ => mem_apply_self s p offset
          | failed =>
            refine h.poll ?_ ?_
            · intro q hq
              rw [Function.update_apply]
              split
              · rfl
              · exact hq
            · intro hnot
              rw [Function.update_self] at hnot
              cases hnot
      · exact h
  | idle => exact h
  | committed p =>
    refine ⟨⟨?_, h.inOrder⟩, h.stored, h.position⟩
    intro q
    dsimp only
    rw [Function.update_apply]
    split
    · rename_i heq
      subst heq
      cases hstored : s.stored q with
      | none => exact h.committed q
      | some n => exact h.stored q n hstored
    · exact h.committed q

/-- In every run of a consumer that passes over no failed record, with any assignments, crashes and
answers of the database, nothing is skipped. -/
theorem nothingSkipped_of_stopsAtFailure (reader : Reader) (consumer : CplmConsumer π)
    (records : π → ℕ → Option (Option String)) (events : List (LoopEvent π))
    (h : Machine.Always (step reader consumer records) (StopsAtFailure reader consumer records)
      start events) :
    NothingSkipped reader consumer records (after reader consumer records events) :=
  (Machine.stateAfter_of_always _ (Accounted reader consumer records)
    (fun _ e haccounted hstops => haccounted.step e hstops) accounted_start h).toNothingSkipped

def verdict : String := "\x7b\"loop_id\":\"FIC-101\"\x7d"

def verdictReader : Reader where
  parse text := if text = verdict then some (.object [("loop_id", .text "FIC-101")]) else none
  tryParseGuid _ := false

def verdicts : Unit → ℕ → Option (Option String) := fun _ offset =>
  if offset < 2 then some (some verdict) else none

/-- The database fails on the first verdict, and the process is started again. -/
theorem nothingSkipped_after_restart :
    NothingSkipped verdictReader .frames verdicts
      (after verdictReader .frames verdicts
        [.assigned (), .consumed () 0 .failed, .revoked [()], .assigned (),
          .consumed () 0 .applied, .consumed () 1 .applied, .committed ()]) :=
  nothingSkipped_of_stopsAtFailure verdictReader .frames verdicts _ (by decide)

/-- The database fails on the first verdict and answers to the second: the offset that is committed
passes over the first. -/
theorem not_nothingSkipped_after_failure :
    ¬ NothingSkipped verdictReader .frames verdicts
      (after verdictReader .frames verdicts
        [.assigned (), .consumed () 0 .failed, .consumed () 1 .applied, .committed ()]) := by
  intro h
  have hbelow := h.committed () 0 (by decide) ⟨some verdict, rfl, by decide⟩
  exact absurd hbelow (by decide)

end ConsumerLoop

end OpenBridge.Analytics
