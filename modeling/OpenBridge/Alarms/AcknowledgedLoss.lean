import OpenBridge.Alarms.NormalizedAlarmConsumer

/-!
# Alarms: what a committed offset acknowledges

A consumer accounts for every record below its position: the record is durable, or it is in the
batch, or the consumer has skipped it.  So a commit loses a record only when it passes over a
skipped one, or, for an unparsable record, over one of the batch.
-/

namespace OpenBridge.Alarms

open OpenBridge.Foundation

namespace NormalizedAlarmConsumer

variable {π : Type}

/-! ## Fields that the flush leaves alone -/

section Fields

variable (c : NormalizedAlarmConsumer π)

@[simp] theorem flush_batch : c.flush.batch = c.batch := by
  unfold flush; split <;> rfl

@[simp] theorem flush_skipped : c.flush.skipped = c.skipped := by
  unfold flush; split <;> rfl

@[simp] theorem flush_position : c.flush.position = c.position := by
  unfold flush; split <;> rfl

@[simp] theorem flush_offsets : c.flush.offsets = c.offsets := by
  unfold flush; split <;> rfl

variable (attempt : ℕ) (cancelled : Bool)

@[simp] theorem retry_batch : (c.retry attempt cancelled).batch = c.batch := by
  unfold retry; split <;> rfl

@[simp] theorem retry_skipped : (c.retry attempt cancelled).skipped = c.skipped := by
  unfold retry; split <;> rfl

@[simp] theorem retry_position : (c.retry attempt cancelled).position = c.position := by
  unfold retry; split <;> rfl

@[simp] theorem retry_offsets : (c.retry attempt cancelled).offsets = c.offsets := by
  unfold retry; split <;> rfl

variable (left : List (RecordId π)) (all : Bool)

@[simp] theorem deliver_batch : (c.deliver left all).batch = c.batch := by
  unfold deliver; split <;> rfl

@[simp] theorem deliver_skipped : (c.deliver left all).skipped = c.skipped := by
  unfold deliver; split <;> rfl

@[simp] theorem deliver_position : (c.deliver left all).position = c.position := by
  unfold deliver; split <;> rfl

@[simp] theorem deliver_offsets : (c.deliver left all).offsets = c.offsets := by
  unfold deliver; split <;> rfl

end Fields

/-! ## The records a consumer accounts for -/

def Accounts (durable : List (RecordId π)) (c : NormalizedAlarmConsumer π) (r : RecordId π) : Prop :=
  r ∈ durable ∨ r ∈ c.batch ∨ r ∈ c.skipped

variable (records : π → ℕ → Option Parsed)

def Below (durable : List (RecordId π)) (c : NormalizedAlarmConsumer π) (p : π) (n : ℕ) : Prop :=
  ∀ o < n, (records p o).isSome → c.Accounts durable ⟨p, o⟩

def PhaseSound (durable : List (RecordId π)) (c : NormalizedAlarmConsumer π) : Phase π → Prop
  | .deadLetteringRecord r => c.Below records durable r.partition r.offset
  | .committingRecord r => r ∈ durable ∧ c.Below records durable r.partition r.offset
  | .committing _ => ∀ r ∈ c.batch, r ∈ durable
  | .committingDeadLettered => ∀ r ∈ c.batch, r ∈ durable
  | .deadLettering left allDelivered =>
      allDelivered = true → ∀ r ∈ c.batch, r ∈ durable ∨ r ∈ left
  | _ => True

/-- Everything below a position or below an offset to be committed is accounted for. -/
structure Sound (durable : List (RecordId π)) (c : NormalizedAlarmConsumer π) : Prop where
  position : ∀ p n, c.position p = some n → c.Below records durable p n
  offsets : ∀ p n, c.offsets p = some n → c.Below records durable p n
  phase : c.PhaseSound records durable c.phase

theorem sound_started (durable : List (RecordId π)) : Sound records durable started where
  position := by intro p n h; exact absurd h (by simp [started])
  offsets := by intro p n h; exact absurd h (by simp [started])
  phase := trivial

variable {records} {durable durable' : List (RecordId π)} {c c' : NormalizedAlarmConsumer π}

theorem Below.mono {p : π} {n : ℕ} (h : c.Below records durable p n)
    (hacc : ∀ r, c.Accounts durable r → c'.Accounts durable' r) : c'.Below records durable' p n :=
  fun o ho hr => hacc _ (h o ho hr)

theorem Sound.keep (h : Sound records durable c)
    (hpos : ∀ p n, c'.position p = some n → c.position p = some n)
    (hoff : ∀ p n, c'.offsets p = some n → c.offsets p = some n)
    (hacc : ∀ r, c.Accounts durable r → c'.Accounts durable' r)
    (hphase : c'.PhaseSound records durable' c'.phase) : Sound records durable' c' where
  position := fun p n hp => (h.position p n (hpos p n hp)).mono hacc
  offsets := fun p n hp => (h.offsets p n (hoff p n hp)).mono hacc
  phase := hphase

theorem Sound.durable_mono (h : Sound records durable c) (hsub : ∀ r ∈ durable, r ∈ durable') :
    Sound records durable' c := by
  have hacc : ∀ r, c.Accounts durable r → c.Accounts durable' r :=
    fun r hr => hr.imp_left (hsub r)
  refine h.keep (fun _ _ hp => hp) (fun _ _ hp => hp) hacc ?_
  have hphase := h.phase
  cases hc : c.phase with
  | consuming => trivial
  | persisting attempt => trivial
  | deadLetteringRecord r =>
    rw [hc] at hphase
    exact Below.mono hphase hacc
  | committingRecord r =>
    rw [hc] at hphase
    exact ⟨hsub r hphase.1, hphase.2.mono hacc⟩
  | committing attempt =>
    rw [hc] at hphase
    exact fun r hr => hsub r (hphase r hr)
  | committingDeadLettered =>
    rw [hc] at hphase
    exact fun r hr => hsub r (hphase r hr)
  | deadLettering left all =>
    rw [hc] at hphase
    exact fun hall r hr => (hphase hall r hr).imp_left (hsub r)

theorem Sound.flush (h : Sound records durable c) (hc : c.phase = .consuming) :
    Sound records durable c.flush := by
  refine h.keep (by simp) (by simp) (fun r hr => by simpa [Accounts] using hr) ?_
  unfold NormalizedAlarmConsumer.flush
  split
  · rw [hc]; trivial
  · trivial

theorem Sound.retry (h : Sound records durable c) (attempt : ℕ) (cancelled : Bool) :
    Sound records durable (c.retry attempt cancelled) := by
  refine h.keep (by simp) (by simp) (fun r hr => by simpa [Accounts] using hr) ?_
  unfold NormalizedAlarmConsumer.retry
  split
  · trivial
  · exact fun _ r hr => .inr hr

theorem Sound.clear (h : Sound records durable c) (hbatch : ∀ r ∈ c.batch, r ∈ durable) :
    Sound records durable c.clear := by
  refine h.keep (fun _ _ hp => hp) (fun p n hp => absurd hp (by simp [NormalizedAlarmConsumer.clear]))
    ?_ trivial
  rintro r (hr | hr | hr)
  · exact .inl hr
  · exact .inl (hbatch r hr)
  · exact .inr (.inr hr)

theorem Sound.resume (h : Sound records durable c) :
    Sound records durable { c with phase := .consuming } :=
  h.keep (fun _ _ hp => hp) (fun _ _ hp => hp) (fun _ hr => hr) trivial

theorem Sound.deliver (h : Sound records durable c) (left : List (RecordId π)) (all : Bool)
    (hleft : all = true → ∀ r ∈ c.batch, r ∈ durable ∨ r ∈ left) :
    Sound records durable (c.deliver left all) := by
  refine h.keep (by simp) (by simp) (fun r hr => by simpa [Accounts] using hr) ?_
  unfold NormalizedAlarmConsumer.deliver
  split
  · intro r hr
    exact (hleft rfl r hr).resolve_right (List.not_mem_nil)
  · trivial
  · exact hleft

variable [DecidableEq π]

theorem accounts_filter {r : RecordId π} (hr : c'.Accounts durable' r) {s : RecordId π}
    (hskip : c'.skipped = c.skipped.filter (· ≠ r))
    (hdurable : ∀ s ∈ durable, s ∈ durable') (hbatch : ∀ s ∈ c.batch, s ∈ c'.batch)
    (hs : c.Accounts durable s) : c'.Accounts durable' s := by
  rcases hs with hs | hs | hs
  · exact .inl (hdurable s hs)
  · exact .inr (.inl (hbatch s hs))
  · rcases eq_or_ne s r with rfl | hne
    · exact hr
    · refine .inr (.inr ?_)
      rw [hskip]
      exact List.mem_filter.mpr ⟨hs, by simpa using hne⟩

theorem Sound.polled (h : Sound records durable c) {p : π} {offset : ℕ}
    (hnext : c.Next records p offset)
    (hpos : c'.position = Function.update c.position p (some (offset + 1)))
    (hoff : c'.offsets = c.offsets ∨ c'.offsets = Function.update c.offsets p (some offset))
    (hacc : ∀ r, c.Accounts durable r → c'.Accounts durable r)
    (hrecord : c'.Accounts durable ⟨p, offset⟩)
    (hphase : c'.phase = .consuming ∨ c'.phase = .persisting 1 ∨
      c'.phase = .deadLetteringRecord ⟨p, offset⟩) : Sound records durable c' := by
  obtain ⟨n, hn, hle, hgap⟩ := hnext
  have hbelow : c'.Below records durable p offset := by
    intro o ho hr
    rcases Nat.lt_or_ge o n with hlt | hge
    · exact hacc _ (h.position p n hn o hlt hr)
    · rw [hgap o ho hge] at hr
      exact absurd hr (by simp)
  have hthrough : c'.Below records durable p (offset + 1) := by
    intro o ho hr
    rcases Nat.lt_succ_iff_lt_or_eq.mp ho with hlt | rfl
    · exact hbelow o hlt hr
    · exact hrecord
  refine ⟨fun q m hq => ?_, fun q m hq => ?_, ?_⟩
  · rw [hpos] at hq
    rcases eq_or_ne q p with rfl | hne
    · obtain rfl : offset + 1 = m := by simpa using hq
      exact hthrough
    · rw [Function.update_of_ne hne] at hq
      exact (h.position q m hq).mono hacc
  · rcases hoff with hoff | hoff
    · rw [hoff] at hq
      exact (h.offsets q m hq).mono hacc
    · rw [hoff] at hq
      rcases eq_or_ne q p with rfl | hne
      · obtain rfl : offset = m := by simpa using hq
        exact hbelow
      · rw [Function.update_of_ne hne] at hq
        exact (h.offsets q m hq).mono hacc
  · rcases hphase with hphase | hphase | hphase <;> rw [hphase]
    · trivial
    · trivial
    · exact hbelow

theorem Sound.skipped (h : Sound records durable c) {p : π} {offset : ℕ}
    (hnext : c.Next records p offset)
    (hpos : c'.position = Function.update c.position p (some (offset + 1)))
    (hoff : c'.offsets = c.offsets) (hbatch : c'.batch = c.batch)
    (hskip : c'.skipped = c.skipped ++ [⟨p, offset⟩])
    (hphase : c'.phase = .consuming ∨ c'.phase = .persisting 1 ∨
      c'.phase = .deadLetteringRecord ⟨p, offset⟩) : Sound records durable c' := by
  refine h.polled hnext hpos (.inl hoff) (fun s hs => ?_) ?_ hphase
  · rcases hs with hs | hs | hs
    · exact .inl hs
    · exact .inr (.inl (by rwa [hbatch]))
    · exact .inr (.inr (by rw [hskip]; exact List.mem_append_left _ hs))
  · exact .inr (.inr (by rw [hskip]; exact List.mem_concat_self))

theorem Sound.poll (h : Sound records durable c) (hc : c.phase = .consuming) (p : π)
    (offset : ℕ) : Sound records durable (c.poll records p offset) := by
  unfold NormalizedAlarmConsumer.poll
  cases hparsed : records p offset with
  | none => exact h
  | some parsed =>
    dsimp only
    split
    · rename_i hnext
      cases parsed with
      | event =>
        have hrecord : ∀ d : NormalizedAlarmConsumer π, d.batch = c.batch ++ [⟨p, offset⟩] →
            d.Accounts durable ⟨p, offset⟩ :=
          fun d hd => .inr (.inl (by rw [hd]; exact List.mem_concat_self))
        have hkept : ∀ d : NormalizedAlarmConsumer π, d.batch = c.batch ++ [⟨p, offset⟩] →
            d.skipped = c.skipped.filter (· ≠ ⟨p, offset⟩) →
            ∀ r, c.Accounts durable r → d.Accounts durable r :=
          fun d hd hskip r hr => accounts_filter (hrecord d hd) hskip (fun _ hs => hs)
            (fun _ hs => by rw [hd]; exact List.mem_append_left _ hs) hr
        unfold handle
        dsimp only
        split
        · refine h.polled hnext (by simp) (.inr (by simp)) (hkept _ (by simp) (by simp))
            (hrecord _ (by simp)) (.inr (.inl ?_))
          simp [NormalizedAlarmConsumer.flush]
        · exact h.polled hnext rfl (.inr rfl) (hkept _ rfl rfl) (hrecord _ rfl) (.inl hc)
      | null =>
        unfold handle
        dsimp only
        split
        · refine h.skipped hnext (by simp) (by simp) (by simp) (by simp) ?_
          unfold NormalizedAlarmConsumer.flush
          split
          · exact .inl hc
          · exact .inr (.inl rfl)
        · exact h.skipped hnext rfl rfl rfl rfl (.inl hc)
      | unparsable => exact h.skipped hnext rfl rfl rfl rfl (.inr (.inr rfl))
      | failed => exact h.skipped hnext rfl rfl rfl rfl (.inl hc)
    · exact h

variable {committed : π → ℕ}

theorem Sound.step (h : Sound records durable c)
    (hcommitted : ∀ p, ∀ o < committed p, (records p o).isSome → ⟨p, o⟩ ∈ durable)
    (e : ConsumerEvent π) :
    Sound records (durable ++ (c.step records committed e).2) (c.step records committed e).1 := by
  have hphase := h.phase
  cases e with
  | crashed => exact sound_started records _
  | assigned p =>
    rw [NormalizedAlarmConsumer.step]
    split
    · rename_i hc
      rw [List.append_nil]
      refine ⟨fun q n hq => ?_, h.offsets, by dsimp only; rw [hc]; trivial⟩
      dsimp only at hq
      rcases eq_or_ne q p with rfl | hne
      · obtain rfl : committed q = n := by simpa using hq
        exact fun o ho hr => .inl (hcommitted q o ho hr)
      · rw [Function.update_of_ne hne] at hq
        exact h.position q n hq
    · rwa [List.append_nil]
  | revoked ps =>
    rw [NormalizedAlarmConsumer.step]
    split
    · rename_i hc
      rw [List.append_nil]
      refine Sound.flush (h.keep (fun p n hp => ?_) (fun _ _ hp => hp) (fun _ hr => hr) ?_) hc
      · dsimp only at hp
        split at hp
        · exact absurd hp (by simp)
        · exact hp
      · dsimp only
        rw [hc]
        trivial
    · rwa [List.append_nil]
  | polled p offset =>
    rw [NormalizedAlarmConsumer.step]
    split
    · rename_i hc
      rw [List.append_nil]
      exact h.poll hc p offset
    · rwa [List.append_nil]
  | idle =>
    rw [NormalizedAlarmConsumer.step]
    split
    · rename_i hc
      rw [List.append_nil]
      exact h.flush hc
    · rwa [List.append_nil]
  | saved =>
    rw [NormalizedAlarmConsumer.step]
    split
    · rename_i attempt hc
      refine (h.durable_mono fun _ hr => List.mem_append_left _ hr).keep (fun _ _ hp => hp)
        (fun _ _ hp => hp) (fun _ hr => hr) ?_
      exact fun r hr => List.mem_append_right _ hr
    · rwa [List.append_nil]
  | saveThrew cancelled =>
    rw [NormalizedAlarmConsumer.step]
    split
    · rw [List.append_nil]
      exact h.retry _ cancelled
    · rwa [List.append_nil]
  | delivered acknowledged =>
    unfold NormalizedAlarmConsumer.step
    dsimp only
    split
    · rename_i r hc
      rw [hc] at hphase
      have hmem : r ∈ durable ++ [r] := List.mem_concat_self
      have hacc : ∀ s, c.Accounts durable s → Accounts (durable ++ [r]) { c with
          phase := .committingRecord r, skipped := c.skipped.filter (· ≠ r) } s :=
        fun s hs => accounts_filter (.inl hmem) rfl (fun _ hs => List.mem_append_left _ hs)
          (fun _ hs => hs) hs
      exact h.keep (fun _ _ hp => hp) (fun _ _ hp => hp) hacc ⟨hmem, Below.mono hphase hacc⟩
    · rw [List.append_nil]
      exact h.resume
    · rename_i r left allDelivered hc
      rw [hc] at hphase
      refine (h.durable_mono fun _ hr => List.mem_append_left _ hr).deliver left allDelivered ?_
      intro hall s hs
      rcases hphase hall s hs with hs | hs
      · exact .inl (List.mem_append_left _ hs)
      · rcases List.mem_cons.mp hs with rfl | hs
        · exact .inl List.mem_concat_self
        · exact .inr hs
    · rw [List.append_nil]
      exact h.deliver _ false (fun hall => absurd hall Bool.false_ne_true)
    · rwa [List.append_nil]
  | committed =>
    rw [NormalizedAlarmConsumer.step]
    split
    · rw [List.append_nil]
      exact h.resume
    · rename_i hc
      rw [hc] at hphase
      rw [List.append_nil]
      exact h.clear hphase
    · rename_i hc
      rw [hc] at hphase
      rw [List.append_nil]
      exact h.clear hphase
    · rwa [List.append_nil]
  | commitThrew reached cancelled =>
    rw [NormalizedAlarmConsumer.step]
    split
    · rw [List.append_nil]
      exact h.resume
    · rw [List.append_nil]
      exact h.retry _ cancelled
    · rw [List.append_nil]
      exact h.resume
    · rwa [List.append_nil]

theorem Sound.pendingCommit (h : Sound records durable c) {p : π} {n : ℕ}
    (hn : c.pendingCommit p = some n)
    (hskip : ∀ r ∈ c.skipped, r.partition = p → n ≤ r.offset)
    (hbatch : ∀ s, c.phase = .committingRecord s → ∀ r ∈ c.batch, r.partition = p → n ≤ r.offset) :
    ∀ o < n, (records p o).isSome → ⟨p, o⟩ ∈ durable := by
  have hphase := h.phase
  -- After the flush, whatever is accounted for and was not skipped is durable.
  have hflushed : (∀ r ∈ c.batch, r ∈ durable) → c.offsets p = some n →
      ∀ o < n, (records p o).isSome → ⟨p, o⟩ ∈ durable := by
    intro hdurable hoff o ho hr
    rcases h.offsets p n hoff o ho hr with hr | hr | hr
    · exact hr
    · exact hdurable _ hr
    · exact absurd (hskip _ hr rfl) (by simpa using ho)
  unfold NormalizedAlarmConsumer.pendingCommit at hn
  split at hn
  · rename_i s hc
    rw [hc] at hphase
    split_ifs at hn with hp
    obtain rfl := Option.some.inj hn
    subst hp
    intro o ho hr
    rcases Nat.lt_succ_iff_lt_or_eq.mp ho with hlt | rfl
    · rcases hphase.2 o hlt hr with hr | hr | hr
      · exact hr
      · exact absurd (hbatch s hc _ hr rfl) (by simpa using ho)
      · exact absurd (hskip _ hr rfl) (by simpa using ho)
    · exact hphase.1
  · rename_i hc
    rw [hc] at hphase
    exact hflushed hphase hn
  · rename_i hc
    rw [hc] at hphase
    exact hflushed hphase hn
  · exact absurd hn (by simp)

end NormalizedAlarmConsumer

/-! ## Runs of the group -/

namespace ConsumerGroup

variable {ι π : Type} [DecidableEq ι] [DecidableEq π] (records : π → ℕ → Option Parsed)

/-- An offset that the step commits passes over no record that the consumer has skipped, and, when it
is committed for an unparsable record, over no record of its batch. -/
def PassesNothing (s : ConsumerGroup ι π) (i : ι × ConsumerEvent π) : Prop :=
  ∀ p n, i.2.stores p = true → (s.consumer i.1).pendingCommit p = some n →
    (∀ r ∈ (s.consumer i.1).skipped, r.partition = p → n ≤ r.offset) ∧
    ∀ t, (s.consumer i.1).phase = .committingRecord t →
      ∀ r ∈ (s.consumer i.1).batch, r.partition = p → n ≤ r.offset

structure Sound (durable : List (RecordId π)) (s : ConsumerGroup ι π) : Prop where
  committed : ∀ p, ∀ o < s.committed p, (records p o).isSome → ⟨p, o⟩ ∈ durable
  consumer : ∀ i, (s.consumer i).Sound records durable

variable {records} {durable : List (RecordId π)} {s : ConsumerGroup ι π}

theorem Sound.step (h : Sound records durable s) {i : ι × ConsumerEvent π}
    (hi : s.PassesNothing i) :
    Sound records (durable ++ (s.step records i).2) (s.step records i).1 := by
  have hsub : ∀ r ∈ durable, r ∈ durable ++ (s.step records i).2 :=
    fun r hr => List.mem_append_left _ hr
  refine ⟨fun p o ho hr => hsub _ ?_, fun j => ?_⟩
  · dsimp only [ConsumerGroup.step] at ho
    split at ho
    · rename_i hstores
      cases hn : (s.consumer i.1).pendingCommit p with
      | none =>
        rw [hn] at ho
        exact h.committed p o ho hr
      | some n =>
        rw [hn] at ho
        obtain ⟨hskip, hbatch⟩ := hi p n hstores hn
        exact (h.consumer i.1).pendingCommit hn hskip hbatch o ho hr
    · exact h.committed p o ho hr
  · dsimp only [ConsumerGroup.step]
    rcases eq_or_ne j i.1 with rfl | hne
    · rw [Function.update_self]
      exact (h.consumer i.1).step h.committed i.2
    · rw [Function.update_of_ne hne]
      exact (h.consumer j).durable_mono hsub

theorem sound_of_passesNothing {events : List (ι × ConsumerEvent π)}
    (h : Machine.Always (step records) PassesNothing start events) :
    Sound records (Machine.outputs (step records) start events)
      (Machine.stateAfter (step records) start events) := by
  induction events using List.reverseRecOn with
  | nil =>
    exact ⟨fun _ _ ho => absurd ho (Nat.not_lt_zero _), fun _ =>
      NormalizedAlarmConsumer.sound_started _ _⟩
  | append_singleton events i ih =>
    rw [Machine.always_concat] at h
    rw [Machine.outputs_concat, Machine.stateAfter_concat]
    exact (ih h.1).step h.2

/-- In every state of a run whose commits pass over nothing, what the committed offsets acknowledge is
durable. -/
theorem noLoss_of_passesNothing (records : π → ℕ → Option Parsed)
    (events : List (ι × ConsumerEvent π))
    (h : Machine.Always (step records) PassesNothing start events) :
    ∀ pre, pre <+: events → NoLoss records pre := by
  rintro pre ⟨post, rfl⟩
  rw [Machine.always_append] at h
  exact fun p o ho hr => (sound_of_passesNothing h.1).committed p o ho hr

omit [DecidableEq ι] in
theorem passesNothing_of_none_left {s : ConsumerGroup ι π} {i : ι × ConsumerEvent π}
    (hskipped : (s.consumer i.1).skipped = [])
    (hbatch : (s.consumer i.1).batch = [] ∨ ∀ t, (s.consumer i.1).phase ≠ .committingRecord t) :
    PassesNothing s i := by
  intro p n _ _
  rw [hskipped]
  refine ⟨nofun, fun t ht => ?_⟩
  rcases hbatch with hbatch | hphase
  · rw [hbatch]
    exact nofun
  · exact absurd ht (hphase t)

/-- Two events are polled, persisted and committed; then an unparsable record is written to the
dead-letter topic and committed. -/
theorem noLoss_of_passesNothing_sample :
    let records : Unit → ℕ → Option Parsed :=
      fun _ o => [Parsed.event, Parsed.event, Parsed.unparsable][o]?
    let events : List (Unit × ConsumerEvent Unit) :=
      [((), .assigned ()), ((), .polled () 0), ((), .polled () 1), ((), .idle), ((), .saved),
        ((), .committed), ((), .polled () 2), ((), .delivered true), ((), .committed)]
    (Machine.stateAfter (step records) start events).committed () = 3 ∧ NoLoss records events := by
  intro records events
  refine ⟨by decide, noLoss_of_passesNothing records events ?_ events List.prefix_rfl⟩
  -- nothing is skipped at the two commits, and the record of the second is alone
  have hleft : ((Machine.stateAfter (step records) start (events.take 5)).consumer ()).skipped = [] ∧
      ((Machine.stateAfter (step records) start (events.take 5)).consumer ()).phase = .committing 1 ∧
      ((Machine.stateAfter (step records) start (events.take 8)).consumer ()).skipped = [] ∧
      ((Machine.stateAfter (step records) start (events.take 8)).consumer ()).batch = [] := by
    decide
  obtain ⟨hskipped, hphase, hskipped', hbatch⟩ := hleft
  refine ⟨?_, ?_, ?_, ?_, ?_, ?_, ?_, ?_, ?_, trivial⟩
  case refine_6 =>
    exact passesNothing_of_none_left hskipped (.inr fun t ht => nomatch hphase.symm.trans ht)
  case refine_9 => exact passesNothing_of_none_left hskipped' (.inl hbatch)
  all_goals exact fun _ _ hstores => absurd hstores Bool.false_ne_true

/-- The commit of an unparsable record acknowledges an event that is still in the batch. -/
theorem batch_passed_over : ¬ ∀ (records : Unit → ℕ → Option Parsed)
    (events : List (Unit × ConsumerEvent Unit)), NoLoss records events := by
  intro h
  have hlost := h (fun _ o => [Parsed.event, Parsed.unparsable][o]?)
    [((), .assigned ()), ((), .polled () 0), ((), .polled () 1), ((), .delivered true),
      ((), .committed), ((), .crashed)] () 0
  revert hlost
  decide

end ConsumerGroup

end OpenBridge.Alarms
