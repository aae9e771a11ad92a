import OpenBridge.EventFrames.EventActionStore

/-!
# Event frames: shelving under concurrent actions

An action writes what its rule accepted on a row that may have changed since.
-/

namespace OpenBridge.EventFrames

open OpenBridge.Foundation CheckThenAct

variable (maxHours : ℤ) {ι : Type} [DecidableEq ι]

abbrev ActionEvent (ι : Type) := CheckThenAct.Event ι OperatorAction ℤ FrameStep

abbrev ActionState (ι : Type) := CheckThenAct.State ι StoredEpisode OperatorAction ShelfAction

def afterActions (s : StoredEpisode) (events : List (ActionEvent ι)) : ActionState ι :=
  Machine.stateAfter (eventActions maxHours).step (Protocol.start s) events

def successes (s : StoredEpisode) (events : List (ActionEvent ι)) :
    List (CheckThenAct.Success OperatorAction ℤ FrameStep) :=
  Machine.outputs (eventActions maxHours).step (Protocol.start s) events

def Writes (s : ActionState ι) (e : ActionEvent ι) (a : OperatorAction) : Prop :=
  ∃ i now decided, e = .act i now ∧ s.inFlight i = some (a, decided)

def StoredEpisode.acknowledgements (s : StoredEpisode) : List EventActionRow :=
  s.actions.filter fun r => r.action = .acknowledged

/-- What is promised of the actions on a frame. -/
structure ShelvingSafe (s : StoredEpisode) (events : List (ActionEvent ι)) : Prop where
  /-- Some order of the successful actions stores the same under the rules. -/
  sequential : ∃ order, order.Perm (successes maxHours s events) ∧
    (eventActions maxHours).sequentially s order = some (afterActions maxHours s events).stored
  /-- An acknowledgement never ends an active shelf. -/
  shelfKept : ∀ pre e, pre ++ [e] <+: events → ∀ a note, Writes (afterActions maxHours s pre) e a →
    a.request = .acknowledge note → ∀ now,
      EventShelvingRules.isActiveShelf (afterActions maxHours s pre).stored.row.read now →
      EventShelvingRules.isActiveShelf (afterActions maxHours s (pre ++ [e])).stored.row.read now
  /-- A `SHELVED` row has an expiry. -/
  expiry : (afterActions maxHours s events).stored.row.shelfState = .shelved →
    (afterActions maxHours s events).stored.row.shelveUntil.isSome
  /-- A closed episode is not shelved. -/
  notClosed : ∀ pre e, pre ++ [e] <+: events → ∀ a until_ reason note,
    Writes (afterActions maxHours s pre) e a → a.request = .shelve until_ reason note →
      (afterActions maxHours s pre).stored.row.closed = false
  /-- An acknowledgement is recorded once. -/
  once : (afterActions maxHours s events).stored.acknowledgements.length ≤ 1

/-- A row that is stored between actions: a shelf has its expiry, and an acknowledgement is recorded
at most once and only of an acknowledged frame. -/
structure StoredEpisode.WellFormed (s : StoredEpisode) : Prop where
  expiry : s.row.shelfState = .shelved → s.row.shelveUntil.isSome
  once : s.acknowledgements.length ≤ 1
  acknowledged : s.acknowledgements ≠ [] → s.row.ackState = .acknowledged

/-- At the write of an action its rule still accepts the same, and an acknowledgement meets no row
that says `SHELVED` in `ack_state`. -/
def StillAccepted (s : ActionState ι) (e : ActionEvent ι) : Prop :=
  (eventActions maxHours).Stands s e ∧
    ∀ a note, Writes s e a → a.request = .acknowledge note → s.stored.row.ackState ≠ .shelved

variable {maxHours} {s : StoredEpisode} {a : OperatorAction} {d : ShelfAction}

theorem closed_of_shelve_accepted {until_ : ℤ} {reason note : Option String}
    (hrequest : a.request = .shelve until_ reason note) (h : a.decide maxHours s = some d) :
    s.row.closed = false := by
  cases hclosed : s.row.closed with
  | false => rfl
  | true =>
    rw [OperatorAction.decide, hrequest] at h
    dsimp only at h
    rw [EventShelvingRules.shelve, if_pos (show s.row.read.closed = true from hclosed)] at h
    exact absurd h (by simp)

theorem not_acknowledged_of_accepted {note : Option String}
    (hrequest : a.request = .acknowledge note) (h : a.decide maxHours s = some d) :
    s.row.ackState ≠ .acknowledged := by
  intro hack
  rw [OperatorAction.decide, hrequest] at h
  dsimp only at h
  rw [EventShelvingRules.acknowledge, if_pos (show s.row.read.ackState = .acknowledged from hack)]
    at h
  exact absurd h (by simp)

/-! ## Writes keep the stored rows well formed -/

theorem acknowledgements_record (action : RecordedAction) (actor : String) (now : ℤ)
    (until_ : Option ℤ) (reason : Option String) :
    (s.record action actor now until_ reason).acknowledgements =
      s.acknowledgements ++
        if action = .acknowledged then [⟨action, actor, now, until_, reason⟩] else [] := by
  unfold StoredEpisode.record StoredEpisode.acknowledgements
  rw [List.filter_append, List.filter_singleton]
  simp

theorem acknowledgements_shelveAsync {actor reason : String} {until_ now : ℤ} {update : Bool} :
    (s.shelveAsync actor until_ reason update now).acknowledgements = s.acknowledgements := by
  rw [StoredEpisode.shelveAsync, acknowledgements_record]
  cases update <;> exact List.append_nil _

theorem acknowledgements_unshelveAsync {actor : String} {reason : Option String} {now : ℤ} :
    (s.unshelveAsync actor reason now).acknowledgements = s.acknowledgements := by
  rw [StoredEpisode.unshelveAsync, acknowledgements_record]
  exact List.append_nil _

theorem StoredEpisode.WellFormed.keep {t : StoredEpisode} (h : s.WellFormed)
    (hexpiry : t.row.shelfState = .shelved → t.row.shelveUntil.isSome)
    (hsame : t.acknowledgements = s.acknowledgements)
    (hack : s.row.ackState = .acknowledged → t.row.ackState = .acknowledged) : t.WellFormed where
  expiry := hexpiry
  once := hsame ▸ h.once
  acknowledged hne := hack (h.acknowledged (hsame ▸ hne))

theorem ackWithoutShelf_of_acknowledged {r : EventFrameRow} (h : r.ackState = .acknowledged) :
    r.ackWithoutShelf = .acknowledged := by
  rw [EventFrameRow.ackWithoutShelf, h]
  rfl

theorem StoredEpisode.WellFormed.acted {now : ℤ} (h : s.WellFormed)
    (haccepted : a.decide maxHours s = some d) : (a.write d now s).WellFormed := by
  unfold OperatorAction.write
  cases hrequest : a.request with
  | acknowledge note =>
    have hnew : s.acknowledgements = [] := by
      by_contra hne
      exact not_acknowledged_of_accepted hrequest haccepted (h.acknowledged hne)
    have hone : ((s.acknowledgeAsync a.actor note now).acknowledgements).length = 1 := by
      rw [StoredEpisode.acknowledgeAsync, acknowledgements_record]
      change (s.acknowledgements ++ _).length = 1
      rw [hnew]
      rfl
    refine ⟨fun hshelved => ?_, hone.le, fun _ => rfl⟩
    change (if s.row.shelfState = .expired then ShelfState.none else s.row.shelfState) = _
      at hshelved
    change (if s.row.shelfState = .expired then none else s.row.shelveUntil).isSome
    split at hshelved
    · exact absurd hshelved (by simp)
    · rename_i hexpired
      rw [if_neg hexpired]
      exact h.expiry hshelved
  | shelve until_ reason note =>
    exact h.keep (fun _ => rfl) acknowledgements_shelveAsync ackWithoutShelf_of_acknowledged
  | unshelve reason =>
    refine h.keep (fun hshelved => ?_) acknowledgements_unshelveAsync
      ackWithoutShelf_of_acknowledged
    exact absurd (show ShelfState.none = .shelved from hshelved) (by simp)

theorem StoredEpisode.WellFormed.performed {b : FrameStep} {t : StoredEpisode} (h : s.WellFormed)
    (hb : b.perform s = some t) : t.WellFormed := by
  cases b with
  | expireDue now =>
    change s.expireDueAsync now = some t at hb
    unfold StoredEpisode.expireDueAsync at hb
    split at hb
    · rename_i u hu
      split_ifs at hb
      obtain rfl := Option.some.inj hb
      refine h.keep (fun hshelved => ?_) ?_ (fun hack => hack)
      · exact absurd (show ShelfState.expired = .shelved from hshelved) (by simp)
      · rw [acknowledgements_record]
        exact List.append_nil _
    · exact absurd hb (by simp)
  | close now =>
    change s.closeAsync now = some t at hb
    unfold StoredEpisode.closeAsync at hb
    split_ifs at hb
    obtain rfl := Option.some.inj hb
    exact h.keep h.expiry rfl (fun hack => hack)

theorem wellFormed_perform {x : CheckThenAct.Success OperatorAction ℤ FrameStep} {t : StoredEpisode}
    (h : s.WellFormed) (hx : (eventActions maxHours).perform s x = some t) : t.WellFormed := by
  cases x with
  | acted a now =>
    obtain ⟨d, hd, rfl⟩ := Option.map_eq_some_iff.mp hx
    exact h.acted hd
  | atomic b => exact h.performed hx

theorem isActiveShelf_acknowledgeAsync {actor : String} {note : Option String} {at_ now : ℤ}
    (hlegacy : s.row.ackState ≠ .shelved)
    (h : EventShelvingRules.isActiveShelf s.row.read now) :
    EventShelvingRules.isActiveShelf (s.acknowledgeAsync actor note at_).row.read now := by
  unfold EventShelvingRules.isActiveShelf at h ⊢
  rw [decide_eq_true_eq] at h ⊢
  obtain ⟨hshelved, hexpiry⟩ := h
  have hshelf : s.row.shelfState = .shelved := hshelved.resolve_right hlegacy
  have hkept : s.row.shelfState ≠ .expired := by rw [hshelf]; simp
  refine ⟨.inl ?_, ?_⟩
  · change (if s.row.shelfState = .expired then ShelfState.none else s.row.shelfState) = _
    rw [if_neg hkept, hshelf]
  · change ∃ u ∈ (if s.row.shelfState = .expired then none else s.row.shelveUntil), u > now
    rw [if_neg hkept]
    exact hexpiry

/-! ## Runs -/

variable {events : List (ActionEvent ι)}

theorem afterActions_act {pre : List (ActionEvent ι)} {i : ι} {now : ℤ}
    (h : (afterActions maxHours s pre).inFlight i = some (a, d)) :
    (afterActions maxHours s (pre ++ [.act i now])).stored =
      a.write d now (afterActions maxHours s pre).stored := by
  have hstep := (eventActions maxHours).step_act h now
  rw [afterActions, Machine.stateAfter_concat]
  exact congrArg (fun r => r.1.stored) hstep

/-- In every state of a run whose writes all meet a row on which their rules still accept the same,
the shelving is safe. -/
theorem shelvingSafe_of_stillAccepted (maxHours : ℤ) (s : StoredEpisode)
    (events : List (ActionEvent ι)) (hs : s.WellFormed)
    (h : Machine.Always (eventActions maxHours).step (StillAccepted maxHours) (Protocol.start s)
      events) :
    ∀ pre, pre <+: events → ShelvingSafe maxHours s pre := by
  rintro events' ⟨rest, rfl⟩
  replace h := ((Machine.always_append _ _ _ _ _).mp h).1
  have hstep : ∀ pre e, pre ++ [e] <+: events' → StillAccepted maxHours
      (afterActions maxHours s pre) e := by
    rintro pre e ⟨post, rfl⟩
    exact ((Machine.always_iff _ _).mp h) pre e post (by simp)
  have hstands : Machine.Always (eventActions maxHours).step (eventActions maxHours).Stands
      (Protocol.start s) events' :=
    Machine.always_of_always (eventActions maxHours).step (fun _ => True) (fun _ _ _ _ => trivial)
      (fun _ _ _ he => he.1) trivial h
  have hsequential := (eventActions maxHours).sequentially_outputs hstands
  have hwell : (afterActions maxHours s events').stored.WellFormed :=
    Protocol.sequentially_invariant (fun _ _ _ => wellFormed_perform) hs hsequential
  refine ⟨⟨_, List.Perm.refl _, hsequential⟩, ?_, hwell.expiry, ?_, hwell.once⟩
  · rintro pre e hpre a note ⟨i, now, d, rfl, hi⟩ hrequest at_ hactive
    rw [afterActions_act hi, OperatorAction.write, hrequest]
    exact isActiveShelf_acknowledgeAsync
      ((hstep pre _ hpre).2 a note ⟨i, now, d, rfl, hi⟩ hrequest) hactive
  · rintro pre e hpre a until_ reason note ⟨i, now, d, rfl, hi⟩ hrequest
    exact closed_of_shelve_accepted hrequest ((hstep pre _ hpre).1 a d hi)

theorem wellFormed_inserted (now : ℤ) : (StoredEpisode.inserted now).WellFormed where
  expiry h := absurd h (by simp [StoredEpisode.inserted])
  once := Nat.zero_le _
  acknowledged h := absurd rfl h

omit [DecidableEq ι] in
theorem stillAccepted_act {t : ActionState ι} {i : ι} {now : ℤ} (hi : t.inFlight i = some (a, d))
    (haccepted : a.decide maxHours t.stored = some d) (hlegacy : t.stored.row.ackState ≠ .shelved) :
    StillAccepted maxHours t (.act i now) := by
  refine ⟨fun b d' hb => ?_, fun _ _ _ _ => hlegacy⟩
  obtain ⟨rfl, rfl⟩ := Prod.mk.inj (Option.some.inj (hi.symm.trans hb))
  exact haccepted

omit [DecidableEq ι] in
theorem stillAccepted_check {t : ActionState ι} {i : ι} {b : OperatorAction} :
    StillAccepted maxHours t (.check i b) :=
  ⟨trivial, fun _ _ ⟨_, _, _, h, _⟩ => nomatch h⟩

omit [DecidableEq ι] in
theorem stillAccepted_atomic {t : ActionState ι} {b : FrameStep} :
    StillAccepted maxHours t (.atomic b) :=
  ⟨trivial, fun _ _ ⟨_, _, _, h, _⟩ => nomatch h⟩

/-- A frame is shelved, acknowledged while it is shelved, and returned when the shelf expires. -/
theorem shelvingSafe_of_stillAccepted_sample :
    let shelve : OperatorAction := ⟨.shelve 36000000000 (some "valve ordered") none, "ann", 0⟩
    let acknowledge : OperatorAction := ⟨.acknowledge none, "bob", 10⟩
    let events : List (ActionEvent ℕ) := [.check 0 shelve, .act 0 10, .check 1 acknowledge,
      .act 1 20, .atomic (.expireDue 36000000000), .atomic (.close 36000000010)]
    (afterActions 168 (.inserted 0) events).stored.actions.map EventActionRow.action =
        [.shelved, .acknowledged, .shelveExpired] ∧
      ShelvingSafe 168 (.inserted 0) events := by
  intro shelve acknowledge events
  refine ⟨by decide, shelvingSafe_of_stillAccepted 168 (.inserted 0) events
    (wellFormed_inserted 0) ?_ events List.prefix_rfl⟩
  exact ⟨stillAccepted_check,
    stillAccepted_act (a := shelve) (d := .shelved) (by decide) (by decide)
      (by decide),
    stillAccepted_check,
    stillAccepted_act (a := acknowledge) (d := .acknowledged) (by decide)
      (by decide) (by decide),
    stillAccepted_atomic, stillAccepted_atomic, trivial⟩

/-- Two operators read the frame before either of them acknowledges it. -/
theorem acknowledged_twice : ¬ ∀ (s : StoredEpisode) (events : List (ActionEvent ℕ)),
    s.WellFormed → ShelvingSafe 168 s events := by
  intro h
  have honce := (h (.inserted 0)
    [.check 0 ⟨.acknowledge none, "ann", 0⟩, .check 1 ⟨.acknowledge none, "bob", 0⟩, .act 0 10,
      .act 1 10] (wellFormed_inserted 0)).once
  revert honce
  decide

end OpenBridge.EventFrames
