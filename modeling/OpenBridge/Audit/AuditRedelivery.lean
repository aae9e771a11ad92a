import OpenBridge.Audit.ImmutableAuditRepository

/-!
# Audit service: the consumer of the audit events

`AuditEventConsumer`: the loop that takes a record, appends its event to the chain and commits the
offset after the database write.  Any exception but a `ConsumeException` ends the service, and the
host with it, which then starts again at the committed offsets.

`topic` says what the deserializer makes of the records of every partition.
-/

namespace OpenBridge.Audit

open OpenBridge.Foundation

/-- What `JsonSerializer.Deserialize` makes of the value of a record. -/
inductive Message
  /-- An audit event. -/
  | event (evt : AuditEvent)
  /-- JSON `null`. -/
  | null
  /-- An exception: no value, no JSON text, or one that is no audit event. -/
  | unreadable

inductive Outcome
  /-- Both answer. -/
  | answered
  /-- The transaction fails, and is rolled back. -/
  | writeFailed
  /-- The process ends, or `Commit` throws, after the transaction has been committed; the broker may
  have stored the offset. -/
  | commitFailed (reached : Bool)
  deriving DecidableEq

inductive ServiceEvent (π : Type)
  /-- The host starts. -/
  | started
  /-- `Consume` returns the next record of a partition. -/
  | consumed (p : π) (outcome : Outcome)
  /-- `Consume` throws a `ConsumeException`, or returns no message. -/
  | idle
  /-- The process ends between two records. -/
  | crashed
  deriving DecidableEq

/-- The stored events and offsets, and the offsets that are consumed next while the process runs. -/
structure AuditService (π : Type) where
  rows : List AuditEvent
  committed : π → ℕ
  position : Option (π → ℕ)

namespace AuditService

variable {π : Type} [DecidableEq π] (secretSalt : String) (topic : π → List Message)

def new : AuditService π := ⟨[], fun _ => 0, none⟩

def handle (s : AuditService π) (position : π → ℕ) (p : π) (outcome : Outcome) :
    Message → AuditService π
  | .unreadable => { s with position := none }
  | .null => { s with position := some (Function.update position p (position p + 1)) }
  | .event evt =>
      if outcome = .writeFailed then { s with position := none }
      else
        match appendAsync secretSalt s.rows evt with
        -- the insert violates the key: rolled back and thrown on
        | none => { s with position := none }
        | some rows =>
            let committed := Function.update s.committed p (position p + 1)
            match outcome with
            | .answered =>
                ⟨rows, committed, some (Function.update position p (position p + 1))⟩
            | .commitFailed true => ⟨rows, committed, none⟩
            | _ => ⟨rows, s.committed, none⟩

/-- One event.  Nothing is emitted: what counts is what is stored. -/
def step (s : AuditService π) : ServiceEvent π → AuditService π × List Empty
  | .started =>
      match s.position with
      | none => ({ s with position := some s.committed }, [])
      | some _ => (s, [])
  | .consumed p outcome =>
      match s.position with
      | none => (s, [])
      | some position =>
          match (topic p)[position p]? with
          | none => (s, [])
          | some message => (s.handle secretSalt position p outcome message, [])
  | .idle => (s, [])
  | .crashed => ({ s with position := none }, [])

def after (events : List (ServiceEvent π)) : AuditService π :=
  Machine.stateAfter (step secretSalt topic) new events

def resumed (s : AuditService π) (ps : List π) : AuditService π :=
  Machine.stateAfter (step secretSalt topic) { s with position := some s.committed }
    (ps.map fun p => .consumed p .answered)

end AuditService

/-!
# Audit service: redelivery

A record that is delivered again carries an id that is stored, so the insert is refused and the
service ends; it starts again at the same record.
-/

def Stored (rows : List AuditEvent) (eventId : Guid) : Prop := ∃ row ∈ rows, row.eventId = eventId

variable {secretSalt : String}

theorem appendAsync_eq_some_iff {rows rows' : List AuditEvent} {evt : AuditEvent} :
    appendAsync secretSalt rows evt = some rows' ↔
      rows' = rows ++ [linked secretSalt rows evt] ∧ ¬ Stored rows evt.eventId ∧
        ∀ row ∈ rows, row.currentHash ≠ (linked secretSalt rows evt).currentHash := by
  have hrefused : (rows.any fun row => row.eventId == (linked secretSalt rows evt).eventId ||
      row.currentHash == (linked secretSalt rows evt).currentHash) = true ↔
        Stored rows evt.eventId ∨
          ∃ row ∈ rows, row.currentHash = (linked secretSalt rows evt).currentHash := by
    simp only [List.any_eq_true, Bool.or_eq_true, beq_iff_eq, Stored, and_or_left, exists_or]
    exact Iff.rfl
  unfold appendAsync
  dsimp only
  rw [ite_eq_iff]
  simp only [hrefused, reduceCtorEq, and_false, false_or, Option.some.injEq, not_or, not_exists,
    not_and]
  constructor
  · rintro ⟨⟨hid, hhash⟩, rfl⟩
    exact ⟨rfl, hid, hhash⟩
  · rintro ⟨rfl, hid, hhash⟩
    exact ⟨⟨hid, hhash⟩, rfl⟩

variable {rows rows' : List AuditEvent}

theorem Stored.mono {id : Guid} (h : Stored rows id)
    (hgrow : rows <+: rows') : Stored rows' id := by
  obtain ⟨row, hrow, hid⟩ := h
  exact ⟨row, hgrow.subset hrow, hid⟩

theorem stored_concat (rows : List AuditEvent) (evt : AuditEvent) :
    Stored (rows ++ [linked secretSalt rows evt]) evt.eventId :=
  ⟨_, List.mem_concat_self, rfl⟩

theorem nodup_concat {evt : AuditEvent}
    (h : (rows.map AuditEvent.eventId).Nodup) (hnew : ¬ Stored rows evt.eventId) :
    ((rows ++ [linked secretSalt rows evt]).map AuditEvent.eventId).Nodup := by
  rw [List.map_append]
  refine h.append (List.nodup_singleton _) ?_
  intro id hid hlast
  obtain ⟨row, hrow, rfl⟩ := List.mem_map.mp hid
  rw [List.map_singleton, List.mem_singleton] at hlast
  exact hnew ⟨row, hrow, hlast⟩

namespace AuditService

variable {π : Type} {topic : π → List Message} {s t : AuditService π}

/-! ## The states that are reached -/

/-- Offsets are committed in the partitions, and only of events that are stored; what is stored came
from the partitions, and no id is stored twice. -/
structure Sound (topic : π → List Message) (s : AuditService π) : Prop where
  committed : ∀ p, s.committed p ≤ (topic p).length
  position : ∀ pos, s.position = some pos →
    ∀ p, s.committed p ≤ pos p ∧ pos p ≤ (topic p).length
  below : ∀ pos, s.position = some pos → ∀ p i evt, i < pos p →
    (topic p)[i]? = some (.event evt) → Stored s.rows evt.eventId
  stored : ∀ p i evt, i < s.committed p → (topic p)[i]? = some (.event evt) →
    Stored s.rows evt.eventId
  origin : ∀ id, Stored s.rows id → ∃ p evt, .event evt ∈ topic p ∧ evt.eventId = id
  distinct : (s.rows.map AuditEvent.eventId).Nodup

theorem sound_new : Sound topic (new : AuditService π) where
  committed p := Nat.zero_le _
  position pos h := by cases h
  below pos h := by cases h
  stored p i evt h := absurd h (Nat.not_lt_zero i)
  origin := by
    rintro _ ⟨_, hrow, -⟩
    cases hrow
  distinct := List.nodup_nil

theorem Sound.ended (h : Sound topic s) : Sound topic { s with position := none } where
  committed := h.committed
  position pos hpos := by cases hpos
  below pos hpos := by cases hpos
  stored := h.stored
  origin := h.origin
  distinct := h.distinct

theorem lt_length {p : π} {n : ℕ} {message : Message} (h : (topic p)[n]? = some message) :
    n < (topic p).length :=
  (List.getElem?_eq_some_iff.mp h).1

/-! ## Pending records -/

def Pending (topic : π → List Message) (s : AuditService π) (bound : π → ℕ) (p : π) (i : ℕ)
    (message : Message) : Prop :=
  s.committed p ≤ i ∧ i < bound p ∧ (topic p)[i]? = some message

/-- The pending records before a bound can be handled: each is readable, and the ids of their events
are neither stored nor pending twice. -/
structure Acceptable (topic : π → List Message) (s : AuditService π) (bound : π → ℕ) : Prop where
  readable : ∀ p i, ¬ Pending topic s bound p i .unreadable
  fresh : ∀ p i evt, Pending topic s bound p i (.event evt) → ¬ Stored s.rows evt.eventId
  distinct : ∀ p i evt q j evt', Pending topic s bound p i (.event evt) →
    Pending topic s bound q j (.event evt') → evt.eventId = evt'.eventId → p = q ∧ i = j

def Unblocked (topic : π → List Message) (s : AuditService π) : Prop :=
  Acceptable topic s fun p => (topic p).length

/-- What holds while the service goes on from a state: it has stored the events of the records that
it has passed and no others, and could handle each of them. -/
structure Along (topic : π → List Message) (s t : AuditService π) : Prop where
  grown : s.rows <+: t.rows
  passed : ∀ pos, t.position = some pos → (∀ p, s.committed p ≤ pos p) ∧
    Acceptable topic s pos ∧
    ∀ p i evt, Pending topic s pos p i (.event evt) → Stored t.rows evt.eventId
  origin : ∀ pos, t.position = some pos → ∀ id, Stored t.rows id →
    Stored s.rows id ∨ ∃ p i evt, Pending topic s pos p i (.event evt) ∧ evt.eventId = id

theorem along_start (s : AuditService π) :
    Along topic s { s with position := some s.committed } where
  grown := List.prefix_rfl
  passed := by
    rintro _ ⟨⟩
    have hnone : ∀ p i message, ¬ Pending topic s s.committed p i message := by
      rintro p i message ⟨hle, hlt, -⟩
      exact absurd hlt (not_lt.mpr hle)
    exact ⟨fun p => le_rfl, ⟨fun p i => hnone p i _, fun p i evt h => absurd h (hnone p i _),
      fun p i evt q j evt' h => absurd h (hnone p i _)⟩, fun p i evt h => absurd h (hnone p i _)⟩
  origin _ _ _ h := Or.inl h

variable [DecidableEq π]

/-! ## One record -/

theorem below_update {pos : π → ℕ} {rows rows' : List AuditEvent} {p : π} {message : Message}
    (hmessage : (topic p)[pos p]? = some message) (hgrow : rows <+: rows')
    (h : ∀ q i evt, i < pos q → (topic q)[i]? = some (.event evt) → Stored rows evt.eventId)
    (hlast : ∀ evt, message = .event evt → Stored rows' evt.eventId) :
    ∀ q i evt, i < Function.update pos p (pos p + 1) q → (topic q)[i]? = some (.event evt) →
      Stored rows' evt.eventId := by
  intro q i evt hi hevt
  by_cases hq : q = p
  · subst hq
    rw [Function.update_self] at hi
    rcases Nat.lt_succ_iff_lt_or_eq.mp hi with hi | rfl
    · exact (h q i evt hi hevt).mono hgrow
    · rw [hmessage] at hevt
      exact hlast evt (Option.some.inj hevt)
  · rw [Function.update_of_ne hq] at hi
    exact (h q i evt hi hevt).mono hgrow

theorem position_update {pos bound : π → ℕ} {p : π} (h : ∀ q, bound q ≤ pos q) (q : π) :
    bound q ≤ Function.update pos p (pos p + 1) q := by
  by_cases hq : q = p
  · subst hq
    rw [Function.update_self]
    exact (h q).trans (Nat.le_succ _)
  · rw [Function.update_of_ne hq]
    exact h q

theorem update_le_length {pos : π → ℕ} {p : π} {message : Message}
    (hmessage : (topic p)[pos p]? = some message) (h : ∀ q, pos q ≤ (topic q).length) (q : π) :
    Function.update pos p (pos p + 1) q ≤ (topic q).length := by
  by_cases hq : q = p
  · subst hq
    rw [Function.update_self]
    exact lt_length hmessage
  · rw [Function.update_of_ne hq]
    exact h q

theorem Sound.handle (h : Sound topic s) {pos : π → ℕ} (hpos : s.position = some pos) {p : π}
    {message : Message} (hmessage : (topic p)[pos p]? = some message) (outcome : Outcome) :
    Sound topic (s.handle secretSalt pos p outcome message) := by
  have hbelow := h.below pos hpos
  have hposition := h.position pos hpos
  have hlength := update_le_length hmessage fun q => (hposition q).2
  unfold AuditService.handle
  cases message with
  | unreadable => exact h.ended
  | null =>
    refine ⟨h.committed, ?_, ?_, h.stored, h.origin, h.distinct⟩
    · rintro _ ⟨⟩ q
      exact ⟨position_update (fun q => (hposition q).1) q, hlength q⟩
    · rintro _ ⟨⟩
      exact below_update hmessage List.prefix_rfl hbelow fun evt hevt => by cases hevt
  | event evt =>
    dsimp only
    split
    · exact h.ended
    · split
      · exact h.ended
      · rename_i rows happend
        obtain ⟨rfl, hnew, -⟩ := appendAsync_eq_some_iff.mp happend
        have hgrow : s.rows <+: s.rows ++ [linked secretSalt s.rows evt] :=
          List.prefix_append _ _
        have hpast := below_update hmessage hgrow hbelow fun e he => by
          obtain rfl := Message.event.inj he
          exact stored_concat s.rows evt
        have hdistinct : ((s.rows ++ [linked secretSalt s.rows evt]).map
            AuditEvent.eventId).Nodup := nodup_concat h.distinct hnew
        have horigin : ∀ id, Stored (s.rows ++ [linked secretSalt s.rows evt]) id →
            ∃ q e, .event e ∈ topic q ∧ e.eventId = id := by
          rintro id ⟨row, hrow, hid⟩
          rcases List.mem_append.mp hrow with hrow | hrow
          · exact h.origin id ⟨row, hrow, hid⟩
          · obtain rfl := List.mem_singleton.mp hrow
            exact ⟨p, evt, List.mem_of_getElem? hmessage, hid⟩
        -- the committed offset is past the record, or where it was
        have hcommitted : ∀ q, Function.update s.committed p (pos p + 1) q ≤
            Function.update pos p (pos p + 1) q := by
          intro q
          by_cases hq : q = p
          · subst hq
            rw [Function.update_self, Function.update_self]
          · rw [Function.update_of_ne hq, Function.update_of_ne hq]
            exact (hposition q).1
        split
        · refine ⟨fun q => (hcommitted q).trans (hlength q), ?_, ?_, ?_, horigin, hdistinct⟩
          · rintro _ ⟨⟩ q
            exact ⟨hcommitted q, hlength q⟩
          · rintro _ ⟨⟩
            exact hpast
          · intro q i e hi
            exact hpast q i e (hi.trans_le (hcommitted q))
        · refine ⟨fun q => (hcommitted q).trans (hlength q), nofun, nofun, ?_, horigin, hdistinct⟩
          intro q i e hi
          exact hpast q i e (hi.trans_le (hcommitted q))
        · refine ⟨h.committed, nofun, nofun, ?_, horigin, hdistinct⟩
          intro q i e hi he
          exact (h.stored q i e hi he).mono hgrow

theorem Sound.step (h : Sound topic s) (e : ServiceEvent π) :
    Sound topic (step secretSalt topic s e).1 := by
  unfold AuditService.step
  cases e with
  | started =>
    dsimp only
    split
    · refine ⟨h.committed, ?_, ?_, h.stored, h.origin, h.distinct⟩
      · rintro _ ⟨⟩ p
        exact ⟨le_rfl, h.committed p⟩
      · rintro _ ⟨⟩
        exact h.stored
    · exact h
  | consumed p outcome =>
    dsimp only
    split
    · exact h
    · rename_i pos hpos
      split
      · exact h
      · rename_i message hmessage
        exact h.handle hpos hmessage outcome
  | idle => exact h
  | crashed => exact h.ended

theorem sound_after (events : List (ServiceEvent π)) :
    Sound topic (after secretSalt topic events) :=
  Machine.invariant (Sound topic) sound_new (fun _ e h => h.step e) events

/-! ## Going on after a restart -/

/-- However the partitions are polled after a restart, often enough each: the service has consumed
every record and stored every event, and has left what was stored as it was. -/
def GoesOn (secretSalt : String) (topic : π → List Message) (s : AuditService π) : Prop :=
  ∀ ps : List π, (∀ p, (topic p).length ≤ s.committed p + ps.count p) →
    (s.resumed secretSalt topic ps).position = some (fun p => (topic p).length) ∧
      (∀ p evt, .event evt ∈ topic p → Stored (s.resumed secretSalt topic ps).rows evt.eventId) ∧
      s.rows <+: (s.resumed secretSalt topic ps).rows ∧
      ((s.resumed secretSalt topic ps).rows.map AuditEvent.eventId).Nodup

/-- No event of the topic gets the hash of a stored one: the digests do not collide along the runs of
this topic. -/
def CollisionFree (secretSalt : String) (topic : π → List Message) : Prop :=
  ∀ (events : List (ServiceEvent π)) (pos : π → ℕ) (p : π) (evt : AuditEvent),
    (after secretSalt topic events).position = some pos → (topic p)[pos p]? = some (.event evt) →
    ¬ Stored (after secretSalt topic events).rows evt.eventId →
    ∀ row ∈ (after secretSalt topic events).rows,
      row.currentHash ≠ (linked secretSalt (after secretSalt topic events).rows evt).currentHash

theorem resumed_after (events : List (ServiceEvent π)) (ps : List π) :
    (after secretSalt topic events).resumed secretSalt topic ps =
      after secretSalt topic
        (events ++ [.crashed, .started] ++ ps.map fun p => .consumed p .answered) := by
  unfold resumed after
  rw [Machine.stateAfter_append, Machine.stateAfter_append]
  rfl

theorem pending_update {pos : π → ℕ} {p q : π} {i : ℕ} {message m : Message}
    (hmessage : (topic p)[pos p]? = some message)
    (h : Pending topic s (Function.update pos p (pos p + 1)) q i m) :
    Pending topic s pos q i m ∨ q = p ∧ i = pos p ∧ m = message := by
  obtain ⟨hle, hlt, hm⟩ := h
  by_cases hq : q = p
  · subst hq
    rw [Function.update_self] at hlt
    rcases Nat.lt_succ_iff_lt_or_eq.mp hlt with hlt | rfl
    · exact Or.inl ⟨hle, hlt, hm⟩
    · rw [hmessage] at hm
      exact Or.inr ⟨rfl, rfl, (Option.some.inj hm).symm⟩
  · rw [Function.update_of_ne hq] at hlt
    exact Or.inl ⟨hle, hlt, hm⟩

theorem Pending.update {pos : π → ℕ} {p q : π} {i : ℕ} {message : Message}
    (h : Pending topic s pos q i message) :
    Pending topic s (Function.update pos p (pos p + 1)) q i message :=
  ⟨h.1, h.2.1.trans_le (position_update (fun _ => le_rfl) q), h.2.2⟩

theorem Along.handle (h : Along topic s t) {pos : π → ℕ} (hpos : t.position = some pos) {p : π}
    {message : Message} (hmessage : (topic p)[pos p]? = some message) :
    Along topic s (t.handle secretSalt pos p .answered message) := by
  obtain ⟨hcommitted, hacceptable, hstored⟩ := h.passed pos hpos
  have hnext := position_update (p := p) hcommitted
  unfold AuditService.handle
  cases message with
  | unreadable => exact ⟨h.grown, nofun, nofun⟩
  | null =>
    refine ⟨h.grown, ?_, ?_⟩
    rotate_left
    · rintro _ ⟨⟩ id hid
      rcases h.origin pos hpos id hid with hold | ⟨q, i, evt, hpending, rfl⟩
      · exact Or.inl hold
      · exact Or.inr ⟨q, i, evt, hpending.update, rfl⟩
    rintro _ ⟨⟩
    -- the record carries no event, so the pending events are those before it
    have hevents : ∀ q i evt, Pending topic s (Function.update pos p (pos p + 1)) q i (.event evt) →
        Pending topic s pos q i (.event evt) := by
      intro q i evt hpending
      rcases pending_update hmessage hpending with hpending | ⟨-, -, hnull⟩
      · exact hpending
      · cases hnull
    refine ⟨hnext, ⟨?_, ?_, ?_⟩, fun q i evt hq => hstored q i evt (hevents q i evt hq)⟩
    · intro q i hpending
      rcases pending_update hmessage hpending with hpending | ⟨-, -, hnull⟩
      · exact hacceptable.readable q i hpending
      · cases hnull
    · exact fun q i evt hq => hacceptable.fresh q i evt (hevents q i evt hq)
    · exact fun q i evt q' j evt' hq hq' =>
        hacceptable.distinct q i evt q' j evt' (hevents q i evt hq) (hevents q' j evt' hq')
  | event evt =>
    dsimp only
    split
    · exact ⟨h.grown, nofun, nofun⟩
    · split
      · exact ⟨h.grown, nofun, nofun⟩
      · rename_i rows happend
        obtain ⟨rfl, hnew, -⟩ := appendAsync_eq_some_iff.mp happend
        have hgrow : t.rows <+: t.rows ++ [linked secretSalt t.rows evt] :=
          List.prefix_append _ _
        refine ⟨h.grown.trans hgrow, ?_, ?_⟩
        rotate_left
        · rintro _ ⟨⟩ id ⟨row, hrow, hid⟩
          rcases List.mem_append.mp hrow with hrow | hrow
          · rcases h.origin pos hpos id ⟨row, hrow, hid⟩ with hold | ⟨q, i, e, hpending, rfl⟩
            · exact Or.inl hold
            · exact Or.inr ⟨q, i, e, hpending.update, rfl⟩
          · obtain rfl := List.mem_singleton.mp hrow
            refine Or.inr ⟨p, pos p, evt, ⟨hcommitted p, ?_, hmessage⟩, hid⟩
            rw [Function.update_self]
            exact Nat.lt_succ_self _
        rintro _ ⟨⟩
        refine ⟨hnext, ⟨?_, ?_, ?_⟩, ?_⟩
        · intro q i hpending
          rcases pending_update hmessage hpending with hpending | ⟨-, -, hevent⟩
          · exact hacceptable.readable q i hpending
          · cases hevent
        · intro q i e hpending hold
          rcases pending_update hmessage hpending with hpending | ⟨-, -, hevent⟩
          · exact hacceptable.fresh q i e hpending hold
          · obtain rfl := Message.event.inj hevent
            exact hnew (hold.mono h.grown)
        · intro q i e q' j e' hq hq' hid
          rcases pending_update hmessage hq with hold | ⟨hqp, hip, hevent⟩
          · rcases pending_update hmessage hq' with hold' | ⟨-, -, hevent'⟩
            · exact hacceptable.distinct q i e q' j e' hold hold' hid
            · obtain rfl := Message.event.inj hevent'
              exact absurd (hid ▸ hstored q i e hold) hnew
          · rcases pending_update hmessage hq' with hold' | ⟨hqp', hip', -⟩
            · obtain rfl := Message.event.inj hevent
              exact absurd (hid ▸ hstored q' j e' hold') hnew
            · exact ⟨hqp.trans hqp'.symm, hip.trans hip'.symm⟩
        · intro q i e hq
          rcases pending_update hmessage hq with hq | ⟨-, -, hevent⟩
          · exact (hstored q i e hq).mono hgrow
          · obtain rfl := Message.event.inj hevent
            exact stored_concat t.rows e

theorem resumed_concat (s : AuditService π) (ps : List π) (p : π) :
    s.resumed secretSalt topic (ps ++ [p]) =
      (step secretSalt topic (s.resumed secretSalt topic ps) (.consumed p .answered)).1 := by
  unfold resumed
  rw [List.map_append, List.map_singleton, Machine.stateAfter_concat]

theorem along_resumed (s : AuditService π) (ps : List π) :
    Along topic s (s.resumed secretSalt topic ps) := by
  induction ps using List.reverseRecOn with
  | nil => exact along_start s
  | append_singleton ps p ih =>
    rw [resumed_concat]
    unfold AuditService.step
    dsimp only
    split
    · exact ih
    · rename_i pos hpos
      split
      · exact ih
      · rename_i message hmessage
        exact ih.handle hpos hmessage

theorem exists_polls [Fintype π] (topic : π → List Message) :
    ∃ ps : List π, ∀ p, (topic p).length ≤ ps.count p := by
  refine ⟨Finset.univ.toList.flatMap fun p => List.replicate (topic p).length p, fun p => ?_⟩
  rw [List.count_flatMap]
  have hmem : p ∈ (Finset.univ : Finset π).toList := Finset.mem_toList.mpr (Finset.mem_univ p)
  refine le_trans ?_ (List.le_sum_of_mem (List.mem_map.mpr ⟨p, hmem, rfl⟩))
  rw [Function.comp_apply, List.count_replicate_self]

theorem unblocked_of_goesOn [Fintype π] (h : GoesOn secretSalt topic s) : Unblocked topic s := by
  obtain ⟨ps, hps⟩ := exists_polls topic
  obtain ⟨hposition, -⟩ := h ps fun p => (hps p).trans (Nat.le_add_left _ _)
  exact ((along_resumed s ps).passed _ hposition).2.1

theorem position_resumed {events : List (ServiceEvent π)} (hfree : CollisionFree secretSalt topic)
    (h : Unblocked topic (after secretSalt topic events)) (ps : List π) :
    ∃ pos, ((after secretSalt topic events).resumed secretSalt topic ps).position = some pos ∧
      ∀ p, pos p = min (topic p).length
        ((after secretSalt topic events).committed p + ps.count p) := by
  have hsound : Sound topic (after secretSalt topic events) := sound_after events
  induction ps using List.reverseRecOn with
  | nil =>
    refine ⟨_, rfl, fun p => ?_⟩
    rw [List.count_nil, Nat.add_zero, Nat.min_eq_right (hsound.committed p)]
  | append_singleton ps p ih =>
    obtain ⟨pos, hpos, hcount⟩ := ih
    have halong : Along topic (after secretSalt topic events)
        ((after secretSalt topic events).resumed secretSalt topic ps) := along_resumed _ ps
    obtain ⟨hcommitted, -, -⟩ := halong.passed pos hpos
    have horigin := halong.origin
    have hother : ∀ q, q ≠ p → (ps ++ [p]).count q = ps.count q := fun q hq => by
      rw [List.count_append, List.count_singleton, if_neg (by simpa using hq.symm), Nat.add_zero]
    have hself : (ps ++ [p]).count p = ps.count p + 1 := by
      rw [List.count_append, List.count_singleton_self]
    rw [resumed_concat]
    generalize hstate : (after secretSalt topic events).resumed secretSalt topic ps = t
      at hpos horigin
    unfold AuditService.step
    rw [hpos]
    dsimp only
    cases hmessage : (topic p)[pos p]? with
    | none =>
      have hend : (topic p).length ≤ pos p := List.getElem?_eq_none_iff.mp hmessage
      refine ⟨pos, hpos, fun q => ?_⟩
      by_cases hq : q = p
      · subst hq
        rw [hself, hcount q]
        rw [hcount q] at hend
        omega
      · rw [hother q hq, hcount q]
    | some message =>
      have hlt : pos p < (topic p).length := lt_length hmessage
      have hpending : Pending topic (after secretSalt topic events) (fun q => (topic q).length) p
          (pos p) message := ⟨hcommitted p, hlt, hmessage⟩
      have hnext : ∀ q, Function.update pos p (pos p + 1) q = min (topic q).length
          ((after secretSalt topic events).committed q + (ps ++ [p]).count q) := by
        intro q
        by_cases hq : q = p
        · subst hq
          rw [Function.update_self, hself]
          rw [hcount q] at hlt ⊢
          omega
        · rw [Function.update_of_ne hq, hother q hq, hcount q]
      unfold AuditService.handle
      cases message with
      | unreadable => exact absurd hpending (h.readable p (pos p))
      | null => exact ⟨_, rfl, hnext⟩
      | event evt =>
        -- a stored id was stored before the restart, or is the one of another pending record
        have hnew : ¬ Stored t.rows evt.eventId := by
          intro hstored
          rcases horigin pos hpos evt.eventId hstored with hold | ⟨q, j, e, hq, hid⟩
          · exact h.fresh p (pos p) evt hpending hold
          · have hq' : Pending topic (after secretSalt topic events) (fun q => (topic q).length) q j
                (.event e) := ⟨hq.1, lt_length hq.2.2, hq.2.2⟩
            obtain ⟨rfl, rfl⟩ := h.distinct q j e p (pos p) evt hq' hpending hid
            exact lt_irrefl _ hq.2.1
        have happend : appendAsync secretSalt t.rows evt =
            some (t.rows ++ [linked secretSalt t.rows evt]) := by
          refine appendAsync_eq_some_iff.mpr ⟨rfl, hnew, ?_⟩
          rw [← hstate, resumed_after] at hpos hnew ⊢
          exact hfree _ pos p evt hpos hmessage hnew
        dsimp only
        rw [if_neg (by decide), happend]
        exact ⟨_, rfl, hnext⟩

theorem goesOn_of_unblocked {events : List (ServiceEvent π)}
    (hfree : CollisionFree secretSalt topic)
    (h : Unblocked topic (after secretSalt topic events)) :
    GoesOn secretSalt topic (after secretSalt topic events) := by
  intro ps hps
  have hsound : Sound topic (after secretSalt topic events) := sound_after events
  have halong : Along topic (after secretSalt topic events)
      ((after secretSalt topic events).resumed secretSalt topic ps) := along_resumed _ ps
  obtain ⟨pos, hpos, hcount⟩ := position_resumed hfree h ps
  have hend : pos = fun p => (topic p).length := by
    funext p
    rw [hcount p]
    exact Nat.min_eq_left (hps p)
  subst hend
  obtain ⟨-, -, hstored⟩ := halong.passed _ hpos
  refine ⟨hpos, ?_, halong.grown, ?_⟩
  · intro p evt hevt
    obtain ⟨i, hi⟩ := List.mem_iff_getElem?.mp hevt
    rcases Nat.lt_or_ge i ((after secretSalt topic events).committed p) with hlt | hge
    · exact (hsound.stored p i evt hlt hi).mono halong.grown
    · exact hstored p i evt ⟨hge, lt_length hi, hi⟩
  · rw [resumed_after]
    exact (sound_after _).distinct

theorem collisionFree_of_eventId_eq
    (h : ∀ p q evt evt', .event evt ∈ topic p → .event evt' ∈ topic q →
      evt.eventId = evt'.eventId) : CollisionFree secretSalt topic := by
  intro events pos p evt _ hevt hnew row hrow
  obtain ⟨q, evt', hevt', hid⟩ := (sound_after events).origin row.eventId ⟨row, hrow, rfl⟩
  refine absurd ⟨row, hrow, ?_⟩ hnew
  rw [← hid]
  exact h q p evt' evt hevt' (List.mem_of_getElem? hevt)

def shelvings : Unit → List Message := fun _ =>
  [.event (operatorEvent 1 638999999990000000), .event (operatorEvent 2 639000000000000000)]

def shelving : Unit → List Message := fun p => (shelvings p).take 1

end AuditService

end OpenBridge.Audit
