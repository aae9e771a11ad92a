import OpenBridge.Conditions.WellFormedEpisodes
import OpenBridge.Foundation.Text

/-!
# Conditions: the times of a record

A record is emitted at its last time, and its duration is the time from its start to that.
-/

namespace OpenBridge.Conditions

open OpenBridge.Foundation

namespace ConditionEvent

def lasting (e : ConditionEvent) (toMs : ℤ) : F64 :=
  F64.div (F64.ofInt (toMs - e.startMs)) (F64.ofInt 1000)

/-- A closed record lasts to its end, and another one, which has no end, to its last sample. -/
def Stamped (e : ConditionEvent) : Prop :=
  if e.state = "CLOSED" then e.durationS = e.lasting e.endMs ∧ e.emittedAtMs = e.endMs
  else e.endMs = 0 ∧ e.durationS = e.lasting e.lastMs ∧ e.emittedAtMs = e.lastMs

theorem stamped_closed {e : ConditionEvent} (hstate : e.state = "CLOSED") :
    e.Stamped ↔ e.durationS = e.lasting e.endMs ∧ e.emittedAtMs = e.endMs := by
  rw [Stamped, if_pos hstate]

theorem stamped_open {e : ConditionEvent} (hstate : e.state ≠ "CLOSED") : e.Stamped ↔
    e.endMs = 0 ∧ e.durationS = e.lasting e.lastMs ∧ e.emittedAtMs = e.lastMs := by
  rw [Stamped, if_neg hstate]

end ConditionEvent

namespace ConditionDetector

variable {d : ConditionDetector} {log : List ConditionEvent} {x : Input}
  {before startMs endMs ts u : ℤ}

end ConditionDetector

/-!
# Conditions: delivery of the records of an episode

The topic delivers each record at least once and in any order.
-/

/-- A record on the topic: a condition, with the identity of the build that emitted it. -/
structure ConditionRecord where
  event : ConditionEvent
  sourceCommit : String
  jarSha256 : String
  deriving DecidableEq

/-- A row of `analytics.condition_event`, with the identity of the build. -/
structure StoredCondition where
  row : ConditionRow
  sourceCommit : Option String
  jarSha256 : Option String
  deriving DecidableEq

abbrev StoredConditions := Dict ConditionKey StoredCondition

namespace ConditionRecord

/-- `string.IsNullOrWhiteSpace`. -/
def isBlank (s : String) : Bool := s.toList.all isWhiteSpace

def stored (r : ConditionRecord) : StoredCondition :=
  ⟨ConditionEventStore.parse r.event, some r.sourceCommit, some r.jarSha256⟩

/-- `Parse`: a record without a gate, a kind or a state is skipped. -/
def parse (r : ConditionRecord) : Option StoredCondition :=
  if isBlank r.event.gate ∨ isBlank r.event.kind ∨ isBlank r.event.state then none
  else some r.stored

end ConditionRecord

namespace StoredConditions

def merge (existing excluded : StoredCondition) : StoredCondition :=
  { row := ConditionEventStore.merge existing.row excluded.row
    sourceCommit := excluded.sourceCommit.or existing.sourceCommit
    jarSha256 := excluded.jarSha256.or existing.jarSha256 }

/-- A row for a key: inserted, or updated where `shouldApply` lets it. -/
def upsert (store : StoredConditions) (key : ConditionKey) (incoming : StoredCondition) :
    StoredConditions :=
  match store.get? key with
  | none => store.set key incoming
  | some existing =>
      if ConditionEventStore.shouldApply (some existing.row.state) incoming.row.state then
        store.set key (merge existing incoming)
      else store

/-- `ApplyAsync`. -/
def apply (store : StoredConditions) (r : ConditionRecord) : StoredConditions :=
  match r.parse with
  | none => store
  | some incoming => store.upsert r.event.key incoming

def deliver (store : StoredConditions) (records : List ConditionRecord) : StoredConditions :=
  records.foldl apply store

variable {store : StoredConditions} {r : ConditionRecord} {k : ConditionKey}

theorem get?_apply_of_ne (hk : k ≠ r.event.key) : (store.apply r).get? k = store.get? k := by
  unfold apply upsert
  split
  · rfl
  · split
    · exact Dict.get?_set_of_ne store _ hk
    · split
      · exact Dict.get?_set_of_ne store _ hk
      · rfl

def updated (row : Option StoredCondition) (incoming : StoredCondition) : StoredCondition :=
  match row with
  | none => incoming
  | some existing =>
      if ConditionEventStore.shouldApply (some existing.row.state) incoming.row.state then
        merge existing incoming
      else existing

theorem get?_apply (hparse : r.parse = some r.stored) : (store.apply r).get? r.event.key =
    some (updated (store.get? r.event.key) r.stored) := by
  unfold apply upsert updated
  rw [hparse]
  dsimp only
  cases hrow : store.get? r.event.key with
  | none => exact Dict.get?_set_self _ _ _
  | some existing =>
    dsimp only
    split
    · exact Dict.get?_set_self _ _ _
    · exact hrow

/-! ## Rows on the way to a closed one -/

/-- A row that is not closed and whose values do not pass those of another row. -/
structure Precedes (row final : StoredCondition) : Prop where
  state : row.row.state ≠ "CLOSED"
  endMs : row.row.endMs = none
  lastMs : row.row.lastMs ≤ final.row.lastMs
  durationS : F64.le row.row.durationS final.row.durationS
  emittedAtMs : row.row.emittedAtMs ≤ final.row.emittedAtMs

theorem greatest_le {a b c : F64} (ha : F64.le a c) (hb : F64.le b c) :
    F64.le (ConditionEventStore.greatest a b) c := by
  have hne : ∀ x : F64, F64.le x c → x ≠ none := by
    intro x hx
    unfold F64.le at hx
    rw [decide_eq_true_eq] at hx
    rcases hx with hlt | ⟨-, hne⟩
    · exact (F64.ne_nan_of_lt hlt).1
    · exact hne
  unfold ConditionEventStore.greatest
  rw [if_neg (by simp [hne a ha, hne b hb])]
  split
  · exact hb
  · exact ha

theorem merge_precedes {row excluded final : StoredCondition} (h : Precedes row final)
    (h' : Precedes excluded final) : Precedes (merge row excluded) final where
  state := h'.state
  endMs := by
    change excluded.row.endMs.or row.row.endMs = none
    rw [h.endMs, h'.endMs]
    rfl
  lastMs := max_le h.lastMs h'.lastMs
  durationS := greatest_le h.durationS h'.durationS
  emittedAtMs := max_le h.emittedAtMs h'.emittedAtMs

theorem merge_stored {row : StoredCondition} {closing : ConditionRecord}
    (hstate : closing.event.state = "CLOSED")
    (hend : closing.stored.row.endMs.or row.row.endMs = closing.stored.row.endMs)
    (hlast : row.row.lastMs ≤ closing.event.lastMs)
    (hduration : F64.le row.row.durationS closing.event.durationS)
    (hemitted : row.row.emittedAtMs ≤ closing.event.emittedAtMs) :
    merge row closing.stored = closing.stored := by
  have hgreatest : ConditionEventStore.greatest row.row.durationS closing.event.durationS =
      closing.event.durationS := F64.max_eq_right hduration
  unfold ConditionRecord.stored ConditionEventStore.parse at hend ⊢
  unfold merge ConditionEventStore.merge
  dsimp only at hend ⊢
  rw [hgreatest, max_eq_right hlast, max_eq_right hemitted, hend, if_pos hstate]
  rfl

end StoredConditions

/-! ## Episodes -/

structure ConditionEpisode extends Episode where
  wellFormed : toEpisode.WellFormed
  named : ∀ r ∈ toEpisode.records, r.gate = opening.gate ∧ r.kind = opening.kind
  legible : ConditionRecord.isBlank opening.gate = false ∧
    ConditionRecord.isBlank opening.kind = false
  stamped : ∀ r ∈ toEpisode.records, r.Stamped

namespace ConditionEpisode

open StoredConditions

variable {e : ConditionEpisode} {closing r : ConditionRecord}

theorem mem_of_closing {c : ConditionEvent} (h : c ∈ e.closing) : c ∈ e.toEpisode.records :=
  List.mem_cons_of_mem _ (List.mem_append_right _ (Option.mem_toList.mpr h))

theorem mem_of_open {o : ConditionEvent} (h : o ∈ e.opening :: e.updates) :
    o ∈ e.toEpisode.records := by
  unfold Episode.records
  rw [← List.cons_append]
  exact List.mem_append_left _ h

theorem state_of_open {o : ConditionEvent} (h : o ∈ e.opening :: e.updates) :
    o.state = "OPEN" ∨ o.state = "UPDATE" := by
  rcases List.mem_cons.mp h with rfl | h
  · exact Or.inl e.wellFormed.opens
  · exact Or.inr (e.wellFormed.persists o h)

theorem parse_eq (h : r.event ∈ e.toEpisode.records) : r.parse = some r.stored := by
  obtain ⟨hgate, hkind⟩ := e.named _ h
  have hstate : r.event.state = "OPEN" ∨ r.event.state = "UPDATE" ∨ r.event.state = "CLOSED" := by
    unfold Episode.records at h
    rw [← List.cons_append] at h
    rcases List.mem_append.mp h with h | h
    · exact (state_of_open h).imp_right Or.inl
    · exact Or.inr (Or.inr (e.wellFormed.closes _ (Option.mem_toList.mp h)).1)
  have hblank : ConditionRecord.isBlank r.event.state = false := by
    rcases hstate with h | h | h <;> rw [h] <;> decide
  unfold ConditionRecord.parse
  rw [hgate, hkind, e.legible.1, e.legible.2, hblank]
  rfl

theorem lasting_le {a b : ConditionEvent} {aMs bMs : ℤ} (hstart : a.startMs = b.startMs)
    (ha : a.startMs ≤ aMs) (hle : aMs ≤ bMs) : F64.le (a.lasting aMs) (b.lasting bMs) := by
  have hthousand : F64.ofInt 1000 = some (.finite 1000) := by
    unfold F64.ofInt
    rw [Double.ofInt_of_abs_lt (by norm_num)]
    rfl
  unfold ConditionEvent.lasting
  rw [hthousand, ← hstart]
  refine F64.div_le_div ?_ ?_ (by norm_num)
  · exact_mod_cast sub_nonneg.mpr ha
  · exact_mod_cast sub_le_sub_right hle _

theorem lastMs_le_closing {o c : ConditionEvent} (hc : c ∈ e.closing)
    (h : o ∈ e.opening :: e.updates) : o.lastMs ≤ c.lastMs := by
  have hordered := e.wellFormed.ordered
  unfold Episode.records at hordered
  rw [← List.cons_append] at hordered
  exact (List.pairwise_append.mp hordered).2.2 o h c (Option.mem_toList.mpr hc)

theorem precedes_of_open (hclosing : closing.event ∈ e.closing)
    (h : r.event ∈ e.opening :: e.updates) : Precedes r.stored closing.stored := by
  have hmem := mem_of_open h
  have hmem' := mem_of_closing hclosing
  obtain ⟨hclosed, hend⟩ := e.wellFormed.closes _ hclosing
  have hstate : r.event.state ≠ "CLOSED" := by
    rcases state_of_open h with hstate | hstate <;> rw [hstate] <;> decide
  obtain ⟨hzero, hduration, hemitted⟩ := (ConditionEvent.stamped_open hstate).mp (e.stamped _ hmem)
  obtain ⟨hduration', hemitted'⟩ := (ConditionEvent.stamped_closed hclosed).mp (e.stamped _ hmem')
  have hlast := lastMs_le_closing hclosing h
  have hstart : r.event.startMs = closing.event.startMs :=
    (e.wellFormed.start _ hmem).trans (e.wellFormed.start _ hmem').symm
  refine ⟨hstate, ?_, hlast, ?_, ?_⟩
  · unfold ConditionRecord.stored ConditionEventStore.parse
    dsimp only
    rw [hzero]
    rfl
  · change F64.le r.event.durationS closing.event.durationS
    rw [hduration, hduration']
    exact lasting_le hstart (e.wellFormed.last _ hmem) (by omega)
  · change r.event.emittedAtMs ≤ closing.event.emittedAtMs
    omega

theorem merge_of_precedes {row : StoredCondition} (hclosing : closing.event ∈ e.closing)
    (h : Precedes row closing.stored) : merge row closing.stored = closing.stored := by
  refine merge_stored (e.wellFormed.closes _ hclosing).1 ?_ h.lastMs h.durationS h.emittedAtMs
  rw [h.endMs, Option.or_none]

theorem merge_self (hclosing : closing.event ∈ e.closing) :
    merge closing.stored closing.stored = closing.stored := by
  have hclosed := (e.wellFormed.closes _ hclosing).1
  have hmem := mem_of_closing hclosing
  obtain ⟨hduration, -⟩ := (ConditionEvent.stamped_closed hclosed).mp (e.stamped _ hmem)
  have hlast := e.wellFormed.last _ hmem
  have hend := (e.wellFormed.closes _ hclosing).2
  refine merge_stored hclosed (Option.or_self) (le_refl _) ?_ (le_refl _)
  change F64.le closing.event.durationS closing.event.durationS
  rw [hduration]
  exact lasting_le rfl (by omega) (le_refl _)

/-- The row of an episode, once its closed record has come and before. -/
def Settled (closing : ConditionRecord) (delivered : List ConditionRecord)
    (row : Option StoredCondition) : Prop :=
  if closing ∈ delivered then row = some closing.stored
  else ∀ s ∈ row, Precedes s closing.stored

theorem updated_closing (hclosing : closing.event ∈ e.closing) {row : Option StoredCondition}
    (h : row = some closing.stored ∨ ∀ s ∈ row, Precedes s closing.stored) :
    updated row closing.stored = closing.stored := by
  have hclosed : closing.stored.row.state = "CLOSED" := (e.wellFormed.closes _ hclosing).1
  unfold updated
  split
  · rfl
  · rename_i existing
    rw [if_pos (by simp [ConditionEventStore.shouldApply, hclosed])]
    rcases h with h | h
    · rw [Option.some.inj h, merge_self hclosing]
    · exact merge_of_precedes hclosing (h existing rfl)

theorem updated_closed {incoming : StoredCondition} (hclosing : closing.event ∈ e.closing)
    (h : Precedes incoming closing.stored) :
    updated (some closing.stored) incoming = closing.stored := by
  have hclosed : closing.stored.row.state = "CLOSED" := (e.wellFormed.closes _ hclosing).1
  unfold updated
  dsimp only
  rw [if_neg]
  simp [ConditionEventStore.shouldApply, hclosed, h.state]

theorem updated_precedes {row : Option StoredCondition} {incoming : StoredCondition}
    (hrow : ∀ s ∈ row, Precedes s closing.stored) (h : Precedes incoming closing.stored) :
    Precedes (updated row incoming) closing.stored := by
  unfold updated
  split
  · exact h
  · rename_i existing
    split
    · exact merge_precedes (hrow existing rfl) h
    · exact hrow existing rfl

theorem settled_apply {store : StoredConditions} {delivered : List ConditionRecord}
    (hclosing : closing.event ∈ e.closing)
    (h : Settled closing delivered (store.get? closing.event.key))
    (hr : r.event.key = closing.event.key → r = closing ∨ r.event ∈ e.opening :: e.updates) :
    Settled closing (delivered ++ [r]) ((store.apply r).get? closing.event.key) := by
  unfold Settled at h ⊢
  by_cases hkey : r.event.key = closing.event.key
  · rcases hr hkey with rfl | hopen
    · rw [if_pos (List.mem_append_right _ List.mem_cons_self),
        get?_apply (parse_eq (mem_of_closing hclosing))]
      refine congrArg some (updated_closing hclosing ?_)
      split at h
      · exact Or.inl h
      · exact Or.inr h
    · have hprecedes := precedes_of_open hclosing hopen
      have hne : closing ≠ r := by
        rintro rfl
        exact hprecedes.state (e.wellFormed.closes _ hclosing).1
      have hmem : closing ∈ delivered ++ [r] ↔ closing ∈ delivered := by simp [hne]
      rw [← hkey, get?_apply (parse_eq (mem_of_open hopen)), hkey]
      simp only [hmem]
      split at h
      · rename_i hdelivered
        rw [if_pos hdelivered, h, updated_closed hclosing hprecedes]
      · rename_i hdelivered
        rw [if_neg hdelivered]
        intro s hs
        rw [← Option.some.inj hs]
        exact updated_precedes h hprecedes
  · have hne : closing ≠ r := by
      rintro rfl
      exact hkey rfl
    have hmem : closing ∈ delivered ++ [r] ↔ closing ∈ delivered := by simp [hne]
    simp only [hmem]
    rw [get?_apply_of_ne (Ne.symm hkey)]
    exact h

theorem settled_deliver (hclosing : closing.event ∈ e.closing) {store : StoredConditions}
    (hnew : store.get? closing.event.key = none) {delivered : List ConditionRecord}
    (hrecords : ∀ r ∈ delivered, r.event.key = closing.event.key →
      r = closing ∨ r.event ∈ e.opening :: e.updates) :
    Settled closing delivered ((store.deliver delivered).get? closing.event.key) := by
  induction delivered using List.reverseRecOn with
  | nil =>
    unfold Settled deliver
    rw [if_neg List.not_mem_nil, List.foldl_nil, hnew]
    simp
  | append_singleton delivered r ih =>
    obtain ⟨hbefore, hr⟩ := List.forall_mem_append.mp hrecords
    unfold deliver
    rw [List.foldl_append]
    exact settled_apply hclosing (ih hbefore) (hr r List.mem_cons_self)

def sampleEvent (state : String) (lastMs endMs emittedAtMs : ℤ) (reason : String) :
    ConditionEvent :=
  { gate := "G11"
    kind := "FREEZE"
    state := state
    startMs := 0
    lastMs := lastMs
    endMs := endMs
    durationS := F64.div (F64.ofInt emittedAtMs) (F64.ofInt 1000)
    closeReason := reason
    evidence := Dict.empty
    emittedAtMs := emittedAtMs }

def sampleEpisode : ConditionEpisode where
  opening := sampleEvent "OPEN" 60000 0 60000 ""
  updates := [sampleEvent "UPDATE" 90000 0 90000 ""]
  closing := some (sampleEvent "CLOSED" 90000 95000 95000 "PV_MOVED")
  wellFormed := ⟨rfl, by simp [sampleEvent], by simp [sampleEvent],
    by simp [Episode.records, sampleEvent], by simp [Episode.records, sampleEvent],
    by simp [Episode.records, sampleEvent]⟩
  named := by simp [Episode.records, sampleEvent]
  legible := by decide
  stamped := by
    simp [Episode.records, sampleEvent, ConditionEvent.Stamped, ConditionEvent.lasting]

end ConditionEpisode

namespace ConditionDetector

variable {u : ℤ} {xs : List Input}

end ConditionDetector

end OpenBridge.Conditions
