import OpenBridge.EventFrames.EventFrameLifecycle
import OpenBridge.Foundation.Machine

/-!
# Event frames: the table and its consumer

`CplmEventFrameService` applies each gate verdict in one transaction.  The table here holds the rows
of one loop and window kind.
-/

namespace OpenBridge.EventFrames

open OpenBridge.Foundation

/-- A row of `analytics.cplm_event_frames`. -/
structure FrameRow where
  id : ℕ
  frame : FrameState
  deriving DecidableEq

namespace FrameRow

/-- `closed_at IS NULL`. -/
def isOpen (r : FrameRow) : Bool := r.frame.closedAt.isNone

end FrameRow

/-- The rows of one loop and window kind, in the order of their insertion. -/
structure FrameTable where
  nextId : ℕ := 1
  rows : List FrameRow := []
  deriving DecidableEq

namespace FrameTable

/-- `ReadOpenAsync`: the open row that was opened last. -/
def readOpen (t : FrameTable) : Option FrameRow :=
  ((t.rows.filter FrameRow.isOpen).mergeSort fun a b => b.frame.openedAt.ms ≤ a.frame.openedAt.ms).head?

/-- The `DO UPDATE` of an insertion that meets an open row of its family. -/
def mergeInto (old new : FrameState) : FrameState :=
  { old with
    peakDiagnosis :=
      if old.peakConfidence.lt new.peakConfidence then new.peakDiagnosis else old.peakDiagnosis
    peakConfidence := old.peakConfidence.max new.peakConfidence
    lastDiagnosis := new.lastDiagnosis
    lastConfidence := new.lastConfidence
    severity := new.severity <|> old.severity
    availabilityState := .observed
    resultRevision := new.resultRevision }

def conflicts (f : FrameState) (r : FrameRow) : Bool := r.isOpen ∧ r.frame.family = f.family

/-- `InsertAsync`. -/
def insert (t : FrameTable) (f : FrameState) : FrameTable :=
  if t.rows.any (conflicts f) then
    { t with
      nextId := t.nextId + 1
      rows := t.rows.map fun r =>
        if conflicts f r then { r with frame := mergeInto r.frame f } else r }
  else { nextId := t.nextId + 1, rows := t.rows ++ [⟨t.nextId, f⟩] }

/-- `UpdateAsync`: every column but the family and the opening time. -/
def update (t : FrameTable) (id : ℕ) (f : FrameState) : FrameTable :=
  { t with
    rows := t.rows.map fun r =>
      if r.id = id then
        { r with frame := { f with family := r.frame.family, openedAt := r.frame.openedAt } }
      else r }

def write (t : FrameTable) (read : Option FrameRow) (τ : Transition) : FrameTable :=
  let id := (read.map FrameRow.id).getD 0
  match τ.kind, τ.frame, τ.closed with
  | .ignore, _, _ => t
  | .open, some f, _ => t.insert f
  | .closeAndOpen, some f, some closed => (t.update id closed).insert f
  | _, some f, _ => t.update id f
  | _, none, _ => t

/-- `ApplyAsync`: one verdict. -/
def applyVerdict (familyChangeWindows : ℤ) (t : FrameTable) (v : GateVerdict) :
    FrameTable × List TransitionKind :=
  let read := t.readOpen
  let τ := EventFrameLifecycle.apply (read.map FrameRow.frame) v (max 1 familyChangeWindows)
  (t.write read τ, [τ.kind])

def after (familyChangeWindows : ℤ) (verdicts : List GateVerdict) : FrameTable :=
  Machine.stateAfter (applyVerdict familyChangeWindows) {} verdicts

variable (n : ℤ)

@[simp] theorem after_nil : after n [] = {} := rfl

@[simp] theorem after_concat (vs : List GateVerdict) (v : GateVerdict) :
    after n (vs ++ [v]) = (applyVerdict n (after n vs) v).1 :=
  Machine.stateAfter_concat _ _ _ _

end FrameTable

/-!
# Event frames: what a verdict can do to the table

The rows are the closed episodes and, after them, at most one open one.
-/

open EventFrameLifecycle

def GateVerdict.isFault (v : GateVerdict) : Bool := classify v.diagnosis = .fault

def GateVerdict.family (v : GateVerdict) : String := familyOf (v.diagnosis.getD "")

def GateVerdict.recovers (v : GateVerdict) : Bool :=
  classify v.diagnosis = .clear ∧ recoverySupportMs v ≤ v.qualifiedSupportMs

def GateVerdict.inconclusive (v : GateVerdict) : Bool := !v.isFault && !v.recovers

/-- Everything of a frame but its newest result. -/
structure Standing where
  family : String
  openedAt : DateTime
  closedAt : Option DateTime
  peakDiagnosis : String
  peakConfidence : Double
  windowCount : ℤ
  qualifiedSupportMs : ℤ
  supportUntil : Option DateTime
  candidateFamily : Option String
  candidateWindows : ℕ
  deriving DecidableEq

def FrameState.standing (f : FrameState) : Standing :=
  { family := f.family, openedAt := f.openedAt, closedAt := f.closedAt,
    peakDiagnosis := f.peakDiagnosis, peakConfidence := f.peakConfidence,
    windowCount := f.windowCount, qualifiedSupportMs := f.qualifiedSupportMs,
    supportUntil := f.supportUntil, candidateFamily := f.candidateFamily,
    candidateWindows := f.candidateWindows }

def FrameState.pending (f : FrameState) (v : GateVerdict) : FrameState :=
  { extend f (v.diagnosis.getD "") v false with
    candidateFamily := some v.family, candidateWindows := held f v.family, severity := f.severity }

def FrameState.extended (f : FrameState) (v : GateVerdict) : FrameState :=
  { extend f (v.diagnosis.getD "") v true with candidateFamily := none, candidateWindows := 0 }

def FrameState.noted (f : FrameState) (v : GateVerdict) (availability : AvailabilityState) :
    FrameState :=
  { f with
    availabilityState := availability, lastDiagnosis := v.diagnosis,
    lastConfidence := some v.confidence, resultRevision := v.resultRevision }

def GateVerdict.opens (v : GateVerdict) : FrameState := openFrame v.family (v.diagnosis.getD "") v

/-- What a verdict does to the closed rows, the open row and the next id. -/
inductive Step (n : ℤ) (cs : List FrameRow) (next : ℕ) (v : GateVerdict) :
    Option FrameRow → List FrameRow → Option FrameRow → ℕ → Prop
  | ignored (h : v.isFault = false) : Step n cs next v none cs none next
  | opened (h : v.isFault = true) : Step n cs next v none cs (some ⟨next, v.opens⟩) (next + 1)
  | noted {r : FrameRow} (availability : AvailabilityState) (h : v.inconclusive = true) :
      Step n cs next v (some r) cs (some ⟨r.id, r.frame.noted v availability⟩) next
  | recovered {r : FrameRow} (h : v.recovers = true) :
      Step n cs next v (some r) (cs ++ [⟨r.id, closeFrame r.frame v .recovered⟩]) none next
  | changed {r : FrameRow} (h : v.isFault = true) (hne : r.frame.family ≠ v.family)
      (hheld : max 1 n ≤ held r.frame v.family) :
      Step n cs next v (some r) (cs ++ [⟨r.id, closeFrame r.frame v .familyChanged⟩])
        (some ⟨next, v.opens⟩) (next + 1)
  | pending {r : FrameRow} (h : v.isFault = true) (hne : r.frame.family ≠ v.family)
      (hheld : held r.frame v.family < max 1 n) :
      Step n cs next v (some r) cs (some ⟨r.id, r.frame.pending v⟩) next
  | extended {r : FrameRow} (h : v.isFault = true) (heq : r.frame.family = v.family) :
      Step n cs next v (some r) cs (some ⟨r.id, r.frame.extended v⟩) next

/-- The table holds the closed rows `cs` and then the open row `o`. -/
structure Holds (t : FrameTable) (cs : List FrameRow) (o : Option FrameRow) : Prop where
  rows : t.rows = cs ++ o.toList
  closed : ∀ r ∈ cs, r.isOpen = false
  standing : ∀ r ∈ o, r.isOpen = true
  fresh : ∀ r ∈ cs ++ o.toList, r.id < t.nextId
  distinct : ((cs ++ o.toList).map FrameRow.id).Nodup

theorem holds_empty : Holds {} [] none where
  rows := rfl
  closed := by simp
  standing := by simp
  fresh := by simp
  distinct := by simp

section Table

variable {t : FrameTable} {cs : List FrameRow} {o : Option FrameRow}

namespace Holds

theorem filter_open (h : Holds t cs o) : t.rows.filter FrameRow.isOpen = o.toList := by
  rw [h.rows, List.filter_append]
  have hcs : cs.filter FrameRow.isOpen = [] := by
    rw [List.filter_eq_nil_iff]
    intro r hr
    simp [h.closed r hr]
  have ho : o.toList.filter FrameRow.isOpen = o.toList := by
    rw [List.filter_eq_self]
    intro r hr
    exact h.standing r (by simpa using hr)
  rw [hcs, ho, List.nil_append]

theorem readOpen (h : Holds t cs o) : t.readOpen = o := by
  unfold FrameTable.readOpen
  rw [h.filter_open]
  cases o with
  | none => simp
  | some r => simp

theorem insert (h : Holds t cs none) {f : FrameState} (hf : f.closedAt = none) :
    Holds (t.insert f) cs (some ⟨t.nextId, f⟩) ∧ (t.insert f).nextId = t.nextId + 1 := by
  have hrows : t.rows = cs := by simpa using h.rows
  have hnone : t.rows.any (FrameTable.conflicts f) = false := by
    rw [hrows, List.any_eq_false]
    intro r hr
    simp [FrameTable.conflicts, h.closed r hr]
  have hinsert : t.insert f = { nextId := t.nextId + 1, rows := t.rows ++ [⟨t.nextId, f⟩] } := by
    unfold FrameTable.insert
    rw [hnone]
    rfl
  rw [hinsert]
  refine ⟨⟨by simp [hrows], h.closed, ?_, ?_, ?_⟩, rfl⟩
  · simp [FrameRow.isOpen, hf]
  · intro r hr
    rcases List.mem_append.mp hr with hr | hr
    · exact (h.fresh r (by simpa using hr)).trans (Nat.lt_succ_self _)
    · obtain rfl : r = ⟨t.nextId, f⟩ := by simpa using hr
      exact Nat.lt_succ_self _
  · have hdistinct : (cs.map FrameRow.id).Nodup := by simpa using h.distinct
    simp only [Option.toList_some, List.map_append, List.map_cons, List.map_nil,
      List.nodup_append, hdistinct, List.nodup_singleton, true_and]
    intro a ha b hb
    obtain ⟨r, hr, rfl⟩ := List.mem_map.mp ha
    obtain rfl : b = t.nextId := by simpa using hb
    exact (h.fresh r (by simpa using hr)).ne

theorem update {r : FrameRow} (h : Holds t cs (some r)) {f : FrameState}
    (hfamily : f.family = r.frame.family) (hopened : f.openedAt = r.frame.openedAt) :
    (t.update r.id f).rows = cs ++ [⟨r.id, f⟩] ∧ (t.update r.id f).nextId = t.nextId := by
  have hdistinct := h.distinct
  rw [Option.toList_some, List.map_append, List.map_singleton, List.nodup_append] at hdistinct
  refine ⟨?_, rfl⟩
  unfold FrameTable.update
  rw [h.rows]
  simp only [Option.toList_some, List.map_append, List.map_cons, List.map_nil, if_true]
  congr 1
  · refine (List.map_congr_left ?_).trans (List.map_id _)
    intro q hq
    have hne : q.id ≠ r.id := hdistinct.2.2 q.id (List.mem_map_of_mem hq) r.id (by simp)
    rw [if_neg hne, id]
  · rw [← hfamily, ← hopened]

theorem update_close {r : FrameRow} (h : Holds t cs (some r)) {f : FrameState}
    (hfamily : f.family = r.frame.family) (hopened : f.openedAt = r.frame.openedAt)
    (hclosed : f.closedAt.isSome) : Holds (t.update r.id f) (cs ++ [⟨r.id, f⟩]) none := by
  obtain ⟨hrows, hnext⟩ := h.update hfamily hopened
  refine ⟨by simpa using hrows, ?_, by simp, ?_, by simpa using h.distinct⟩
  · intro q hq
    rcases List.mem_append.mp hq with hq | hq
    · exact h.closed q hq
    · obtain rfl : q = ⟨r.id, f⟩ := by simpa using hq
      simpa [FrameRow.isOpen] using hclosed
  · intro q hq
    rw [hnext]
    rcases List.mem_append.mp (by simpa using hq : q ∈ cs ++ [⟨r.id, f⟩]) with hq | hq
    · exact h.fresh q (by simp [hq])
    · obtain rfl : q = ⟨r.id, f⟩ := by simpa using hq
      exact h.fresh r (by simp)

theorem update_keep {r : FrameRow} (h : Holds t cs (some r)) {f : FrameState}
    (hfamily : f.family = r.frame.family) (hopened : f.openedAt = r.frame.openedAt)
    (hclosed : f.closedAt = r.frame.closedAt) :
    Holds (t.update r.id f) cs (some ⟨r.id, f⟩) := by
  obtain ⟨hrows, hnext⟩ := h.update hfamily hopened
  have hstanding := h.standing r rfl
  refine ⟨by simpa using hrows, h.closed, ?_, ?_, by simpa using h.distinct⟩
  · simpa [FrameRow.isOpen, hclosed] using hstanding
  · intro q hq
    rw [hnext]
    rcases List.mem_append.mp hq with hq | hq
    · exact h.fresh q (by simp [hq])
    · obtain rfl : q = ⟨r.id, f⟩ := by simpa using hq
      exact h.fresh r (by simp)

end Holds

theorem exists_step (n : ℤ) (h : Holds t cs o) (v : GateVerdict) :
    ∃ cs' o', Step n cs t.nextId v o cs' o' (FrameTable.applyVerdict n t v).1.nextId ∧
      Holds (FrameTable.applyVerdict n t v).1 cs' o' := by
  unfold FrameTable.applyVerdict
  rw [h.readOpen]
  dsimp only
  cases hclass : classify v.diagnosis with
  | unobservable =>
    have hv : v.inconclusive = true := by
      simp [GateVerdict.inconclusive, GateVerdict.isFault, GateVerdict.recovers, hclass]
    cases o with
    | none =>
      simp only [apply, hclass, Option.map_none, FrameTable.write]
      exact ⟨cs, none, .ignored (by simp [GateVerdict.isFault, hclass]), h⟩
    | some r =>
      simp only [apply, hclass, Option.map_some, FrameTable.write, Option.getD_some]
      exact ⟨cs, _, .noted .unobservable hv,
        h.update_keep (f := r.frame.noted v .unobservable) rfl rfl rfl⟩
  | clear =>
    cases o with
    | none =>
      simp only [apply, hclass, Option.map_none, FrameTable.write]
      exact ⟨cs, none, .ignored (by simp [GateVerdict.isFault, hclass]), h⟩
    | some r =>
      simp only [apply, hclass, Option.map_some]
      split
      · rename_i henough
        have hv : v.recovers = true := by simp [GateVerdict.recovers, hclass, henough]
        simp only [FrameTable.write, Option.map_some, Option.getD_some]
        exact ⟨_, none, .recovered hv, h.update_close rfl rfl rfl⟩
      · rename_i hless
        have hv : v.inconclusive = true := by
          simp [GateVerdict.inconclusive, GateVerdict.isFault, GateVerdict.recovers, hclass, hless]
        simp only [FrameTable.write, Option.map_some, Option.getD_some]
        exact ⟨cs, _, .noted .observed hv,
          h.update_keep (f := r.frame.noted v .observed) rfl rfl rfl⟩
  | fault =>
    have hv : v.isFault = true := by simp [GateVerdict.isFault, hclass]
    simp only [apply, hclass]
    cases o with
    | none =>
      simp only [applyFault, Option.map_none, FrameTable.write]
      obtain ⟨hholds, hnext⟩ := h.insert (f := v.opens) rfl
      exact ⟨cs, _, hnext ▸ .opened hv, hholds⟩
    | some r =>
      simp only [applyFault, Option.map_some]
      split
      · rename_i hne
        split
        · rename_i hheld
          simp only [FrameTable.write, Option.map_some, Option.getD_some]
          have hclose := h.update_close (f := closeFrame r.frame v .familyChanged) rfl rfl rfl
          obtain ⟨hholds, hnext⟩ := hclose.insert (f := v.opens) rfl
          exact ⟨_, _, hnext ▸ .changed hv hne (by rwa [max_eq_right (le_max_left 1 n)] at hheld), hholds⟩
        · rename_i hless
          simp only [FrameTable.write, Option.map_some, Option.getD_some]
          exact ⟨cs, _, .pending hv hne (by rwa [max_eq_right (le_max_left 1 n), not_le] at hless),
            h.update_keep (f := r.frame.pending v) rfl rfl rfl⟩
      · rename_i heq
        have hstep : Step n cs t.nextId v (some r) cs (some ⟨r.id, r.frame.extended v⟩) t.nextId :=
          .extended hv (not_not.mp heq)
        split <;> simp only [FrameTable.write, Option.map_some, Option.getD_some]
        · exact ⟨cs, _, hstep, h.update_keep (f := r.frame.extended v) rfl rfl rfl⟩
        · exact ⟨cs, _, hstep, h.update_keep (f := r.frame.extended v) rfl rfl rfl⟩

end Table

end OpenBridge.EventFrames
